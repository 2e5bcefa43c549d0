/-
  `asts_protobuf.rs`: the cellular frame and its sequence numbers.

  1. **The frame** — type byte, big-endian sequence number, big-endian length, payload, written into a
     buffer of the caller's.  A translation fails when the buffer is too short, and only then, and
     touches no byte behind its frame (`translateWithType_outcome`); bytes 1 to 4 of what it wrote are
     its number (`sequence_of_ok`).

  2. **The counter** — `GLOBAL_SEQUENCE`, one 32-bit counter for all translators of the process.  A call
     takes its number in ONE atomic step and writes its frame later, so calls overtake each other; a
     call that fails has used its number up.

  3. **Uniqueness** — a call's `ticket` is how many calls took a number before it.  Tickets never repeat,
     numbers are tickets modulo `2 ^ 32`: so no number repeats in the first `2 ^ 32` calls, and the next
     one repeats the first (`sequence_repeats`).
-/
import FloatProtocols.Codec.IridiumSbd
import FloatProtocols.Lib.Trace

namespace FloatProtocols

open Wire

/-- `IridiumSBDMessage::payload_slice`. -/
def IridiumSbd.IridiumSBDMessage.payloadSlice {ε : Type} (m : IridiumSbd.IridiumSBDMessage) :
    Exec ε Bytes :=
  Exec.slice m.payload.val 0 m.payloadLen.toNat

namespace AstsProtobuf

open IridiumSbd (IridiumSBDMessage)

/-! ## The frame -/

/-- `ASTSProtobufHeader`. -/
structure ASTSProtobufHeader where
  messageType : UInt8
  sequence : UInt32
  length : UInt16

/-- `ASTSProtobufMessage`. -/
structure ASTSProtobufMessage where
  header : ASTSProtobufHeader
  payload : Arr 1024
  payloadLen : UInt16

namespace ASTSProtobufMessage

/-- `ASTSProtobufMessage::new`. -/
def new (messageType : UInt8) (sequence : UInt32) : ASTSProtobufMessage where
  header := { messageType, sequence, length := 0 }
  payload := ⟨List.replicate 1024 0, List.length_replicate⟩
  payloadLen := 0

/-- `set_payload`; `none` is its `false`. -/
def setPayload (m : ASTSProtobufMessage) (data : Bytes) : Option ASTSProtobufMessage :=
  if h : data.length > 1024 then none
  else some
    { header := { m.header with length := .ofNat data.length }
      payload := ⟨data ++ m.payload.val.drop data.length, by
        rw [List.length_append, List.length_drop, m.payload.property]; omega⟩
      payloadLen := .ofNat data.length }

/-- `total_size`. -/
def totalSize (m : ASTSProtobufMessage) : Nat := 7 + m.payloadLen.toNat

/-- `encode_to_buffer`: the size, and the buffer as it leaves it. -/
def encodeToBuffer {ε : Type} (m : ASTSProtobufMessage) (buffer : Bytes) :
    Exec ε (Option Nat × Bytes) :=
  if buffer.length < m.totalSize then .ok (none, buffer)
  else do
    let buffer ← Exec.copyInto buffer 0 1 [m.header.messageType]
    let buffer ← Exec.copyInto buffer 1 5 (u32Be m.header.sequence)
    let buffer ← Exec.copyInto buffer 5 7 (u16Be m.header.length)
    let payload ← Exec.slice m.payload.val 0 m.payloadLen.toNat
    let buffer ← Exec.copyInto buffer 7 (7 + m.payloadLen.toNat) payload
    .ok (some m.totalSize, buffer)

end ASTSProtobufMessage

/-- `translate_with_type`, behind its `fetch_add`. -/
def translateWithType {ε : Type} (sequence : UInt32) (msg : IridiumSBDMessage) (messageType : UInt8)
    (buffer : Bytes) : Exec ε (Option Nat × Bytes) := do
  let payload ← msg.payloadSlice
  match (ASTSProtobufMessage.new messageType sequence).setPayload payload with
  | none => .ok (none, buffer)
  | some astsMsg => astsMsg.encodeToBuffer buffer

/-- `translate`, behind its `fetch_add`. -/
def translate {ε : Type} (sequence : UInt32) (msg : IridiumSBDMessage) (buffer : Bytes) :
    Exec ε (Option Nat × Bytes) :=
  translateWithType sequence msg 0x01 buffer

/-- The number in a frame. -/
def sequenceOf (frame : Bytes) : Bytes := window frame 1 4

theorem sequence_encodeToBuffer {ε : Type} {m : ASTSProtobufMessage} {buffer out : Bytes} {size : Nat}
    (h : (m.encodeToBuffer buffer : Exec ε _) = .ok (some size, out)) :
    sequenceOf (out.take size) = u32Be m.header.sequence := by
  rw [ASTSProtobufMessage.encodeToBuffer] at h
  split at h
  · cases h
  · obtain ⟨b₁, -, h⟩ := Exec.bind_eq_ok.mp h
    obtain ⟨b₂, h₂, h⟩ := Exec.bind_eq_ok.mp h
    obtain ⟨b₃, h₃, h⟩ := Exec.bind_eq_ok.mp h
    obtain ⟨payload, -, h⟩ := Exec.bind_eq_ok.mp h
    obtain ⟨b₄, h₄, h⟩ := Exec.bind_eq_ok.mp h
    cases h
    -- the number is written second, and the later writes are behind it
    rw [sequenceOf, window_take (by rw [ASTSProtobufMessage.totalSize]; omega),
      Exec.window_copyInto_of_le h₄ (by omega), Exec.window_copyInto_of_le h₃ (by omega)]
    exact Exec.window_copyInto_self h₂

/-- A frame carries the number it was made with. -/
theorem sequence_of_ok {ε : Type} {sequence : UInt32} {msg : IridiumSBDMessage} {messageType : UInt8}
    {buffer out : Bytes} {size : Nat}
    (h : (translateWithType sequence msg messageType buffer : Exec ε _) = .ok (some size, out)) :
    sequenceOf (out.take size) = u32Be sequence := by
  rw [translateWithType] at h
  obtain ⟨payload, -, h⟩ := Exec.bind_eq_ok.mp h
  rw [ASTSProtobufMessage.setPayload] at h
  split at h
  · cases h
  · rename_i astsMsg hset
    split at hset
    · cases hset
    · have henc := sequence_encodeToBuffer h
      obtain rfl := Option.some.inj hset
      exact henc

/-- The bytes of a frame. -/
def ASTSProtobufMessage.bytes (m : ASTSProtobufMessage) : Bytes :=
  [m.header.messageType] ++ u32Be m.header.sequence ++ u16Be m.header.length ++
    m.payload.val.take m.payloadLen.toNat

/-- **What `encode_to_buffer` leaves in the buffer**: the frame and, behind it, what was there. -/
theorem encodeToBuffer_outcome {ε : Type} {m : ASTSProtobufMessage} (buffer : Bytes)
    (hpayload : m.payloadLen.toNat ≤ 1024) :
    (m.encodeToBuffer buffer : Exec ε _) =
      if m.totalSize ≤ buffer.length then .ok (some m.totalSize, m.bytes ++ buffer.drop m.totalSize)
      else .ok (none, buffer) := by
  rw [ASTSProtobufMessage.encodeToBuffer]
  by_cases hshort : buffer.length < m.totalSize
  · rw [if_pos hshort, if_neg (Nat.not_le_of_lt hshort)]
  rw [if_neg hshort, if_pos (Nat.le_of_not_lt hshort)]
  rw [ASTSProtobufMessage.totalSize] at hshort ⊢
  obtain ⟨hslice, htake⟩ := Exec.slice_arr (ε := ε) m.payload hpayload
  -- four writes, each right behind the one before
  have h₁ : (Exec.copyInto buffer 0 1 [m.header.messageType] : Exec ε Bytes) =
      .ok ([m.header.messageType] ++ buffer.drop 1) :=
    @Exec.copyInto_append ε [] buffer _ 0 1 rfl rfl (by rw [List.length_singleton]; omega)
  rw [h₁, Exec.ok_bind, Exec.copyInto_append (by simp) (by simp) (by simp; omega), Exec.ok_bind,
    Exec.copyInto_append (by simp) (by simp) (by simp; omega), Exec.ok_bind, hslice, Exec.ok_bind,
    Exec.copyInto_append (by simp) (by rw [htake]) (by simp; omega), Exec.ok_bind]
  have hsize : 1 + (4 + (2 + m.payloadLen.toNat)) = 7 + m.payloadLen.toNat := by omega
  rw [htake, length_u16Be, length_u32Be, List.drop_drop, List.drop_drop, List.drop_drop, hsize,
    ASTSProtobufMessage.bytes]

/-- The frame of a payload. -/
def frame (sequence : UInt32) (messageType : UInt8) (payload : Bytes) : Bytes :=
  [messageType] ++ u32Be sequence ++ u16Be (.ofNat payload.length) ++ payload

theorem length_frame (sequence : UInt32) (messageType : UInt8) (payload : Bytes) :
    (frame sequence messageType payload).length = 7 + payload.length := by
  simp only [frame, List.length_append, List.length_singleton, length_u32Be, length_u16Be]

/-- **What a translation leaves in the buffer.** -/
theorem translateWithType_outcome {ε : Type} (sequence : UInt32) {msg : IridiumSBDMessage}
    (messageType : UInt8) (buffer : Bytes) (hpayload : msg.payloadLen.toNat ≤ 340) :
    (translateWithType sequence msg messageType buffer : Exec ε _) =
      if 7 + msg.payloadLen.toNat ≤ buffer.length then
        .ok (some (7 + msg.payloadLen.toNat),
          frame sequence messageType (msg.payload.val.take msg.payloadLen.toNat) ++
            buffer.drop (7 + msg.payloadLen.toNat))
      else .ok (none, buffer) := by
  obtain ⟨hslice, htake⟩ := Exec.slice_arr (ε := ε) msg.payload hpayload
  have hlen : (UInt16.ofNat (msg.payload.val.take msg.payloadLen.toNat).length).toNat =
      msg.payloadLen.toNat := by
    rw [htake, UInt16.toNat_ofNat']
    omega
  rw [translateWithType, IridiumSBDMessage.payloadSlice, hslice, Exec.ok_bind,
    ASTSProtobufMessage.setPayload, dif_neg (by omega)]
  refine (encodeToBuffer_outcome buffer ?_).trans ?_
  · show (UInt16.ofNat (msg.payload.val.take msg.payloadLen.toNat).length).toNat ≤ 1024
    omega
  · -- the 1024-byte array holds the payload and its own zeros
    simp only [ASTSProtobufMessage.totalSize, ASTSProtobufMessage.bytes, hlen, frame,
      List.take_left' htake]
    rfl

/-- A translation succeeds when the frame fits the buffer. -/
theorem translateWithType_ok {ε : Type} (sequence : UInt32) {msg : IridiumSBDMessage}
    (messageType : UInt8) {buffer : Bytes} (hpayload : msg.payloadLen.toNat ≤ 340)
    (hbuffer : 7 + msg.payloadLen.toNat ≤ buffer.length) :
    ∃ size out, (translateWithType sequence msg messageType buffer : Exec ε _) = .ok (some size, out) :=
  ⟨_, _, (translateWithType_outcome sequence messageType buffer hpayload).trans (if_pos hbuffer)⟩

/-! ## The counter -/

/-- A call of either function. -/
inductive Call where
  | translate (msg : IridiumSBDMessage) (buffer : Bytes)
  | translateWithType (msg : IridiumSBDMessage) (messageType : UInt8) (buffer : Bytes)

/-- What a call does with its number. -/
def Call.complete (sequence : UInt32) : Call → Exec Empty (Option Nat × Bytes)
  | .translate msg buffer => AstsProtobuf.translate sequence msg buffer
  | .translateWithType msg messageType buffer =>
    AstsProtobuf.translateWithType sequence msg messageType buffer

/-- A call between its two steps, with its number and its ticket. -/
structure Flight where
  call : Call
  sequence : UInt32
  ticket : Nat

/-- What a successful call has written. -/
structure Emission where
  ticket : Nat
  frame : Bytes

/-- The process: the counter, and a call at most in each of `n` threads.  `started` counts the calls
    without wrapping. -/
structure Process (n : Nat) where
  globalSequence : UInt32
  started : Nat
  flying : Fin n → Option Flight
  emitted : List Emission

namespace Process

variable {n : Nat}

/-- A new process. -/
def init (n : Nat) : Process n := ⟨0, 0, fun _ => none, []⟩

/-- The two steps of a call. -/
inductive Act (n : Nat) where
  | fetch (i : Fin n) (call : Call)
  | complete (i : Fin n)

/-- The second step; a panic ends the process. -/
def complete (s : Process n) (i : Fin n) (f : Flight) : Option (Process n) :=
  match f.call.complete f.sequence with
  | .ok (some size, out) => some { s with
      flying := Function.update s.flying i none
      emitted := s.emitted ++ [⟨f.ticket, out.take size⟩] }
  | .ok (none, _) => some { s with flying := Function.update s.flying i none }
  | .panic => none

/-- One step. -/
def step (s : Process n) : Act n → Option (Process n)
  | .fetch i call =>
    match s.flying i with
    | none => some { s with
        globalSequence := s.globalSequence + 1
        started := s.started + 1
        flying := Function.update s.flying i (some ⟨call, s.globalSequence, s.started⟩) }
    | some _ => none
  | .complete i => (s.flying i).bind (s.complete i)

/-- Numbers are tickets, and tickets never repeat. -/
structure Ticketed (s : Process n) : Prop where
  counter : s.globalSequence = .ofNat s.started
  flight : ∀ i f, s.flying i = some f → f.sequence = .ofNat f.ticket ∧ f.ticket < s.started
  frames : ∀ e ∈ s.emitted, sequenceOf e.frame = u32Be (.ofNat e.ticket) ∧ e.ticket < s.started
  apart : ∀ i j f g, s.flying i = some f → s.flying j = some g → f.ticket = g.ticket → i = j
  fresh : ∀ i f, s.flying i = some f → ∀ e ∈ s.emitted, e.ticket ≠ f.ticket
  nodup : (s.emitted.map Emission.ticket).Nodup

theorem ticketed_init : Ticketed (init n) where
  counter := rfl
  flight _ _ h := nomatch h
  frames _ h := nomatch h
  apart _ _ _ _ h := nomatch h
  fresh _ _ h := nomatch h
  nodup := .nil

/-- Who is in flight after thread `i` has changed. -/
theorem flying_update {s : Process n} {i j : Fin n} {x : Option Flight} {f : Flight}
    (h : Function.update s.flying i x j = some f) : (j = i ∧ x = some f) ∨ (j ≠ i ∧ s.flying j = some f) := by
  rcases eq_or_ne j i with rfl | hne
  · rw [Function.update_self] at h
    exact .inl ⟨rfl, h⟩
  · rw [Function.update_of_ne hne] at h
    exact .inr ⟨hne, h⟩

theorem Ticketed.fetch {s : Process n} (hs : Ticketed s) (i : Fin n) (call : Call) :
    Ticketed { s with
      globalSequence := s.globalSequence + 1
      started := s.started + 1
      flying := Function.update s.flying i (some ⟨call, s.globalSequence, s.started⟩) } where
  counter := by
    show s.globalSequence + 1 = .ofNat (s.started + 1)
    rw [hs.counter, UInt32.ofNat_add]
    rfl
  flight j f h := by
    rcases flying_update h with ⟨-, hf⟩ | ⟨-, hf⟩
    · obtain rfl := Option.some.inj hf
      exact ⟨hs.counter, Nat.lt_succ_self _⟩
    · obtain ⟨hseq, hlt⟩ := hs.flight j f hf
      exact ⟨hseq, Nat.lt_succ_of_lt hlt⟩
  frames e he := ⟨(hs.frames e he).1, Nat.lt_succ_of_lt (hs.frames e he).2⟩
  apart j k f g hj hk heq := by
    rcases flying_update hj with ⟨rfl, hf⟩ | ⟨-, hf⟩ <;> rcases flying_update hk with ⟨rfl, hg⟩ | ⟨-, hg⟩
    · rfl
    · -- the new ticket is above all others
      obtain rfl := Option.some.inj hf
      exact absurd heq (Nat.ne_of_gt (hs.flight k g hg).2)
    · obtain rfl := Option.some.inj hg
      exact absurd heq (Nat.ne_of_lt (hs.flight j f hf).2)
    · exact hs.apart j k f g hf hg heq
  fresh j f h e he := by
    rcases flying_update h with ⟨-, hf⟩ | ⟨-, hf⟩
    · obtain rfl := Option.some.inj hf
      exact Nat.ne_of_lt (hs.frames e he).2
    · exact hs.fresh j f hf e he
  nodup := hs.nodup

/-- A thread that is done leaves the others as they were. -/
theorem Ticketed.land {s : Process n} (hs : Ticketed s) (i : Fin n) :
    Ticketed { s with flying := Function.update s.flying i none } := by
  have hstay : ∀ j f, Function.update s.flying i none j = some f → s.flying j = some f := by
    intro j f h
    rcases flying_update h with ⟨-, hf⟩ | ⟨-, hf⟩
    · cases hf
    · exact hf
  exact ⟨hs.counter, fun j f h => hs.flight j f (hstay j f h), hs.frames,
    fun j k f g hj hk => hs.apart j k f g (hstay j f hj) (hstay k g hk),
    fun j f h => hs.fresh j f (hstay j f h), hs.nodup⟩

theorem sequence_complete {call : Call} {sequence : UInt32} {size : Nat} {out : Bytes}
    (h : call.complete sequence = .ok (some size, out)) :
    sequenceOf (out.take size) = u32Be sequence := by
  cases call with
  | translate msg buffer => exact sequence_of_ok h
  | translateWithType msg messageType buffer => exact sequence_of_ok h

theorem Ticketed.emit {s : Process n} (hs : Ticketed s) {i : Fin n} {f : Flight}
    (hf : s.flying i = some f) {size : Nat} {out : Bytes}
    (hout : f.call.complete f.sequence = .ok (some size, out)) :
    Ticketed { s with
      flying := Function.update s.flying i none
      emitted := s.emitted ++ [⟨f.ticket, out.take size⟩] } := by
  obtain ⟨hseq, hlt⟩ := hs.flight i f hf
  have hland := hs.land i
  refine ⟨hland.counter, hland.flight, ?_, hland.apart, ?_, ?_⟩
  · intro e he
    rcases List.mem_append.mp he with he | he
    · exact hs.frames e he
    · rw [List.mem_singleton.mp he, sequence_complete hout, hseq]
      exact ⟨rfl, hlt⟩
  · intro j g hj e he
    rcases List.mem_append.mp he with he | he
    · exact hland.fresh j g hj e he
    · rw [List.mem_singleton.mp he]
      rcases flying_update hj with ⟨-, hg⟩ | ⟨hne, hg⟩
      · cases hg
      · exact fun heq => hne (hs.apart i j f g hf hg heq).symm
  · show ((s.emitted ++ [_]).map Emission.ticket).Nodup
    rw [List.map_append, List.map_singleton]
    refine List.Nodup.append hs.nodup (List.nodup_singleton _) ?_
    rw [List.disjoint_singleton]
    rintro hmem
    obtain ⟨e, he, heq⟩ := List.mem_map.mp hmem
    exact hs.fresh i f hf e he heq

theorem Ticketed.step {s t : Process n} {a : Act n} (h : s.step a = some t) (hs : Ticketed s) :
    Ticketed t := by
  cases a with
  | fetch i call =>
    rw [Process.step] at h
    split at h
    · obtain rfl := Option.some.inj h
      exact hs.fetch i call
    · cases h
  | complete i =>
    obtain ⟨f, hf, h⟩ := Option.bind_eq_some_iff.mp h
    rw [complete] at h
    split at h
    · rename_i size out hout
      obtain rfl := Option.some.inj h
      exact hs.emit hf hout
    · obtain rfl := Option.some.inj h
      exact hs.land i
    · cases h

/-- The numbers written, in the order of writing. -/
def sequences (s : Process n) : List Bytes := s.emitted.map fun e => sequenceOf e.frame

/-- Numbers are equal exactly when tickets are, modulo `2 ^ 32`. -/
theorem u32Be_ofNat_inj {a b : Nat} :
    u32Be (.ofNat a) = u32Be (.ofNat b) ↔ a % 2 ^ 32 = b % 2 ^ 32 := by
  constructor
  · intro h
    have heq := congrArg ofU32Be h
    rw [ofU32Be_u32Be, ofU32Be_u32Be] at heq
    have hnat := congrArg UInt32.toNat heq
    rwa [UInt32.toNat_ofNat', UInt32.toNat_ofNat'] at hnat
  · intro h
    have heq : UInt32.ofNat a = UInt32.ofNat b := by
      apply UInt32.toNat_inj.mp
      rwa [UInt32.toNat_ofNat', UInt32.toNat_ofNat']
    rw [heq]

theorem Ticketed.sequences_nodup {s : Process n} (hs : Ticketed s) :
    s.sequences.Nodup ↔ (s.emitted.map fun e => e.ticket % 2 ^ 32).Nodup := by
  rw [sequences, List.Nodup, List.Nodup, List.pairwise_map, List.pairwise_map]
  refine List.Pairwise.iff_of_mem fun he he' => not_congr ?_
  rw [(hs.frames _ he).1, (hs.frames _ he').1]
  exact u32Be_ofNat_inj

/-- **Sequence numbers.**  In every run of a process, for any number of threads: the tickets of the
    successful translations never repeat; their numbers repeat exactly where the tickets agree modulo
    `2 ^ 32`, and so not in the first `2 ^ 32` calls. -/
theorem sequences_unique_iff (as : List (Act n)) (s : Process n)
    (hrun : Trace.run step (init n) as = some s) :
    (s.emitted.map Emission.ticket).Nodup ∧
    (s.sequences.Nodup ↔ (s.emitted.map fun e => e.ticket % 2 ^ 32).Nodup) ∧
    (s.started ≤ 2 ^ 32 → s.sequences.Nodup) := by
  have hs : Ticketed s :=
    Trace.invariant (fun _ _ _ h hP => hP.step h) as _ s hrun ticketed_init
  refine ⟨hs.nodup, hs.sequences_nodup, fun hfew => hs.sequences_nodup.mpr ?_⟩
  have hsame : (s.emitted.map fun e => e.ticket % 2 ^ 32) = s.emitted.map Emission.ticket := by
    refine List.map_congr_left fun e he => ?_
    exact Nat.mod_eq_of_lt (Nat.lt_of_lt_of_le (hs.frames e he).2 hfew)
  rw [hsame]
  exact hs.nodup

/-! ## A process that runs long enough -/

/-- One thread makes the same call over and over. -/
def rounds (call : Call) (k : Nat) : List (Act 1) :=
  (List.replicate k [Act.fetch (.last 0) call, .complete (.last 0)]).flatten

/-- Whatever its number, the call succeeds. -/
def Succeeds (call : Call) : Prop := ∀ sequence, ∃ size out, call.complete sequence = .ok (some size, out)

theorem exists_round {call : Call} (hcall : Succeeds call) {s : Process 1}
    (hfree : s.flying = fun _ => none) :
    ∃ t u, s.step (.fetch (.last 0) call) = some t ∧ t.step (.complete (.last 0)) = some u ∧
      u.flying = (fun _ => none) ∧ u.started = s.started + 1 ∧
      u.emitted.map Emission.ticket = s.emitted.map Emission.ticket ++ [s.started] := by
  obtain ⟨sequence, started, flying, emitted⟩ := s
  obtain rfl : flying = fun _ => none := hfree
  obtain ⟨size, out, hout⟩ := hcall sequence
  have hland : Function.update (fun _ : Fin 1 => (none : Option Flight)) (.last 0) none = fun _ => none :=
    Function.update_eq_self (Fin.last 0) _
  refine ⟨⟨sequence + 1, started + 1,
      Function.update (fun _ => none) (.last 0) (some ⟨call, sequence, started⟩), emitted⟩,
    ⟨sequence + 1, started + 1, fun _ => none, emitted ++ [⟨started, out.take size⟩]⟩, rfl, ?_, rfl, rfl, ?_⟩
  · simp only [step, Function.update_self, Option.bind_some, complete, hout, Function.update_idem, hland]
  · rw [List.map_append, List.map_singleton]

theorem exists_run_rounds {call : Call} (hcall : Succeeds call) (k : Nat) :
    ∀ s : Process 1, s.flying = (fun _ => none) →
      ∃ t, Trace.run step s (rounds call k) = some t ∧ t.started = s.started + k ∧
        t.emitted.map Emission.ticket = s.emitted.map Emission.ticket ++ List.range' s.started k := by
  induction k with
  | zero => exact fun s _ => ⟨s, rfl, rfl, (List.append_nil _).symm⟩
  | succ k ih =>
    intro s hfree
    obtain ⟨t, u, hfetch, hcomplete, hfree', hstarted, hemitted⟩ := exists_round hcall hfree
    obtain ⟨v, hrun, hvstarted, hvemitted⟩ := ih u hfree'
    refine ⟨v, ?_, by omega, ?_⟩
    · rw [rounds, List.replicate_succ, List.flatten_cons]
      exact (Trace.run_cons hfetch).trans ((Trace.run_cons hcomplete).trans hrun)
    · rw [hvemitted, hemitted, hstarted, List.append_assoc, List.range'_succ]
      rfl

/-- An empty message into a buffer of seven bytes. -/
def emptyCall : Call :=
  .translate { header := ⟨1, 0⟩, payload := Exec.pad 340 [], payloadLen := 0, checksum := 0 }
    (List.replicate 7 0)

theorem succeeds_emptyCall : Succeeds emptyCall := fun sequence =>
  translateWithType_ok sequence 0x01 (Nat.zero_le _) (Nat.le_of_eq List.length_replicate.symm)

/-- Two calls write two numbers. -/
theorem sequences_unique_iff_two :
    ∃ s, Trace.run step (init 1) (rounds emptyCall 2) = some s ∧ s.sequences.Nodup := by
  obtain ⟨s, hrun, hstarted, -⟩ := exists_run_rounds succeeds_emptyCall 2 (init 1) rfl
  refine ⟨s, hrun, (sequences_unique_iff (rounds emptyCall 2) s hrun).2.2 ?_⟩
  rw [hstarted]
  decide

/-- **The counter comes round.**  After `2 ^ 32 + 1` successful translations the first and the last
    number written are the same. -/
theorem sequence_repeats :
    ∃ s, Trace.run step (init 1) (rounds emptyCall (2 ^ 32 + 1)) = some s ∧
      s.emitted.map Emission.ticket = List.range' 0 (2 ^ 32 + 1) ∧ ¬ s.sequences.Nodup := by
  obtain ⟨s, hrun, -, hemitted⟩ := exists_run_rounds succeeds_emptyCall (2 ^ 32 + 1) (init 1) rfl
  refine ⟨s, hrun, hemitted, fun hnodup => ?_⟩
  have hs : Ticketed s :=
    Trace.invariant (fun _ _ _ h hP => hP.step h) _ _ s hrun ticketed_init
  have hmod : ((s.emitted.map Emission.ticket).map (· % 2 ^ 32)).Nodup := by
    rw [List.map_map]
    exact hs.sequences_nodup.mp hnodup
  have hmem : ∀ m ≤ 2 ^ 32, m ∈ s.emitted.map Emission.ticket := by
    intro m hm
    rw [hemitted]
    exact List.mem_range'_1.mpr ⟨Nat.zero_le m, by omega⟩
  -- tickets 0 and 2 ^ 32 get the same number
  have heq := List.inj_on_of_nodup_map hmod (hmem 0 (Nat.zero_le _)) (hmem (2 ^ 32) le_rfl)
    (by rw [Nat.zero_mod, Nat.mod_self])
  omega

end Process

end AstsProtobuf

end FloatProtocols
