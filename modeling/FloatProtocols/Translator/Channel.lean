/-
  `translator.rs`: the translation task behind its two channels.

  1. **The task** — `send` puts a message into a bounded channel; the task takes the next one,
     translates it (`translateMessage`) and, if that worked, puts the result into a second bounded
     channel, from which `recv` takes it.  Each of the four is a step of its own, so that senders,
     task and receiver interleave in any way, and `works` records which message the task took at which
     clock reading.

  2. **What comes out** — everything the task took is delivered in order, or dropped if it could not be
     translated (`piped`); nothing gets stuck (`exists_flush`).

  3. **The two paths** — `translateMessage` is a second dispatcher beside `translateSync`.  It fails on
     the same messages, but it builds its own: the six decoded protocols get the task's clock in place
     of the message's two, and three protocols pass through as they are, with their protocol and
     without the size guard (`task_agrees_iff`).
-/
import FloatProtocols.Lib.Trace
import FloatProtocols.Translator

namespace FloatProtocols

open Wire

namespace Translator

/-! ## The second dispatcher -/

/-- What the six `translate_*` functions do with their decoder's answer: a NEW message. -/
def recode (now : UInt64) (message : Message) (decoded : Exec TranslateError Bytes) :
    Exec TranslateError Message := do
  let data ← decoded
  .ok (Message.new .astSpaceMobile data message.priority now)

/-- `translate_iridium`. -/
def translateIridium (now : UInt64) (message : Message) : Exec TranslateError Message :=
  recode now message (decodeIridiumSbd message.data)

/-- `translate_inmarsat`, which reports one error for all. -/
def translateInmarsat (libs : InmarsatC.Libs) (now : UInt64) (message : Message) :
    Exec TranslateError Message :=
  recode now message (Exec.orErr (decodeInmarsatC libs message.data) .invalidProtocol)

/-- `translate_vsat`. -/
def translateVsat (libs : Libs) (now : UInt64) (message : Message) : Exec TranslateError Message :=
  recode now message (compressForCellular libs.zstdEncode message.data)

/-- `translate_hfvhf`. -/
def translateHfvhf (now : UInt64) (message : Message) : Exec TranslateError Message :=
  recode now message (codecTranslateToDigital message.data)

/-- `translate_rockblock`. -/
def translateRockblock (now : UInt64) (message : Message) : Exec TranslateError Message :=
  recode now message (decodeRockblock message.data)

/-- `translate_samsara`. -/
def translateSamsara (libs : Libs) (now : UInt64) (message : Message) : Exec TranslateError Message :=
  recode now message (decodeSamsara libs.nomTake message.data)

/-- `translate_message`, with the clock reading of `Message::new`. -/
def translateMessage (libs : Libs) (now : UInt64) (message : Message) : Exec TranslateError Message :=
  match message.protocol with
  | .iridiumSBD => translateIridium now message
  | .inmarsatC => translateInmarsat libs.toLibs now message
  | .vsat => translateVsat libs now message
  | .hfvhf => translateHfvhf now message
  | .rockBLOCK => translateRockblock now message
  | .samsara => translateSamsara libs now message
  | .nidd => .ok message
  | .astSpaceMobile => .ok message
  | .loRaMesh => .ok message

/-- The protocols whose bytes need no decoder. -/
def passesThrough : Protocol → Bool
  | .nidd | .astSpaceMobile | .loRaMesh => true
  | _ => false

theorem translateMessage_passed (libs : Libs) (now : UInt64) {m : Message}
    (h : passesThrough m.protocol = true) : translateMessage libs now m = .ok m := by
  obtain ⟨protocol, data, priority, timestamp, tEvent, tSystem⟩ := m
  cases protocol <;> first | rfl | cases h

theorem translateData_passed (libs : Libs) {p : Protocol} (h : passesThrough p = true) (data : Bytes) :
    translateData libs p data = .ok data := by
  cases p <;> first | rfl | cases h

/-- Behind the other protocols stands the decoder of `translate_sync`; one of them renames its
    errors. -/
theorem translateMessage_recode (libs : Libs) (now : UInt64) {m : Message}
    (h : passesThrough m.protocol = false) :
    translateMessage libs now m = recode now m (translateData libs m.protocol m.data) ∨
    translateMessage libs now m =
      recode now m (Exec.orErr (translateData libs m.protocol m.data) .invalidProtocol) := by
  obtain ⟨protocol, data, priority, timestamp, tEvent, tSystem⟩ := m
  cases protocol with
  | inmarsatC => exact .inr rfl
  | iridiumSBD => exact .inl rfl
  | vsat => exact .inl rfl
  | hfvhf => exact .inl rfl
  | rockBLOCK => exact .inl rfl
  | samsara => exact .inl rfl
  | nidd => cases h
  | astSpaceMobile => cases h
  | loRaMesh => cases h

theorem translateMessage_decoded {libs : Libs} (now : UInt64) {m : Message}
    (h : passesThrough m.protocol = false) {data : Bytes}
    (hdata : translateData libs m.protocol m.data = .ok data) :
    translateMessage libs now m = .ok (Message.new .astSpaceMobile data m.priority now) := by
  rcases translateMessage_recode libs now h with heq | heq
  · rw [heq, hdata]
    rfl
  · rw [heq, hdata]
    rfl

theorem translateMessage_refused {libs : Libs} (now : UInt64) {m : Message} {e : TranslateError}
    (hdata : translateData libs m.protocol m.data = .err e) :
    ∃ e', translateMessage libs now m = .err e' := by
  have h : passesThrough m.protocol = false := by
    by_contra hpass
    rw [translateData_passed libs (eq_true_of_ne_false hpass)] at hdata
    cases hdata
  rcases translateMessage_recode libs now h with heq | heq
  · exact ⟨e, by rw [heq, hdata]; rfl⟩
  · exact ⟨.invalidProtocol, by rw [heq, hdata]; rfl⟩

/-- The two dispatchers fail on the same messages, and neither panics. -/
theorem translate_cases {libs : Libs} (hhex : InmarsatC.HexInverts libs.hexDecode) (now : UInt64)
    (m : Message) :
    (∃ e e', translateData libs m.protocol m.data = .err e ∧ translateMessage libs now m = .err e') ∨
    ∃ data t, translateData libs m.protocol m.data = .ok data ∧ translateMessage libs now m = .ok t := by
  rcases hdata : translateData libs m.protocol m.data with data | e | _
  · by_cases hpass : passesThrough m.protocol = true
    · exact .inr ⟨data, m, rfl, translateMessage_passed libs now hpass⟩
    · exact .inr ⟨data, _, rfl, translateMessage_decoded now (Bool.eq_false_iff.mpr hpass) hdata⟩
  · obtain ⟨e', he'⟩ := translateMessage_refused now hdata
    exact .inl ⟨e, e', rfl, he'⟩
  · exact absurd hdata (translateData_ne_panic hhex _ _)

/-! ## The task and its channels -/

/-- A translator with its task.  `held` is a translation that waits for room in the second channel;
    `sent` and `delivered` are what went in and came out. -/
structure Pipe where
  bufferSize : Nat
  input : List Message
  held : Option Message
  output : List Message
  sent : List Message
  delivered : List Message

namespace Pipe

/-- `Translator::new`. -/
def new (bufferSize : Nat) : Pipe := ⟨bufferSize, [], none, [], [], []⟩

/-- Senders, task and receiver. -/
inductive Act where
  | send (m : Message)
  | work (now : UInt64)
  | emit
  | recv

/-- What the task does with the next message, when it is free. -/
def work (libs : Libs) (s : Pipe) (now : UInt64) : Option Pipe :=
  match s.held, s.input with
  | none, m :: rest =>
    match translateMessage libs now m with
    | .ok t => some { s with input := rest, held := some t }
    | .err _ => some { s with input := rest }
    | .panic => none
  | _, _ => none

/-- One step. -/
def step (libs : Libs) (s : Pipe) : Act → Option Pipe
  | .send m =>
    if s.input.length < s.bufferSize then
      some { s with input := s.input ++ [m], sent := s.sent ++ [m] }
    else none
  | .work now => s.work libs now
  | .emit =>
    match s.held with
    | some t =>
      if s.output.length < s.bufferSize then some { s with held := none, output := s.output ++ [t] }
      else none
    | none => none
  | .recv =>
    match s.output with
    | t :: rest => some { s with output := rest, delivered := s.delivered ++ [t] }
    | [] => none

/-- The message the task takes, with its clock reading. -/
def works (s : Pipe) : Act → List (Message × UInt64)
  | .work now => (s.input.take 1).map fun m => (m, now)
  | .send _ | .emit | .recv => []

/-- What the task makes of a message. -/
def outcome (libs : Libs) (x : Message × UInt64) : Option Message :=
  match translateMessage libs x.2 x.1 with
  | .ok t => some t
  | _ => none

/-- What was sent was taken or waits; what was taken is delivered, or on its way, or was dropped. -/
structure Piped (libs : Libs) (s : Pipe) (log : List (Message × UInt64)) : Prop where
  sent : s.sent = log.map Prod.fst ++ s.input
  delivered : log.filterMap (outcome libs) = s.delivered ++ s.output ++ s.held.toList

variable {libs : Libs}

theorem work_eq {s : Pipe} {now : UInt64} {t : Pipe} (h : s.work libs now = some t) :
    ∃ m rest, s.held = none ∧ s.input = m :: rest ∧
      t = { s with input := rest, held := outcome libs (m, now) } := by
  rw [work] at h
  split at h
  · rename_i m rest hheld hinput
    refine ⟨m, rest, hheld, hinput, ?_⟩
    split at h
    · rename_i t' ht'
      rw [← Option.some.inj h, outcome, ht']
    · rename_i e he
      rw [← Option.some.inj h, outcome, he, ← hheld]
    · cases h
  · cases h

theorem work_some (hhex : InmarsatC.HexInverts libs.hexDecode) {s : Pipe} {now : UInt64} {m : Message}
    {rest : List Message} (hheld : s.held = none) (hinput : s.input = m :: rest) :
    s.work libs now = some { s with input := rest, held := outcome libs (m, now) } := by
  obtain ⟨bufferSize, input, held, output, sent, delivered⟩ := s
  obtain rfl : held = none := hheld
  obtain rfl : input = m :: rest := hinput
  rcases translate_cases hhex now m with ⟨e, e', -, h⟩ | ⟨data, t, -, h⟩
  · simp only [work, outcome, h]
  · simp only [work, outcome, h]

theorem bufferSize_step {s t : Pipe} {a : Act} (h : s.step libs a = some t) :
    t.bufferSize = s.bufferSize := by
  cases a with
  | send m =>
    rw [step] at h
    split at h
    · rw [← Option.some.inj h]
    · cases h
  | work now =>
    obtain ⟨m, rest, -, -, rfl⟩ := work_eq h
    rfl
  | emit =>
    rw [step] at h
    split at h
    · split at h
      · rw [← Option.some.inj h]
      · cases h
    · cases h
  | recv =>
    rw [step] at h
    split at h
    · rw [← Option.some.inj h]
    · cases h

theorem Piped.step {s t : Pipe} {a : Act} {log : List (Message × UInt64)} (hs : Piped libs s log)
    (h : s.step libs a = some t) : Piped libs t (log ++ works s a) := by
  obtain ⟨hsent, hdelivered⟩ := hs
  cases a with
  | send m =>
    rw [Pipe.step] at h
    split at h
    · obtain rfl := Option.some.inj h
      rw [works, List.append_nil]
      refine ⟨?_, hdelivered⟩
      show s.sent ++ [m] = _ ++ (s.input ++ [m])
      rw [hsent, List.append_assoc]
    · cases h
  | work now =>
    obtain ⟨m, rest, hheld, hinput, rfl⟩ := work_eq h
    have hworks : works s (.work now) = [(m, now)] := by rw [works, hinput]; rfl
    rw [hworks]
    constructor
    · show s.sent = _
      rw [hsent, hinput, List.map_append, List.append_assoc]
      rfl
    · rw [List.filterMap_append, hdelivered, hheld, Option.toList_none, List.append_nil]
      show _ = s.delivered ++ s.output ++ (outcome libs (m, now)).toList
      cases hout : outcome libs (m, now) with
      | none => rw [List.filterMap_cons_none hout]; rfl
      | some t => rw [List.filterMap_cons_some hout]; rfl
  | emit =>
    rw [Pipe.step] at h
    split at h
    · rename_i t' hheld
      split at h
      · obtain rfl := Option.some.inj h
        rw [works, List.append_nil]
        refine ⟨hsent, ?_⟩
        show _ = s.delivered ++ (s.output ++ [t']) ++ []
        rw [hdelivered, hheld, List.append_nil, ← List.append_assoc]
        rfl
      · cases h
    · cases h
  | recv =>
    rw [Pipe.step] at h
    split at h
    · rename_i t' rest houtput
      obtain rfl := Option.some.inj h
      rw [works, List.append_nil]
      refine ⟨hsent, ?_⟩
      show _ = s.delivered ++ [t'] ++ rest ++ s.held.toList
      rw [hdelivered, houtput, List.append_assoc s.delivered [t'] rest]
      rfl
    · cases h

/-- The record of a run, from its first state. -/
theorem piped {bufferSize : Nat} {as : List Act} {s : Pipe}
    (hrun : Trace.run (step libs) (new bufferSize) as = some s) :
    Piped libs s (Trace.collect (step libs) works (new bufferSize) as) :=
  Trace.Along.invariant_collect (C := fun _ _ => True) (fun _ _ _ _ _ h hP => hP.step h) as _ s []
    (Trace.along_of_forall as _ fun _ _ _ => trivial) hrun ⟨rfl, rfl⟩

/-! ## The two paths -/

/-- The five fields that both paths set. -/
def Same (t r : Message) : Prop :=
  t.protocol = r.protocol ∧ t.data = r.data ∧ t.priority = r.priority ∧ t.tEvent = r.tEvent ∧
    t.tSystem = r.tSystem

/-- When the task's result is `translate_sync`'s: there is none; or the clocks of a decoded message
    were the task's own; or the message is a cellular one that the size guard leaves alone. -/
def Faithful (libs : Libs) (x : Message × UInt64) : Prop :=
  (∃ e, translateData libs x.1.protocol x.1.data = .err e) ∨
  (passesThrough x.1.protocol = false ∧ x.1.tEvent = x.2 ∧ x.1.tSystem = x.2) ∨
  (x.1.protocol = .astSpaceMobile ∧ x.1.data.length ≤ Protocol.maxMessageSize .astSpaceMobile)

theorem translateSync_ok (clock : UInt64) {m : Message} {data : Bytes}
    (h : translateData libs m.protocol m.data = .ok data) :
    translateSync libs clock m = .ok { Message.new .astSpaceMobile data m.priority clock with
      tEvent := m.tEvent, tSystem := m.tSystem } := by
  rw [translateSync, h]
  rfl

theorem translateSync_err (clock : UInt64) {m : Message} {e : TranslateError}
    (h : translateData libs m.protocol m.data = .err e) : translateSync libs clock m = .err e := by
  rw [translateSync, h]
  rfl

theorem outcome_eq_none_iff (hhex : InmarsatC.HexInverts libs.hexDecode) (x : Message × UInt64)
    (clock : UInt64) :
    outcome libs x = none ↔ ∃ e, translateSync libs clock x.1 = .err e := by
  rcases translate_cases hhex x.2 x.1 with ⟨e, e', hdata, hmessage⟩ | ⟨data, t, hdata, hmessage⟩
  · refine iff_of_true ?_ ⟨e, translateSync_err clock hdata⟩
    rw [outcome, hmessage]
  · refine iff_of_false ?_ ?_
    · rw [outcome, hmessage]
      exact Option.some_ne_none t
    · rw [translateSync_ok clock hdata]
      rintro ⟨e, he⟩
      cases he

/-- The synchronous result. -/
def synced (m : Message) (data : Bytes) (clock : UInt64) : Message :=
  { Message.new .astSpaceMobile data m.priority clock with tEvent := m.tEvent, tSystem := m.tSystem }

/-- A message that passes through is right if it is a cellular one and not cut. -/
theorem same_passed (m : Message) (clock : UInt64) :
    Same m (synced m m.data clock) ↔
      m.protocol = .astSpaceMobile ∧ m.data.length ≤ Protocol.maxMessageSize .astSpaceMobile := by
  have hdata : (synced m m.data clock).data = m.data.take (Protocol.maxMessageSize .astSpaceMobile) :=
    Message.new_data .astSpaceMobile m.data m.priority clock
  rw [Same, hdata, ← List.take_eq_self_iff, eq_comm (a := m.data)]
  exact ⟨fun h => ⟨h.1, h.2.1⟩, fun h => ⟨h.1, h.2, rfl, rfl, rfl⟩⟩

/-- A new message is right if its clock is the old one's. -/
theorem same_decoded (m : Message) (data : Bytes) (now clock : UInt64) :
    Same (Message.new .astSpaceMobile data m.priority now) (synced m data clock) ↔
      m.tEvent = now ∧ m.tSystem = now :=
  ⟨fun h => ⟨h.2.2.2.1.symm, h.2.2.2.2.symm⟩, fun h => ⟨rfl, rfl, rfl, h.1.symm, h.2.symm⟩⟩

theorem same_iff_faithful (hhex : InmarsatC.HexInverts libs.hexDecode) (x : Message × UInt64)
    (clock : UInt64) :
    (∀ t, outcome libs x = some t → ∃ r, translateSync libs clock x.1 = .ok r ∧ Same t r) ↔
      Faithful libs x := by
  obtain ⟨m, now⟩ := x
  rcases translate_cases hhex now m with ⟨e, e', hdata, hmessage⟩ | ⟨data, t, hdata, hmessage⟩
  · refine iff_of_true (fun t ht => ?_) (.inl ⟨e, hdata⟩)
    rw [outcome, hmessage] at ht
    cases ht
  · have hout : outcome libs (m, now) = some t := by rw [outcome, hmessage]
    have hsame : (∀ t', outcome libs (m, now) = some t' →
        ∃ r, translateSync libs clock m = .ok r ∧ Same t' r) ↔ Same t (synced m data clock) := by
      rw [hout, translateSync_ok clock hdata]
      constructor
      · intro h
        obtain ⟨r, hr, hsame⟩ := h t rfl
        cases hr
        exact hsame
      · intro h t' ht'
        cases ht'
        exact ⟨_, rfl, h⟩
    have herr : ¬ ∃ e, translateData libs m.protocol m.data = .err e := by
      rintro ⟨e, he⟩
      rw [hdata] at he
      cases he
    refine hsame.trans ?_
    -- from here on it is a matter of the message's protocol alone
    by_cases hpass : passesThrough m.protocol = true
    · obtain rfl : t = m := Exec.ok.inj (hmessage.symm.trans (translateMessage_passed libs now hpass))
      obtain rfl : data = t.data := Exec.ok.inj (hdata.symm.trans (translateData_passed libs hpass _))
      rw [same_passed]
      refine ⟨fun h => .inr (.inr h), ?_⟩
      rintro (h | ⟨h, -⟩ | h)
      · exact absurd h herr
      · rw [hpass] at h
        cases h
      · exact h
    · rw [Bool.not_eq_true] at hpass
      obtain rfl := Exec.ok.inj (hmessage.symm.trans (translateMessage_decoded now hpass hdata))
      rw [same_decoded]
      refine ⟨fun h => .inr (.inl ⟨hpass, h⟩), ?_⟩
      rintro (h | ⟨-, h⟩ | ⟨h, -⟩)
      · exact absurd h herr
      · exact h
      · rw [h] at hpass
        cases hpass

/-! ## Nothing gets stuck -/

/-- What is still to be done: taking, passing on and receiving. -/
def remaining (s : Pipe) : Nat := 3 * s.input.length + 2 * s.held.toList.length + s.output.length

/-- Whatever is in the pipe, some step takes it further. -/
theorem exists_step (hhex : InmarsatC.HexInverts libs.hexDecode) {s : Pipe} (hsize : 0 < s.bufferSize)
    (now : UInt64) (hs : 0 < s.remaining) :
    ∃ a t, s.step libs a = some t ∧ t.remaining < s.remaining ∧ t.sent = s.sent ∧
      t.bufferSize = s.bufferSize := by
  obtain ⟨bufferSize, input, held, output, sent, delivered⟩ := s
  -- the last stage that holds something can move: what is behind it is empty
  cases output with
  | cons t rest =>
    refine ⟨.recv, _, rfl, ?_, rfl, rfl⟩
    simp only [remaining, List.length_cons]
    omega
  | nil =>
    cases held with
    | some t =>
      refine ⟨.emit, _, if_pos hsize, ?_, rfl, rfl⟩
      simp [remaining]
    | none =>
      cases input with
      | nil => simp [remaining] at hs
      | cons m rest =>
        have hwork := @work_some libs hhex ⟨bufferSize, m :: rest, none, [], sent, delivered⟩ now m rest
          rfl rfl
        refine ⟨.work now, _, hwork, ?_, rfl, rfl⟩
        simp only [remaining, List.length_cons]
        have hle : (outcome libs (m, now)).toList.length ≤ 1 := Option.length_toList_le
        omega

/-- The pipe can always be emptied. -/
theorem exists_flush (hhex : InmarsatC.HexInverts libs.hexDecode) (now : UInt64) (k : Nat) :
    ∀ s : Pipe, 0 < s.bufferSize → s.remaining ≤ k →
      ∃ as t, Trace.run (step libs) s as = some t ∧ t.sent = s.sent ∧ t.remaining = 0 := by
  induction k with
  | zero => exact fun s _ hs => ⟨[], s, rfl, rfl, Nat.le_zero.mp hs⟩
  | succ k ih =>
    intro s hsize hs
    rcases Nat.eq_zero_or_pos s.remaining with hzero | hpos
    · exact ⟨[], s, rfl, rfl, hzero⟩
    · obtain ⟨a, t, hstep, hless, hsent, hbuffer⟩ := exists_step hhex hsize now hpos
      obtain ⟨as, u, hrun, husent, hdone⟩ := ih t (hbuffer ▸ hsize) (by omega)
      exact ⟨a :: as, u, (Trace.run_cons hstep).trans hrun, husent.trans hsent, hdone⟩

/-- **The two paths.**  In every run, what the task took is delivered in order, in full once the pipe
    is emptied, which it can be.  The task drops exactly the messages that `translate_sync` refuses,
    and what it delivers for the others is `translate_sync`'s message exactly if it is `Faithful`. -/
theorem task_agrees_iff (hhex : InmarsatC.HexInverts libs.hexDecode) {bufferSize : Nat}
    (hsize : 0 < bufferSize) (as : List Act) (s : Pipe)
    (hrun : Trace.run (step libs) (new bufferSize) as = some s) :
    let log := Trace.collect (step libs) works (new bufferSize) as
    Piped libs s log ∧
    (∃ more t, Trace.run (step libs) s more = some t ∧ t.sent = s.sent ∧ t.remaining = 0) ∧
    ∀ x ∈ log, ∀ clock,
      (outcome libs x = none ↔ ∃ e, translateSync libs clock x.1 = .err e) ∧
      ((∀ t, outcome libs x = some t → ∃ r, translateSync libs clock x.1 = .ok r ∧ Same t r) ↔
        Faithful libs x) := by
  intro log
  have hbuffer : s.bufferSize = bufferSize :=
    Trace.invariant (P := fun t => t.bufferSize = bufferSize) (fun _ _ _ h => (bufferSize_step h).trans)
      as _ s hrun rfl
  refine ⟨piped hrun, exists_flush hhex 0 s.remaining s (by omega) le_rfl, fun x _ clock => ?_⟩
  exact ⟨outcome_eq_none_iff hhex x clock, same_iff_faithful hhex x clock⟩

/-- An Iridium frame with one byte of payload, one millisecond under way. -/
def frame : Message := .newWithTemporal .iridiumSBD [1, 0, 1, 7] .operational 1 2

/-- A NIDD reading. -/
def niddReading : Message := .newWithTemporal .nidd [7] .operational 5 5

/-- A frame that the task takes in the millisecond it was made comes out right. -/
theorem task_agrees_iff_prompt :
    let prompt := { frame with tEvent := 9, tSystem := 9 }
    ∃ s, Trace.run (step frameLibs) (new 1) [.send prompt, .work 9, .emit, .recv] = some s ∧
      ∀ clock t, outcome frameLibs (prompt, 9) = some t →
        ∃ r, translateSync frameLibs clock prompt = .ok r ∧ Same t r := by
  intro prompt
  have hrun : Trace.run (step frameLibs) (new 1) [.send prompt, .work 9, .emit, .recv] = some _ := rfl
  refine ⟨_, hrun, fun clock => ?_⟩
  have hagrees := task_agrees_iff InmarsatC.hexInverts_readHex (by decide) _ _ hrun
  exact (hagrees.2.2 (prompt, 9) (List.mem_singleton.mpr rfl) clock).2.mpr (.inr (.inl ⟨rfl, rfl, rfl⟩))

/-- **Two messages, two answers.**  The frame comes out of the task with the task's clock, 9, where
    `translate_sync` keeps 1 and 2; the reading comes out as NIDD, where `translate_sync` makes it
    cellular. -/
theorem task_and_sync_differ :
    (Trace.run (step frameLibs) (new 2) [.send frame, .send niddReading, .work 9, .emit, .work 10, .emit,
        .recv, .recv]).map Pipe.delivered =
      some [Message.new .astSpaceMobile [1, 7] .operational 9, niddReading] ∧
    translateSync frameLibs 9 frame =
      .ok { Message.new .astSpaceMobile [1, 7] .operational 9 with tEvent := 1, tSystem := 2 } ∧
    translateSync frameLibs 10 niddReading =
      .ok { Message.new .astSpaceMobile [7] .operational 10 with tEvent := 5, tSystem := 5 } := by
  decide +kernel

end Pipe

end Translator

end FloatProtocols
