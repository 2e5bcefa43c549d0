/-
  The write-ahead log under concurrent calls: one step per critical section.

  1. **Program** — the file is its header and its entries, read and written without loss (the bridge
     to the bytes is `loaded_of_stored` and `replay_of_stored`).  `append` takes its number under the
     sequence lock and writes under the file lock, with nothing in between to keep two calls in
     order.  `compact` reads under the file lock, lets go, then truncates and rewrites under the same
     lock, which it still holds when it sets the counter (`held`).  A reopening ends every call in
     flight and takes the counter from the LAST entry, not from the greatest.

  2. **The numbers** — `returned` lists what appends returned, over the whole life of the file.  Two
     things take the counter back below a number already given out: a compaction, which renumbers
     from 1, and a reopening of a file whose last entry is not its greatest.

  3. **The crux (`Numbered.step`)** — if neither does (`Keeps`), no number comes twice.  The
     invariant does not need to know what the file looks like: renumbered entries go up to the number
     of appends that returned, and that many distinct positive numbers reach at least as far
     (`length_le_of_nodup`).
-/
import Mathlib.Data.List.Perm.Subperm
import FloatProtocols.Lib.Trace
import FloatProtocols.Storage.WalScan

namespace FloatProtocols

open Wire

namespace Wal

/-! ## The system -/

/-- The log and the calls on it. -/
structure Sys where
  /-- The sequence number in the header. -/
  header : UInt64
  entries : List WalEntry
  /-- `sequence`. -/
  counter : UInt64
  /-- A compaction has rewritten the file and holds it; the value it will set the counter to. -/
  held : Option UInt64
  /-- Appends that have their number and have not written. -/
  appending : List (UInt64 × Message)
  /-- Compactions that have read the file and not rewritten it. -/
  compacting : List (List WalEntry)
  /-- What appends returned, with their messages. -/
  returned : List (UInt64 × Message)
  deriving DecidableEq

namespace Sys

/-- A log just opened: what is in the file was appended before. -/
def opened (header : UInt64) (entries : List WalEntry) (counter : UInt64) : Sys where
  header := header
  entries := entries
  counter := counter
  held := none
  appending := []
  compacting := []
  returned := entries.map fun e => (e.sequence, e.message)

/-- A new file. -/
def init : Sys := opened 0 [] 0

/-- `replay`. -/
def replay (s : Sys) : List Message := s.entries.map WalEntry.message

/-- The counter `load_sequence` finds. -/
def loaded (s : Sys) : UInt64 := (s.entries.getLast?.map WalEntry.sequence).getD s.header

/-- `cutoff`, wrapping. -/
def cutoff (now retainMs : UInt64) : UInt64 := now - retainMs

/-- The entries `compact` makes of what it replayed; `clock i` is the reading for the `i`-th. -/
def retained (s : Sys) (now retainMs : UInt64) (clock : Nat → UInt64) : List WalEntry :=
  (s.replay.filter fun m => cutoff now retainMs ≤ m.timestamp).mapIdx fun i m =>
    ⟨UInt64.ofNat (i + 1), m, clock i⟩

end Sys

/-- The critical sections. -/
inductive Act where
  /-- `append`: the number. -/
  | take (m : Message)
  /-- `append`: the entry, with its clock reading, and the return. -/
  | write (call : UInt64 × Message) (now : UInt64)
  /-- `append`: the entry could not be serialized. -/
  | fail (call : UInt64 × Message)
  /-- `compact`: `replay` and filter. -/
  | read (now retainMs : UInt64) (clock : Nat → UInt64)
  /-- `compact`: truncate and rewrite. -/
  | rewrite (retained : List WalEntry)
  /-- `compact`: the counter, and the return. -/
  | finish
  /-- The process ends and the file is opened again. -/
  | reopen

namespace Sys

/-- One critical section, if the call is there and the file is free. -/
def step (s : Sys) : Act → Option Sys
  | .take m =>
    some { s with counter := s.counter + 1, appending := (s.counter + 1, m) :: s.appending }
  | .write call now =>
    if call ∈ s.appending ∧ s.held = none then
      some { s with
        entries := s.entries ++ [⟨call.1, call.2, now⟩]
        appending := s.appending.erase call
        returned := s.returned ++ [call] }
    else none
  | .fail call =>
    if call ∈ s.appending then some { s with appending := s.appending.erase call } else none
  | .read now retainMs clock =>
    if s.held = none then
      some { s with compacting := s.retained now retainMs clock :: s.compacting }
    else none
  | .rewrite retained =>
    if retained ∈ s.compacting ∧ s.held = none then
      some { s with
        header := UInt64.ofNat retained.length
        entries := retained
        compacting := s.compacting.erase retained
        held := some (UInt64.ofNat retained.length) }
    else none
  | .finish =>
    match s.held with
    | some k => some { s with counter := k, held := none }
    | none => none
  | .reopen =>
    some { s with counter := s.loaded, held := none, appending := [], compacting := [] }

/-! ## The bytes below -/

/-- The frames of a file are those of its entries: every checksum matches, every payload decodes. -/
def Stored (libs : Libs) (frames : List Frame) (entries : List WalEntry) : Prop :=
  List.Forall₂ (fun f e => f.Sound libs ∧ libs.deserialize f.data = .ok e) frames entries

theorem Stored.sound {libs : Libs} {frames : List Frame} {entries : List WalEntry}
    (h : Stored libs frames entries) : ∀ f ∈ frames, f.Sound libs := by
  induction h with
  | nil => intro f hf; cases hf
  | cons hfe _ ih =>
    intro f hf
    rcases List.mem_cons.mp hf with rfl | hf
    · exact hfe.1
    · exact ih f hf

theorem foldl_sequence_of_stored {libs : Libs} {frames : List Frame} {entries : List WalEntry}
    (h : Stored libs frames entries) : ∀ seq,
    frames.foldl (Frame.sequence libs) seq =
      (entries.getLast?.map WalEntry.sequence).getD seq := by
  induction h with
  | nil => intro seq; rfl
  | @cons f e frames entries hfe _ ih =>
    intro seq
    have hseq : f.sequence libs seq = e.sequence := by
      rw [Frame.sequence, hfe.2]
      rfl
    rw [List.foldl_cons, hseq, ih, List.getLast?_cons]
    cases entries.getLast? <;> rfl

/-- **Opening a file that holds these entries finds this counter.** -/
theorem loaded_of_stored {libs : Libs} {frames : List Frame} {s : Sys}
    (h : Stored libs frames s.entries) :
    scanSequence libs (region frames).length s.header (region frames) = .ok s.loaded := by
  have hscan := scanSequence_region libs ⟨[], 0, by decide⟩ (k := 0) (by decide) frames
    (region frames).length s.header
  rw [List.take_zero, List.append_nil, if_pos h.sound, if_pos (by decide),
    foldl_sequence_of_stored h] at hscan
  exact hscan (Nat.le_refl _)

theorem filterMap_message_of_stored {libs : Libs} {frames : List Frame} {entries : List WalEntry}
    (h : Stored libs frames entries) :
    frames.filterMap (Frame.message libs) = entries.map WalEntry.message := by
  induction h with
  | nil => rfl
  | @cons f e frames entries hfe _ ih =>
    have hmsg : f.message libs = some e.message := by
      rw [Frame.message, if_pos hfe.1, hfe.2]
      rfl
    rw [List.filterMap_cons_some hmsg, ih, List.map_cons]

/-- **Replaying a file that holds these entries gives these messages.** -/
theorem replay_of_stored {libs : Libs} {frames : List Frame} {s : Sys}
    (h : Stored libs frames s.entries) :
    scanMessages libs (region frames).length [] (region frames) = .ok s.replay := by
  rw [scanMessages_whole libs frames (length_le_region frames), filterMap_message_of_stored h]
  rfl

/-! ## The numbers -/

/-- Every number in the hands of a caller: returned, or taken and not yet written. -/
def issued (s : Sys) : List UInt64 := s.returned.map Prod.fst ++ s.appending.map Prod.fst

/-- The step does not take the counter back below a number given out: no wrap-around, a compaction
    that sets it no lower, a reopening whose last entry is as great as any number returned. -/
def Keeps (s : Sys) : Act → Prop
  | .take _ => s.counter.toNat + 1 < 2 ^ 64
  | .finish => ∀ n ∈ s.issued, ∀ k ∈ s.held, n ≤ k
  | .reopen => ∀ n ∈ s.returned.map Prod.fst, n ≤ s.loaded
  | _ => True

-- The instances are named: the numbers to look at are those of a list, not all of `UInt64`.
instance (s : Sys) : ∀ a : Act, Decidable (s.Keeps a)
  | .take _ => Nat.decLt _ _
  | .finish =>
    have (n : UInt64) : Decidable (∀ k ∈ s.held, n ≤ k) := Option.decidableForallMem _
    List.decidableBAll _ _
  | .reopen => List.decidableBAll _ _
  | .write .. | .fail _ | .read .. | .rewrite _ => .isTrue trivial

theorem toNat_succ {n : UInt64} (h : n.toNat + 1 < 2 ^ 64) : (n + 1).toNat = n.toNat + 1 := by
  rw [UInt64.toNat_add]
  exact Nat.mod_eq_of_lt h

/-- Distinct positive numbers up to `c` are no more than `c`. -/
theorem length_le_of_nodup {l : List UInt64} {c : Nat} (hnodup : l.Nodup)
    (hpos : ∀ n ∈ l, 0 < n.toNat) (hle : ∀ n ∈ l, n.toNat ≤ c) : l.length ≤ c := by
  have hmap : (l.map UInt64.toNat).Nodup := hnodup.map fun a b h => UInt64.toNat_inj.mp h
  have hsub : l.map UInt64.toNat ⊆ List.range' 1 c := by
    intro x hx
    obtain ⟨n, hn, rfl⟩ := List.mem_map.mp hx
    have h1 := hpos n hn
    have h2 := hle n hn
    exact List.mem_range'_1.mpr ⟨by omega, by omega⟩
  have hlen := (List.subperm_of_subset hmap hsub).length_le
  rwa [List.length_map, List.length_range'] at hlen

/-- No number is out twice, none is above the counter, and the file holds returned numbers or small
    ones. -/
structure Numbered (s : Sys) : Prop where
  nodup : s.issued.Nodup
  pos : ∀ n ∈ s.issued, 0 < n.toNat
  le : ∀ n ∈ s.issued, n.toNat ≤ s.counter.toNat
  file : ∀ e ∈ s.entries, e.sequence ∈ s.returned.map Prod.fst ∨ e.sequence.toNat ≤ s.returned.length
  size : s.entries.length ≤ s.returned.length
  pending : ∀ r ∈ s.compacting, r.length ≤ s.returned.length ∧ ∀ e ∈ r, e.sequence.toNat ≤ r.length

theorem Numbered.init : Numbered Sys.init :=
  ⟨List.nodup_nil, by simp [issued, Sys.init, opened], by simp [issued, Sys.init, opened],
   by simp [Sys.init, opened], Nat.le_refl _, by simp [Sys.init, opened]⟩

/-- The counter is above everything in the file. -/
theorem Numbered.file_le {s : Sys} (h : Numbered s) : ∀ e ∈ s.entries,
    e.sequence.toNat ≤ s.counter.toNat := by
  intro e he
  rcases h.file e he with hret | hsmall
  · exact h.le _ (List.mem_append_left _ hret)
  · have hlen : (s.returned.map Prod.fst).length ≤ s.counter.toNat :=
      length_le_of_nodup (List.nodup_append.mp h.nodup).1
        (fun n hn => h.pos n (List.mem_append_left _ hn))
        (fun n hn => h.le n (List.mem_append_left _ hn))
    rw [List.length_map] at hlen
    omega

theorem length_retained_le (s : Sys) (now retainMs : UInt64) (clock : Nat → UInt64) :
    (s.retained now retainMs clock).length ≤ s.entries.length := by
  rw [retained, List.length_mapIdx, replay]
  refine (List.length_filter_le ..).trans ?_
  rw [List.length_map]

/-- Renumbering from 1 stays within the number of entries. -/
theorem retained_sequence_le {s : Sys} {now retainMs : UInt64} {clock : Nat → UInt64} {e : WalEntry}
    (h : e ∈ s.retained now retainMs clock) :
    e.sequence.toNat ≤ (s.retained now retainMs clock).length := by
  rw [retained, List.mem_mapIdx] at h
  obtain ⟨i, hi, rfl⟩ := h
  show (UInt64.ofNat (i + 1)).toNat ≤ _
  rw [UInt64.toNat_ofNat', retained, List.length_mapIdx]
  exact (Nat.mod_le _ _).trans hi

/-- A write hands a number over from the callers in flight to those that returned. -/
theorem issued_write {s : Sys} {call : UInt64 × Message} (h : call ∈ s.appending) :
    ((s.returned ++ [call]).map Prod.fst ++ (s.appending.erase call).map Prod.fst).Perm s.issued := by
  have hcons : ((call :: s.appending.erase call).map Prod.fst).Perm (s.appending.map Prod.fst) :=
    (List.perm_cons_erase h).symm.map Prod.fst
  rw [List.map_append, List.append_assoc]
  exact hcons.append_left _

/-- The number a caller takes is above all that are out. -/
theorem Numbered.take {s : Sys} (h : Numbered s) (m : Message) (hkeep : s.counter.toNat + 1 < 2 ^ 64) :
    Numbered { s with counter := s.counter + 1, appending := (s.counter + 1, m) :: s.appending } := by
  have hnext := toNat_succ hkeep
  have hfresh : s.counter + 1 ∉ s.issued := by
    intro hn
    have hle := h.le _ hn
    omega
  have hperm : (s.returned.map Prod.fst ++ (s.counter + 1) :: s.appending.map Prod.fst).Perm
      ((s.counter + 1) :: s.issued) := List.perm_middle
  refine ⟨hperm.nodup_iff.mpr (List.nodup_cons.mpr ⟨hfresh, h.nodup⟩), ?_, ?_, h.file, h.size, h.pending⟩
  · intro n hn
    rcases List.mem_cons.mp (hperm.mem_iff.mp hn) with rfl | hn
    · omega
    · exact h.pos n hn
  · intro n hn
    show n.toNat ≤ (s.counter + 1).toNat
    rcases List.mem_cons.mp (hperm.mem_iff.mp hn) with rfl | hn
    · exact Nat.le_refl _
    · have hle := h.le n hn
      omega

/-- The entry a write appends has the number that is returned. -/
theorem Numbered.write {s : Sys} (h : Numbered s) {call : UInt64 × Message} (hin : call ∈ s.appending)
    (now : UInt64) :
    Numbered { s with
      entries := s.entries ++ [⟨call.1, call.2, now⟩]
      appending := s.appending.erase call
      returned := s.returned ++ [call] } := by
  have hperm := issued_write hin
  have hlen : (s.returned ++ [call]).length = s.returned.length + 1 := List.length_append
  refine ⟨hperm.nodup_iff.mpr h.nodup, fun n hn => h.pos n (hperm.mem_iff.mp hn),
    fun n hn => h.le n (hperm.mem_iff.mp hn), ?_, ?_, ?_⟩
  · intro e he
    show e.sequence ∈ (s.returned ++ [call]).map Prod.fst ∨ _ ≤ (s.returned ++ [call]).length
    rw [List.map_append, hlen]
    rcases List.mem_append.mp he with he | he
    · rcases h.file e he with hret | hsmall
      · exact .inl (List.mem_append_left _ hret)
      · exact .inr (by omega)
    · rw [List.mem_singleton.mp he]
      exact .inl (List.mem_append_right _ (List.mem_singleton.mpr rfl))
  · show (s.entries ++ [_]).length ≤ (s.returned ++ [call]).length
    rw [hlen, List.length_append, List.length_singleton]
    exact Nat.succ_le_succ h.size
  · intro r hr
    show r.length ≤ (s.returned ++ [call]).length ∧ _
    rw [hlen]
    exact ⟨Nat.le_succ_of_le (h.pending r hr).1, (h.pending r hr).2⟩

/-- After a reopening only the returned numbers are out. -/
theorem Numbered.reopen {s : Sys} (h : Numbered s) {counter : UInt64}
    (hkeep : ∀ n ∈ s.returned.map Prod.fst, n ≤ counter) :
    Numbered { s with counter, held := none, appending := [], compacting := [] } := by
  have hissued : s.returned.map Prod.fst ++ [] = s.returned.map Prod.fst := List.append_nil _
  refine ⟨?_, ?_, ?_, h.file, h.size, fun r hr => by cases hr⟩
  · show (s.returned.map Prod.fst ++ []).Nodup
    rw [hissued]
    exact (List.nodup_append.mp h.nodup).1
  · intro n hn
    exact h.pos n (List.mem_append_left _ (hissued ▸ hn))
  · intro n hn
    exact UInt64.le_iff_toNat_le.mp (hkeep n (hissued ▸ hn))

/-- **What each step keeps**, if it does not take the counter back. -/
theorem Numbered.step {s t : Sys} {a : Act} (hkeep : s.Keeps a) (hstep : s.step a = some t)
    (h : Numbered s) : Numbered t := by
  cases a with
  | take m =>
    cases hstep
    exact h.take m hkeep
  | write call now =>
    rw [Sys.step] at hstep
    split at hstep
    · rename_i hin
      cases hstep
      exact h.write hin.1 now
    · cases hstep
  | fail call =>
    rw [Sys.step] at hstep
    split at hstep
    · cases hstep
      have hsub : (s.returned.map Prod.fst ++ (s.appending.erase call).map Prod.fst).Sublist
          s.issued := (List.erase_sublist.map Prod.fst).append_left _
      exact ⟨h.nodup.sublist hsub, fun n hn => h.pos n (hsub.subset hn),
        fun n hn => h.le n (hsub.subset hn), h.file, h.size, h.pending⟩
    · cases hstep
  | read now retainMs clock =>
    rw [Sys.step] at hstep
    split at hstep
    · cases hstep
      refine ⟨h.nodup, h.pos, h.le, h.file, h.size, ?_⟩
      intro r hr
      rcases List.mem_cons.mp hr with rfl | hr
      · exact ⟨(length_retained_le ..).trans h.size, fun e he => retained_sequence_le he⟩
      · exact h.pending r hr
    · cases hstep
  | rewrite r =>
    rw [Sys.step] at hstep
    split at hstep
    · rename_i hin
      cases hstep
      obtain ⟨hsize, hseq⟩ := h.pending r hin.1
      exact ⟨h.nodup, h.pos, h.le, fun e he => .inr ((hseq e he).trans hsize), hsize,
        fun q hq => h.pending q (List.mem_of_mem_erase hq)⟩
    · cases hstep
  | finish =>
    rw [Sys.step] at hstep
    split at hstep
    · rename_i k hheld
      cases hstep
      exact ⟨h.nodup, h.pos, fun n hn => UInt64.le_iff_toNat_le.mp (hkeep n hn k hheld), h.file,
        h.size, h.pending⟩
    · cases hstep
  | reopen =>
    cases hstep
    exact h.reopen hkeep

/-- **No number comes twice while no step takes the counter back**: in every state such a run
    reaches, the returned numbers are distinct and the next number is above all in the file. -/
theorem numbers_distinct_of_keeps (as : List Act) (s : Sys)
    (hrun : Trace.run Sys.step Sys.init as = some s) (hall : Trace.Along Sys.step Keeps Sys.init as) :
    (s.returned.map Prod.fst).Nodup ∧
    ∀ m t, s.Keeps (.take m) → s.step (.take m) = some t →
      t.appending.head? = some (t.counter, m) ∧ ∀ e ∈ s.entries, e.sequence < t.counter := by
  have h : Numbered s :=
    hall.invariant (P := Numbered) (fun _ _ _ hk hs hi => hi.step hk hs) as _ s hrun .init
  refine ⟨(List.nodup_append.mp h.nodup).1, ?_⟩
  rintro m t hkeep hstep
  cases hstep
  refine ⟨rfl, fun e he => ?_⟩
  have hnext := toNat_succ hkeep
  have hle := h.file_le e he
  exact UInt64.lt_iff_toNat_lt.mpr (by show _ < (s.counter + 1).toNat; omega)

/-- A reading of the given age. -/
def reading (timestamp : UInt64) : Message :=
  .newWithTemporal .nidd [] .operational timestamp timestamp

/-- Two appends, a reopening, a compaction that keeps everything, one more append. -/
def threeAppends : List Act :=
  [.take (reading 95), .write (1, reading 95) 95, .take (reading 96), .write (2, reading 96) 96,
   .reopen, .read 100 10 (fun _ => 100),
   .rewrite [⟨1, reading 95, 100⟩, ⟨2, reading 96, 100⟩], .finish,
   .take (reading 97), .write (3, reading 97) 97]

theorem numbers_distinct_of_keeps_third :
    ∃ s, Trace.run Sys.step Sys.init threeAppends = some s ∧ s.returned.map Prod.fst = [1, 2, 3] ∧
      (s.returned.map Prod.fst).Nodup :=
  ⟨_, rfl, rfl, (numbers_distinct_of_keeps threeAppends _ rfl (by decide)).1⟩

/-- Two ways to get a number twice: a compaction that drops two old readings and starts again at 1,
    and a reopening after two appends wrote in the other order. -/
theorem number_returned_twice :
    (∃ s, Trace.run Sys.step Sys.init
        [.take (reading 1), .write (1, reading 1) 1, .take (reading 2), .write (2, reading 2) 2,
         .read 100 10 (fun _ => 100), .rewrite [], .finish,
         .take (reading 97), .write (1, reading 97) 97] = some s ∧
      s.returned.map Prod.fst = [1, 2, 1]) ∧
    ∃ s, Trace.run Sys.step Sys.init
        [.take (reading 1), .take (reading 2), .write (2, reading 2) 2, .write (1, reading 1) 2,
         .reopen, .take (reading 97), .write (2, reading 97) 97] = some s ∧
      s.returned.map Prod.fst = [2, 1, 2] :=
  ⟨⟨_, rfl, rfl⟩, _, rfl, rfl⟩

end Sys

end Wal

end FloatProtocols
