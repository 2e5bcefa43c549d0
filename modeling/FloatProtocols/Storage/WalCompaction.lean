/-
  One compaction among appends: which messages it loses.

  `compact` keeps what it READ and is not older than the cutoff.  Between its read and its rewrite the
  file is free, and an append that writes there returns Ok; the rewrite then truncates the file.
  Between the rewrite and the return the file is locked, so nothing else is lost.

  The books are exact.  With `A` acknowledged before the read, `W` in the window and `B` after the
  rewrite, a replay gives `A` without the old ones, then `B`; every recent message of `A ++ W ++ B` is
  in it, counted with repetitions, if and only if `W` has no recent message (`compact_keeps_iff`).

  Undisturbed, a compaction keeps what its cutoff lets through.  The cutoff is a u64 difference: where
  more is to be retained than there is time since the epoch it wraps, and what should keep everything
  keeps only messages from the far future (`compact_exact_iff`).  Below, the bytes it writes are the
  frames of the entries it retained (`compact_stored`).
-/
import FloatProtocols.Storage.WalThreads

namespace FloatProtocols

open Wire

namespace Wal

/-- The steps of `append`. -/
def Act.isAppend : Act → Bool
  | .take _ => true
  | .write _ _ => true
  | .fail _ => true
  | _ => false

namespace Sys

/-- The messages whose append returned Ok. -/
def acked (s : Sys) : List Message := s.returned.map Prod.snd

/-- Not older than the cutoff. -/
def recent (now retainMs : UInt64) (m : Message) : Bool := cutoff now retainMs ≤ m.timestamp

/-- What appends do to a log: they add `news` to what is acknowledged and to what a replay gives —
    and nothing while the file is locked. -/
def Grown (news : List Message) (s t : Sys) : Prop :=
  t.acked = s.acked ++ news ∧ t.replay = s.replay ++ news ∧ t.held = s.held ∧
    (s.held ≠ none → news = [])

theorem Grown.refl (s : Sys) : Grown [] s s := by
  refine ⟨?_, ?_, rfl, fun _ => rfl⟩ <;> rw [List.append_nil]

theorem Grown.trans {s t u : Sys} {xs ys : List Message} (h₁ : Grown xs s t) (h₂ : Grown ys t u) :
    Grown (xs ++ ys) s u := by
  obtain ⟨hack₁, hrep₁, hheld₁, hlock₁⟩ := h₁
  obtain ⟨hack₂, hrep₂, hheld₂, hlock₂⟩ := h₂
  refine ⟨by rw [hack₂, hack₁, List.append_assoc], by rw [hrep₂, hrep₁, List.append_assoc],
    hheld₂.trans hheld₁, fun hlocked => ?_⟩
  rw [hlock₁ hlocked, hlock₂ (hheld₁ ▸ hlocked), List.append_nil]

theorem grown_step {s t : Sys} {a : Act} (ha : a.isAppend = true) (h : s.step a = some t) :
    ∃ news, Grown news s t := by
  cases a with
  | take m =>
    cases h
    exact ⟨[], Grown.refl s⟩
  | write call now =>
    rw [step] at h
    split at h
    · rename_i hin
      cases h
      exact ⟨[call.2], List.map_append, List.map_append, rfl, fun hlocked => absurd hin.2 hlocked⟩
    · cases h
  | fail call =>
    rw [step] at h
    split at h
    · cases h
      exact ⟨[], Grown.refl s⟩
    · cases h
  | read => cases ha
  | rewrite => cases ha
  | finish => cases ha
  | reopen => cases ha

/-- A run of appends. -/
theorem grown_run {s t : Sys} {as : List Act} (has : ∀ a ∈ as, a.isAppend = true)
    (h : Trace.run step s as = some t) : ∃ news, Grown news s t := by
  have hall : Trace.Along step (fun _ a => a.isAppend = true) s as :=
    Trace.along_of_forall as s fun _ a ha => has a ha
  refine hall.invariant (P := fun u => ∃ news, Grown news s u) ?_ as s t h ⟨[], Grown.refl s⟩
  rintro u a v ha hstep ⟨xs, hxs⟩
  obtain ⟨ys, hys⟩ := grown_step ha hstep
  exact ⟨xs ++ ys, hxs.trans hys⟩

/-! ## The steps of `compact` -/

/-- Reading takes no acknowledgement back. -/
theorem acked_read {s t : Sys} {now retainMs : UInt64} {clock : Nat → UInt64}
    (h : s.step (.read now retainMs clock) = some t) : t.acked = s.acked := by
  rw [step] at h
  split at h
  · cases h
    rfl
  · cases h

/-- Rewriting replaces what a replay gives, takes no acknowledgement back, and keeps the lock. -/
theorem acked_rewrite {s t : Sys} {retained : List WalEntry}
    (h : s.step (.rewrite retained) = some t) :
    t.acked = s.acked ∧ t.replay = retained.map WalEntry.message ∧ t.held ≠ none := by
  rw [step] at h
  split at h
  · cases h
    exact ⟨rfl, rfl, by simp⟩
  · cases h

theorem acked_finish {s t : Sys} (h : s.step .finish = some t) :
    t.acked = s.acked ∧ t.replay = s.replay := by
  rw [step] at h
  split at h
  · cases h
    exact ⟨rfl, rfl⟩
  · cases h

/-- A rewrite leaves what was recent when the file was read. -/
theorem map_message_retained (s : Sys) (now retainMs : UInt64) (clock : Nat → UInt64) :
    (s.retained now retainMs clock).map WalEntry.message = s.replay.filter (recent now retainMs) := by
  apply List.ext_getElem?
  intro i
  rw [retained, List.getElem?_map, List.getElem?_mapIdx, Option.map_map]
  exact Option.map_id'

/-- The recent messages of `A ++ W ++ B` are among the recent ones of `A` and all of `B` only if `W`
    has none. -/
theorem filter_subperm_iff {α : Type} {p : α → Bool} {A W B : List α} :
    ((A ++ W ++ B).filter p).Subperm (A.filter p ++ B) ↔ W.filter p = [] := by
  rw [List.filter_append, List.filter_append, List.append_assoc, List.subperm_append_left]
  constructor
  · intro h
    have hcount := h.countP_le p
    rw [List.countP_append, List.countP_filter, List.countP_filter] at hcount
    simp only [Bool.and_self] at hcount
    change List.countP p W + List.countP p B ≤ List.countP p B at hcount
    exact List.eq_nil_of_length_eq_zero (by rw [← List.countP_eq_length_filter]; omega)
  · intro h
    rw [h, List.nil_append]
    exact List.filter_sublist.subperm

/-- **Exactly the recent messages acknowledged between the read and the rewrite are lost.** -/
theorem compact_keeps_iff (header counter : UInt64) (entries : List WalEntry) (now retainMs : UInt64)
    (clock : Nat → UInt64) (before window locked after : List Act)
    (happend : ∀ a ∈ before ++ window ++ locked ++ after, a.isAppend = true) (s₁ s₂ s₃ s₄ : Sys)
    (h₁ : Trace.run step (opened header entries counter) before = some s₁)
    (h₂ : Trace.run step s₁ (.read now retainMs clock :: window) = some s₂)
    (h₃ : Trace.run step s₂ (.rewrite (s₁.retained now retainMs clock) :: locked) = some s₃)
    (h₄ : Trace.run step s₃ (.finish :: after) = some s₄) :
    (s₄.acked.filter (recent now retainMs)).Subperm s₄.replay ↔
      ∀ m ∈ s₂.acked.drop s₁.acked.length, m.timestamp < cutoff now retainMs := by
  obtain ⟨u₁, hread, h₂⟩ := Option.bind_eq_some_iff.mp h₂
  obtain ⟨u₂, hrewrite, h₃⟩ := Option.bind_eq_some_iff.mp h₃
  obtain ⟨u₃, hfinish, h₄⟩ := Option.bind_eq_some_iff.mp h₄
  have happend₁ : ∀ a ∈ before, a.isAppend = true := fun a ha => happend a (by simp [ha])
  have happend₂ : ∀ a ∈ window, a.isAppend = true := fun a ha => happend a (by simp [ha])
  have happend₃ : ∀ a ∈ locked, a.isAppend = true := fun a ha => happend a (by simp [ha])
  have happend₄ : ∀ a ∈ after, a.isAppend = true := fun a ha => happend a (by simp [ha])
  -- before the read, a replay gives what is acknowledged
  obtain ⟨xs, hack₁, hrep₁, -, -⟩ := grown_run happend₁ h₁
  have hsame : s₁.replay = s₁.acked := by
    rw [hack₁, hrep₁, replay, acked, opened, List.map_map]
    rfl
  obtain ⟨W, hack₂, -, -, -⟩ := grown_run happend₂ h₂
  rw [acked_read hread] at hack₂
  obtain ⟨hack_rew, hrep_rew, hheld_rew⟩ := acked_rewrite hrewrite
  -- the file is locked: no append gets through
  obtain ⟨news, hack₃, hrep₃, hheld₃, hlocked⟩ := grown_run happend₃ h₃
  rw [hlocked hheld_rew, List.append_nil] at hack₃ hrep₃
  obtain ⟨hack_fin, hrep_fin⟩ := acked_finish hfinish
  obtain ⟨B, hack₄, hrep₄, -, -⟩ := grown_run happend₄ h₄
  have hacked : s₄.acked = s₁.acked ++ W ++ B := by
    rw [hack₄, hack_fin, hack₃, hack_rew, hack₂]
  have hreplay : s₄.replay = s₁.acked.filter (recent now retainMs) ++ B := by
    rw [hrep₄, hrep_fin, hrep₃, hrep_rew, map_message_retained, hsame]
  rw [hacked, hreplay, filter_subperm_iff, hack₂, List.drop_left, List.filter_eq_nil_iff]
  refine forall_congr' fun m => forall_congr' fun _ => ?_
  rw [recent, decide_eq_true_iff, UInt64.not_le]

/-- The window on the log of the second append, with its cutoff at 90. -/
theorem compact_keeps_iff_old :
    ∃ s, Trace.run step init
        [.take (reading 95), .write (1, reading 95) 95, .take (reading 20), .read 100 10 (fun _ => 100),
         .write (2, reading 20) 100, .rewrite [⟨1, reading 95, 100⟩], .finish] = some s ∧
      (s.acked.filter (recent 100 10)).Subperm s.replay :=
  ⟨_, rfl, (compact_keeps_iff 0 0 [] 100 10 (fun _ => 100)
    [.take (reading 95), .write (1, reading 95) 95, .take (reading 20)] [.write (2, reading 20) 100]
    [] [] (by decide) _ _ _ _ rfl rfl rfl rfl).mpr (by decide)⟩

/-- An append returns Ok while a compaction that keeps everything is between its read and its
    rewrite: the message is gone. -/
theorem message_lost_in_window :
    ∃ s, Trace.run step init
        [.read 100 10 (fun _ => 100), .take (reading 100), .write (1, reading 100) 100,
         .rewrite [], .finish] = some s ∧
      s.returned = [(1, reading 100)] ∧ cutoff 100 10 ≤ (reading 100).timestamp ∧ s.replay = [] :=
  ⟨_, rfl, rfl, by decide, rfl⟩

/-! ## Undisturbed -/

/-- The three steps of `compact`, with nothing in between. -/
def compaction (s : Sys) (now retainMs : UInt64) (clock : Nat → UInt64) : List Act :=
  [.read now retainMs clock, .rewrite (s.retained now retainMs clock), .finish]

/-- Not older than the cutoff over the integers. -/
def due (now retainMs : UInt64) (m : Message) : Bool :=
  (now.toNat : Int) - retainMs.toNat ≤ m.timestamp.toNat

theorem recent_eq_due {now retainMs : UInt64} (h : retainMs ≤ now) : recent now retainMs = due now retainMs := by
  funext m
  rw [recent, due, cutoff, decide_eq_decide, UInt64.le_iff_toNat_le, UInt64.toNat_sub_of_le now retainMs h]
  rw [UInt64.le_iff_toNat_le] at h
  omega

/-- Retaining more than there is keeps everything. -/
theorem due_of_lt {now retainMs : UInt64} (h : now < retainMs) (m : Message) : due now retainMs m := by
  rw [due, decide_eq_true_iff]
  rw [UInt64.lt_iff_toNat_lt] at h
  omega

/-- A compaction of a free file goes through, and a replay then gives what was recent. -/
theorem run_compaction {s : Sys} (hfree : s.held = none) (now retainMs : UInt64) (clock : Nat → UInt64) :
    ∃ t, Trace.run step s (s.compaction now retainMs clock) = some t ∧
      t.replay = s.replay.filter (recent now retainMs) := by
  obtain ⟨u₁, hread⟩ : ∃ u, s.step (.read now retainMs clock) = some u := ⟨_, if_pos hfree⟩
  have hread' : u₁ = { s with compacting := s.retained now retainMs clock :: s.compacting } :=
    Option.some.inj (hread.symm.trans (if_pos hfree))
  obtain ⟨u₂, hrewrite⟩ : ∃ u, u₁.step (.rewrite (s.retained now retainMs clock)) = some u := by
    rw [hread']
    exact ⟨_, if_pos ⟨List.mem_cons_self, hfree⟩⟩
  obtain ⟨-, hreplay, hheld⟩ := acked_rewrite hrewrite
  obtain ⟨k, hk⟩ := Option.ne_none_iff_exists'.mp hheld
  obtain ⟨t, hfinish⟩ : ∃ t, u₂.step .finish = some t := by
    rw [step, hk]
    exact ⟨_, rfl⟩
  refine ⟨t, ?_, ?_⟩
  · rw [compaction, Trace.run, hread, Option.bind_some, Trace.run, hrewrite, Option.bind_some, Trace.run,
      hfinish]
    rfl
  · rw [(acked_finish hfinish).2, hreplay, map_message_retained]

/-- **When the cutoff is what it says.**  A compaction keeps exactly the messages that are at least
    `now - retain_ms` over the integers, in their order, if and only if no more is to be retained than
    there is, or everything in the log is as far in the future as the wrapped cutoff. -/
theorem compact_exact_iff (s : Sys) (hfree : s.held = none) (now retainMs : UInt64)
    (clock : Nat → UInt64) :
    ∃ t, Trace.run step s (s.compaction now retainMs clock) = some t ∧
      (t.replay = s.replay.filter (due now retainMs) ↔
        retainMs ≤ now ∨ ∀ m ∈ s.replay, cutoff now retainMs ≤ m.timestamp) := by
  obtain ⟨t, hrun, hreplay⟩ := run_compaction hfree now retainMs clock
  refine ⟨t, hrun, ?_⟩
  rw [hreplay]
  rcases UInt64.lt_or_le now retainMs with hover | hle
  · have hall : s.replay.filter (due now retainMs) = s.replay :=
      List.filter_eq_self.mpr fun m _ => due_of_lt hover m
    rw [hall, List.filter_eq_self, or_iff_right (UInt64.not_le.mpr hover)]
    exact forall₂_congr fun m _ => decide_eq_true_iff
  · rw [recent_eq_due hle]
    exact iff_of_true rfl (.inl hle)

/-- A log with an old and a recent message, of which ten milliseconds are kept. -/
theorem compact_exact_iff_ten :
    ∃ t, Trace.run step (opened 0 [⟨1, reading 20, 20⟩, ⟨2, reading 95, 95⟩] 2)
        ((opened 0 [⟨1, reading 20, 20⟩, ⟨2, reading 95, 95⟩] 2).compaction 100 10 fun _ => 100) = some t ∧
      t.replay = [reading 95] := by
  obtain ⟨t, hrun, hiff⟩ :=
    compact_exact_iff (opened 0 [⟨1, reading 20, 20⟩, ⟨2, reading 95, 95⟩] 2) rfl 100 10 fun _ => 100
  exact ⟨t, hrun, (hiff.mpr (.inl (by decide))).trans (by decide)⟩

/-- **Retaining everything deletes everything**: with 101 milliseconds to retain at time 100, both
    messages are gone. -/
theorem retain_all_deletes_all :
    ∃ t, Trace.run step (opened 0 [⟨1, reading 20, 20⟩, ⟨2, reading 95, 95⟩] 2)
        ((opened 0 [⟨1, reading 20, 20⟩, ⟨2, reading 95, 95⟩] 2).compaction 100 101 fun _ => 100) = some t ∧
      t.replay = [] ∧ due 100 101 (reading 20) ∧ due 100 101 (reading 95) :=
  ⟨_, rfl, by decide, by decide, by decide⟩

end Sys

/-! ## The bytes -/

/-- The entries `compact` makes of what `replay` returned. -/
def keptEntries (all : List Message) (now retainMs : UInt64) (clock : Nat → UInt64) : List WalEntry :=
  (all.filter (Sys.recent now retainMs)).mapIdx fun i m => ⟨UInt64.ofNat (i + 1), m, clock i⟩

/-- The writing loop of `compact`; an entry that cannot be serialized ends it. -/
def writeEntries (libs : Libs) : Handle → List WalEntry → Exec WalError Unit × Handle
  | w, [] => (.ok (), w)
  | w, e :: rest =>
    match e.toBytes libs with
    | .ok data =>
      let frame := u32Be (UInt32.ofNat data.length) ++ data ++ u32Be (libs.crc32 data)
      writeEntries libs
        { w with content := w.content ++ frame, cursor := w.content.length + frame.length } rest
    | .err err => (.err err, w)
    | .panic => (.panic, w)

/-- `compact`: the file is cut to nothing before the first entry is serialized. -/
def compact (libs : Libs) (w : Handle) (now retainMs : UInt64) (clock : Nat → UInt64) :
    Exec WalError Unit × Handle :=
  match replay libs w with
  | (.ok all, w) =>
    let retained := keptEntries all now retainMs clock
    let header := (WalHeader.new (UInt64.ofNat retained.length)).toBytes
    match writeEntries libs { w with content := header, cursor := header.length } retained with
    | (.ok _, w) => (.ok (), { w with sequence := UInt64.ofNat retained.length })
    | (.err err, w) => (.err err, w)
    | (.panic, w) => (.panic, w)
  | (.err err, w) => (.err err, w)
  | (.panic, w) => (.panic, w)

/-- An entry that is read back as it was written, in a frame of its own. -/
def Storable (libs : Libs) (e : WalEntry) : Prop :=
  ∃ data, libs.serialize e = .ok data ∧ data.length < 2 ^ 32 ∧ libs.deserialize data = .ok e

theorem writeEntries_stored {libs : Libs} (entries : List WalEntry) :
    (∀ e ∈ entries, Storable libs e) → ∀ w : Handle, ∃ w' frames,
      writeEntries libs w entries = (.ok (), w') ∧ Sys.Stored libs frames entries ∧
        w'.content = w.content ++ region frames := by
  induction entries with
  | nil =>
    intro _ w
    exact ⟨w, [], rfl, .nil, (List.append_nil _).symm⟩
  | cons e rest ih =>
    intro hstorable w
    obtain ⟨data, hser, hsmall, hde⟩ := hstorable e List.mem_cons_self
    have hbytes : e.toBytes libs = .ok data := by rw [WalEntry.toBytes, hser]
    let f : Frame := ⟨data, libs.crc32 data, hsmall⟩
    let next : Handle := { w with
      content := w.content ++ (u32Be (UInt32.ofNat data.length) ++ data ++ u32Be (libs.crc32 data))
      cursor := w.content.length +
        (u32Be (UInt32.ofNat data.length) ++ data ++ u32Be (libs.crc32 data)).length }
    have hnext : next.content = w.content ++ f.toBytes := by
      show w.content ++ _ = _
      rw [Frame.toBytes, List.append_assoc]
    obtain ⟨w', frames, hwrite, hstored, hcontent⟩ :=
      ih (fun x hx => hstorable x (List.mem_cons_of_mem e hx)) next
    refine ⟨w', f :: frames, ?_, .cons ⟨rfl, hde⟩ hstored, ?_⟩
    · rw [writeEntries, hbytes]
      exact hwrite
    · rw [hcontent, hnext, region_cons, List.append_assoc]

/-- **The file after `compact` holds the entries of the system above**, if these can be stored. -/
theorem compact_stored {libs : Libs} {w : Handle} {s : Sys} (now retainMs : UInt64)
    (clock : Nat → UInt64) (hreplay : (replay libs w).1 = .ok s.replay)
    (hstorable : ∀ e ∈ s.retained now retainMs clock, Storable libs e) :
    ∃ w' frames, compact libs w now retainMs clock = (.ok (), w') ∧
      Sys.Stored libs frames (s.retained now retainMs clock) ∧
      w'.content = (WalHeader.new (UInt64.ofNat (s.retained now retainMs clock).length)).toBytes ++
        region frames := by
  obtain ⟨w₁, hw₁⟩ : ∃ w₁, replay libs w = (.ok s.replay, w₁) := ⟨_, Prod.ext hreplay rfl⟩
  let header := (WalHeader.new (UInt64.ofNat (s.retained now retainMs clock).length)).toBytes
  obtain ⟨w', frames, hwrite, hstored, hcontent⟩ :=
    writeEntries_stored _ hstorable { w₁ with content := header, cursor := header.length }
  refine ⟨{ w' with sequence := UInt64.ofNat (s.retained now retainMs clock).length }, frames, ?_, hstored,
    hcontent⟩
  have hkept : keptEntries s.replay now retainMs clock = s.retained now retainMs clock := rfl
  rw [compact, hw₁]
  simp only [hkept, hwrite, header]

end Wal

end FloatProtocols
