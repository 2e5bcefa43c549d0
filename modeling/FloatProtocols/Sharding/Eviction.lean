/-
  `evict_idle` among the pushes.

  A shard's `last_access` is the instant the shard was made, and no push moves it on: `evict_idle` goes by
  a shard's age.  Nor does `push` look for a shard that is still there: the round robin comes to a removed
  one all the same.  While no shard that the pushes come to is removed, the round robin is even
  (`Fed`), and so a shard holds a message exactly if its turn has come.  What `evict_idle` ought to spare
  is spared exactly if every shard whose turn comes is younger than the threshold (`spares_iff`).
-/
import Mathlib.Data.List.Induction
import FloatProtocols.Sharding.Pushes

namespace FloatProtocols

namespace Sharding

open Wire

/-- The calls of a run, with their clock readings.  `push` reads no clock; its reading says when a
    message was accepted. -/
inductive Timed where
  | push (now : Nat) (msg : Message)
  | evictIdle (now idleThreshold : Nat)

namespace Timed

/-- The call itself. -/
def op : Timed → Op
  | push _ msg => .push (.regular msg)
  | evictIdle now idleThreshold => .evictIdle now idleThreshold

def isPush : Timed → Bool
  | push .. => true
  | evictIdle .. => false

/-- The pushes of a run. -/
def pushCount (calls : List Timed) : Nat := calls.countP isPush

@[simp] theorem pushCount_concat_push (calls : List Timed) (now : Nat) (msg : Message) :
    pushCount (calls ++ [.push now msg]) = pushCount calls + 1 := by
  rw [pushCount, List.countP_append, List.countP_singleton, isPush, if_pos rfl, pushCount]

@[simp] theorem pushCount_concat_evictIdle (calls : List Timed) (now idleThreshold : Nat) :
    pushCount (calls ++ [.evictIdle now idleThreshold]) = pushCount calls := by
  rw [pushCount, List.countP_append, List.countP_singleton, isPush, if_neg Bool.false_ne_true,
    Nat.add_zero, pushCount]

theorem pushCount_mono {before calls : List Timed} (h : before <+: calls) :
    pushCount before ≤ pushCount calls :=
  h.sublist.countP_le

end Timed

namespace Manager

/-- `ShardManager::new`, where every `MemoryShard::new` reads the clock for itself. -/
def started (numShards shardSize : Nat) (created : Nat → Nat) : Manager :=
  { new numShards shardSize 0 with
    shards := fun id => ((new numShards shardSize 0).shards id).map fun shard =>
      { shard with lastAccess := created id } }

/-- A run. -/
def runTimed (m : Manager) (calls : List Timed) : Manager := m.after (calls.map Timed.op)

theorem runTimed_concat (m : Manager) (calls : List Timed) (c : Timed) :
    m.runTimed (calls ++ [c]) = (m.runTimed calls).apply c.op := by
  rw [runTimed, List.map_append, List.map_singleton, after, List.foldl_concat, runTimed, after]

theorem apply_push (m : Manager) (p : Push) : m.apply (.push p) = (m.perform p).2 := rfl

theorem runTimed_push (m : Manager) (calls : List Timed) (now : Nat) (msg : Message) :
    m.runTimed (calls ++ [.push now msg]) = ((m.runTimed calls).perform (.regular msg)).2 :=
  (runTimed_concat ..).trans (apply_push _ (.regular msg))

/-- A push of the run put its message in shard `id` at `time`. -/
def AcceptedAt (m : Manager) (calls : List Timed) (id time : Nat) : Prop :=
  ∃ before msg, before ++ [.push time msg] <+: calls ∧ ((m.runTimed before).push msg).1 = .ok id

/-- `evict_idle` removes the regular shard `id`. -/
def Removes (m : Manager) (now idleThreshold id : Nat) : Prop :=
  m.isRegularShard id = true ∧ (m.shards id).isSome ∧ (m.evictIdle now idleThreshold).shards id = none

/-- What a run with `evict_idle` calls ought to keep: no shard goes that accepted a message less than the
    threshold ago, none that holds a message, and no push after an `evict_idle` finds its shard gone. -/
structure Spares (m : Manager) (calls : List Timed) : Prop where
  recent : ∀ before now idleThreshold, before ++ [.evictIdle now idleThreshold] <+: calls →
    ∀ id, (m.runTimed before).Removes now idleThreshold id →
      ∀ time, m.AcceptedAt before id time → idleThreshold ≤ now - time
  undelivered : ∀ before now idleThreshold, before ++ [.evictIdle now idleThreshold] <+: calls →
    ∀ id, (m.runTimed before).Removes now idleThreshold id → (m.runTimed before).channel id = []
  found : ∀ before now msg, before ++ [.push now msg] <+: calls →
    (∃ c ∈ before, c.isPush = false) → ((m.runTimed before).push msg).1 ≠ .err .notFound

theorem Spares.mono {m : Manager} {before calls : List Timed} (h : m.Spares calls)
    (hbefore : before <+: calls) : m.Spares before where
  recent b now idleThreshold hb := h.recent b now idleThreshold (hb.trans hbefore)
  undelivered b now idleThreshold hb := h.undelivered b now idleThreshold (hb.trans hbefore)
  found b now msg hb := h.found b now msg (hb.trans hbefore)

/-- Every regular shard whose turn comes in the run is younger than the threshold at each `evict_idle`.
    Without shards there is no regular one, and the round robin has nothing to come to. -/
def Outlives (numShards shardSize : Nat) (created : Nat → Nat) (calls : List Timed) : Prop :=
  if numShards = 0 then
    (started numShards shardSize created).backpressureLimit = 0 ∨
      ∀ before now msg, before ++ [.push now msg] <+: calls → ∀ c ∈ before, c.isPush = true
  else
    ∀ now idleThreshold, .evictIdle now idleThreshold ∈ calls →
      ∀ id, 1 ≤ id → id < numShards → id ≤ Timed.pushCount calls →
        id ≤ (started numShards shardSize created).backpressureLimit → now - created id < idleThreshold

section Run

variable {n size : Nat} {created : Nat → Nat}

/-! ## The shards -/

theorem config_runTimed (m : Manager) (calls : List Timed) :
    (m.runTimed calls).numShards = m.numShards ∧ (m.runTimed calls).shardSize = m.shardSize := by
  induction calls using List.reverseRecOn with
  | nil => exact ⟨rfl, rfl⟩
  | append_singleton calls c ih =>
    cases c with
    | push now msg =>
      obtain ⟨-, hnum, hsize⟩ := (m.runTimed calls).shards_perform (.regular msg)
      rw [runTimed_push]
      exact ⟨hnum.trans ih.1, hsize.trans ih.2⟩
    | evictIdle =>
      rw [runTimed_concat]
      exact ih

theorem limit_runTimed (m : Manager) (calls : List Timed) :
    (m.runTimed calls).backpressureLimit = m.backpressureLimit := by
  obtain ⟨hnum, hsize⟩ := config_runTimed m calls
  simp only [backpressureLimit, regularCount, hnum, hsize]

/-- An `evict_idle` of the run found the shard too old. -/
def Gone (created : Nat → Nat) (calls : List Timed) (id : Nat) : Prop :=
  ∃ now idleThreshold, .evictIdle now idleThreshold ∈ calls ∧ idleThreshold ≤ now - created id

theorem gone_concat_push {calls : List Timed} {now id : Nat} {msg : Message} :
    Gone created (calls ++ [.push now msg]) id ↔ Gone created calls id := by
  simp [Gone]

theorem gone_concat_evictIdle {calls : List Timed} {now idleThreshold id : Nat} :
    Gone created (calls ++ [.evictIdle now idleThreshold]) id ↔
      Gone created calls id ∨ idleThreshold ≤ now - created id := by
  constructor
  · rintro ⟨now', threshold', hmem, hold⟩
    rcases List.mem_append.mp hmem with hmem | hmem
    · exact .inl ⟨now', threshold', hmem, hold⟩
    · cases List.mem_singleton.mp hmem
      exact .inr hold
  · rintro (⟨now', threshold', hmem, hold⟩ | hold)
    · exact ⟨now', threshold', List.mem_append_left _ hmem, hold⟩
    · exact ⟨now, idleThreshold, List.mem_append_right _ List.mem_cons_self, hold⟩

variable (size created) in
/-- A regular shard is as it was made until an `evict_idle` finds it too old. -/
theorem shards_runTimed {id : Nat} (hid : 1 ≤ id) (hidn : id < n) (calls : List Timed) :
    (Gone created calls id ∧ ((started n size created).runTimed calls).shards id = none) ∨
    (¬ Gone created calls id ∧
      ((started n size created).runTimed calls).shards id = some ⟨size, created id, false⟩) := by
  induction calls using List.reverseRecOn with
  | nil =>
    refine .inr ⟨fun ⟨_, _, hmem, _⟩ => absurd hmem List.not_mem_nil, ?_⟩
    show Option.map _ (if id = n then _ else if id = 0 then _ else if id < n then _ else none) = _
    rw [if_neg (by omega), if_neg (by omega), if_pos hidn]
    rfl
  | append_singleton calls c ih =>
    cases c with
    | push now msg =>
      rw [runTimed_push, gone_concat_push, (shards_perform _ _).1]
      exact ih
    | evictIdle now idleThreshold =>
      rw [runTimed_concat, gone_concat_evictIdle]
      have hnum : ((started n size created).runTimed calls).numShards = n :=
        (config_runTimed (started n size created) calls).1
      show (_ ∧ Option.filter _ _ = none) ∨ (_ ∧ Option.filter _ _ = _)
      rcases ih with ⟨hgone, hnone⟩ | ⟨hkept, hsome⟩
      · rw [hnone]
        exact .inl ⟨.inl hgone, rfl⟩
      · rw [hsome, Option.filter_some]
        by_cases hold : idleThreshold ≤ now - created id
        · refine .inl ⟨.inr hold, if_neg fun hkeep => ?_⟩
          rcases of_decide_eq_true hkeep with hdead | hspread | hyoung
          · exact absurd hdead (Nat.ne_of_gt hid)
          · exact absurd (hspread.trans hnum) (Nat.ne_of_lt hidn)
          · exact absurd hyoung (Nat.not_lt_of_le hold)
        · refine .inr ⟨fun h => h.elim hkept hold, if_pos ?_⟩
          rw [decide_eq_true_iff]
          exact .inr (.inr (Nat.lt_of_not_le hold))

theorem bounded_runTimed (calls : List Timed) : ((started n size created).runTimed calls).Bounded := by
  have hstarted : (started n size created).Bounded := by
    intro id hsome
    refine bounded_new n size 0 id ?_
    rw [started, Option.isSome_map] at hsome
    exact hsome
  exact hstarted.after (calls.map Timed.op)

/-- What `evict_idle` removes in a run: the regular shards of that age that are still there. -/
theorem removes_iff {before : List Timed} {now idleThreshold id : Nat} :
    ((started n size created).runTimed before).Removes now idleThreshold id ↔
      1 ≤ id ∧ id < n ∧ ¬ Gone created before id ∧ idleThreshold ≤ now - created id := by
  have hnum : ((started n size created).runTimed before).numShards = n :=
    (config_runTimed (started n size created) before).1
  have hevict : (started n size created).runTimed (before ++ [.evictIdle now idleThreshold]) =
      ((started n size created).runTimed before).evictIdle now idleThreshold := runTimed_concat ..
  rw [Removes, ← hevict]
  constructor
  · rintro ⟨hregular, hsome, hnone⟩
    have hle := bounded_runTimed before id hsome
    obtain ⟨hid, hidn⟩ := Finset.mem_Ico.mp ((isRegularShard_iff hle).mp hregular)
    rw [hnum] at hidn
    rcases shards_runTimed size created hid hidn before with
      ⟨-, habsent⟩ | ⟨hkept, -⟩
    · rw [habsent] at hsome
      cases hsome
    rcases shards_runTimed size created hid hidn
      (before ++ [.evictIdle now idleThreshold]) with ⟨hgone, -⟩ | ⟨-, hthere⟩
    · exact ⟨hid, hidn, hkept, (gone_concat_evictIdle.mp hgone).resolve_left hkept⟩
    · rw [hthere] at hnone
      cases hnone
  · rintro ⟨hid, hidn, hkept, hold⟩
    rcases shards_runTimed size created hid hidn before with
      ⟨hgone, -⟩ | ⟨-, hthere⟩
    · exact absurd hgone hkept
    rcases shards_runTimed size created hid hidn
      (before ++ [.evictIdle now idleThreshold]) with ⟨-, hnone⟩ | ⟨hkept', -⟩
    · refine ⟨?_, ?_, hnone⟩
      · rw [isRegularShard_iff (by omega), Finset.mem_Ico, hnum]
        exact ⟨hid, hidn⟩
      · rw [hthere]
        rfl
    · exact absurd (gone_concat_evictIdle.mpr (.inr hold)) hkept'

/-! ## The round robin among the evictions -/

/-- `a` messages are dealt out to the regular ones of `n` shards. -/
structure Fed (n a : Nat) (m : Manager) : Prop where
  total : m.totalRegularMessages = a
  turn : m.roundRobin = a
  connected : ∀ id, m.closed id = false
  below : a ≤ m.backpressureLimit
  load : ∀ id, 1 ≤ id → id < n → (m.channel id).length = RoundRobin.share (n - 1) a id

/-- With wrapping the limit only gets smaller. -/
theorem backpressureLimit_le {m : Manager} (hn : m.numShards ≠ 0) (hN : m.numShards < 2 ^ 64) :
    m.backpressureLimit ≤ (m.numShards - 1) * m.shardSize * 8 / 10 := by
  rw [backpressureLimit, regularCount_eq hN, if_neg hn]
  refine Nat.div_le_div_right (Nat.le_trans (Nat.mod_le _ _) ?_)
  exact Nat.mul_le_mul_right 8 (Nat.mod_le _ _)

/-- The next push, if the shards up to it are there. -/
theorem Fed.push {m : Manager} {a : Nat} (h : Fed n a m) (hn : n ≠ 0) (hN : n < 2 ^ 64)
    (hnum : m.numShards = n)
    (hthere : ∀ id, 1 ≤ id → id < n → id ≤ a + 1 → id ≤ m.backpressureLimit →
      ∃ shard, m.shards id = some shard ∧ shard.maxSize = m.shardSize) (msg : Message) :
    (a = m.backpressureLimit ∧ ∃ m', m.push msg = (.err .backpressure, m') ∧ Fed n a m') ∨
    (a < m.backpressureLimit ∧
      ∃ id ≤ a + 1, ∃ m', m.push msg = (.ok id, m') ∧ Fed n (a + 1) m') := by
  rcases Nat.eq_or_lt_of_le h.below with heq | hlt
  · refine .inl ⟨heq, _, if_pos ?_, h.total, h.turn, h.connected, h.below, h.load⟩
    rw [h.total]
    exact Nat.le_of_eq heq.symm
  · have hcount : m.regularCount = n - 1 := by
      rw [regularCount_eq (hnum ▸ hN), hnum, if_neg hn]
    have hr : n - 1 ≠ 0 := hcount ▸ regularCount_ne_zero (h.total ▸ hlt)
    have hmod : a % (n - 1) < n - 1 := Nat.mod_lt _ (Nat.pos_of_ne_zero hr)
    have hle : a % (n - 1) ≤ a := Nat.mod_le _ _
    obtain ⟨shard, hshard, hmax⟩ :=
      hthere (1 + a % (n - 1)) (by omega) (by omega) (by omega) (by omega)
    have hlimit := backpressureLimit_le (hnum ▸ hn) (hnum ▸ hN)
    rw [hnum] at hlimit
    have hroom : m.hasRoom (1 + a % (n - 1)) shard = true := by
      rw [hasRoom, decide_eq_true_iff, h.load _ (by omega) (by omega), RoundRobin.share_next, hmax]
      exact ⟨h.connected _, share_lt_size (Nat.lt_of_lt_of_le hlt hlimit)⟩
    refine .inr ⟨hlt, _, by omega, _, (push_turn hcount h.turn h.total hlt msg).2 shard hshard hroom,
      rfl, rfl, h.connected, hlt, fun id hid hidn => ?_⟩
    rw [RoundRobin.share_succ hid (by omega), ← h.load id hid hidn]
    show (Function.update m.channel _ _ id).length = _
    by_cases hturn : id = 1 + a % (n - 1)
    · subst hturn
      rw [Function.update_self, List.length_append, if_pos rfl]
      rfl
    · rw [Function.update_of_ne hturn, if_neg hturn, Nat.add_zero]

/-- The messages dealt out by a run that finds all its shards. -/
def dealt (n size : Nat) (created : Nat → Nat) (calls : List Timed) : Nat :=
  min (Timed.pushCount calls) (started n size created).backpressureLimit

theorem min_succ_of_eq {p l : Nat} (h : min p l = l) : min (p + 1) l = min p l := by
  omega

theorem min_succ_of_lt {p l : Nat} (h : min p l < l) : min (p + 1) l = min p l + 1 := by
  omega

/-- None of the shards up to the `k`th turn is gone. -/
def Kept (n size : Nat) (created : Nat → Nat) (calls : List Timed) (k : Nat) : Prop :=
  ∀ id, 1 ≤ id → id < n → id ≤ k → id ≤ (started n size created).backpressureLimit →
    ¬ Gone created calls id

/-- One more push of the run. -/
theorem fed_concat_push {before : List Timed} (hn : n ≠ 0) (hN : n < 2 ^ 64)
    (hfed : Fed n (dealt n size created before) ((started n size created).runTimed before))
    (hkept : Kept n size created before (Timed.pushCount before + 1)) (now : Nat) (msg : Message) :
    Fed n (dealt n size created (before ++ [.push now msg]))
        ((started n size created).runTimed (before ++ [.push now msg])) ∧
      ((((started n size created).runTimed before).push msg).1 = .err .backpressure ∨
        ∃ id ≤ dealt n size created (before ++ [.push now msg]),
          (((started n size created).runTimed before).push msg).1 = .ok id) := by
  obtain ⟨hnum, hsize⟩ := config_runTimed (started n size created) before
  have hlimit := limit_runTimed (started n size created) before
  have hthere : ∀ id, 1 ≤ id → id < n → id ≤ dealt n size created before + 1 →
      id ≤ ((started n size created).runTimed before).backpressureLimit →
      ∃ shard, ((started n size created).runTimed before).shards id = some shard ∧
        shard.maxSize = ((started n size created).runTimed before).shardSize := by
    intro id hid hidn hturn hle
    rw [hlimit] at hle
    have hcount := Nat.min_le_left (Timed.pushCount before) (started n size created).backpressureLimit
    rcases shards_runTimed size created hid hidn before with ⟨hgone, -⟩ | ⟨-, hsome⟩
    · exact absurd hgone (hkept id hid hidn (Nat.le_trans hturn (Nat.succ_le_succ hcount)) hle)
    · exact ⟨_, hsome, hsize.symm⟩
  rw [runTimed_push, perform, dealt, Timed.pushCount_concat_push]
  rcases hfed.push hn hN hnum hthere msg with ⟨heq, m', hpush, hfed'⟩ | ⟨hlt, id, hid, m', hpush, hfed'⟩
  · rw [hlimit] at heq
    rw [hpush, min_succ_of_eq heq]
    exact ⟨hfed', .inl rfl⟩
  · rw [hlimit] at hlt
    rw [hpush, min_succ_of_lt hlt]
    exact ⟨hfed', .inr ⟨id, hid, rfl⟩⟩

/-- **The round robin.**  A run whose pushes find all their shards deals its messages out in turn. -/
theorem fed_runTimed (hn : n ≠ 0) (hN : n < 2 ^ 64) (calls : List Timed)
    (hkept : Kept n size created calls (Timed.pushCount calls)) :
    Fed n (dealt n size created calls) ((started n size created).runTimed calls) := by
  induction calls using List.reverseRecOn with
  | nil =>
    have hzero : dealt n size created [] = 0 := Nat.zero_min _
    rw [hzero]
    exact ⟨rfl, rfl, fun _ => rfl, Nat.zero_le _, fun id hid _ => (RoundRobin.share_zero hid).symm⟩
  | append_singleton calls c ih =>
    cases c with
    | push now msg =>
      rw [Timed.pushCount_concat_push] at hkept
      have hkept' : Kept n size created calls (Timed.pushCount calls + 1) :=
        fun id hid hidn hle hlimit hgone =>
          hkept id hid hidn hle hlimit (gone_concat_push.mpr hgone)
      have hfed := ih fun id hid hidn hle => hkept' id hid hidn (Nat.le_succ_of_le hle)
      exact (fed_concat_push hn hN hfed hkept' now msg).1
    | evictIdle now idleThreshold =>
      rw [Timed.pushCount_concat_evictIdle] at hkept
      have hfed := ih fun id hid hidn hle hlimit hgone =>
        hkept id hid hidn hle hlimit (gone_concat_evictIdle.mpr (.inl hgone))
      have hsame : dealt n size created (calls ++ [.evictIdle now idleThreshold]) =
          dealt n size created calls := by
        rw [dealt, Timed.pushCount_concat_evictIdle, dealt]
      have hbelow := hfed.below
      rw [limit_runTimed, ← limit_runTimed _ (calls ++ [.evictIdle now idleThreshold])] at hbelow
      rw [hsame]
      rw [runTimed_concat] at hbelow ⊢
      exact ⟨hfed.total, hfed.turn, hfed.connected, hbelow, hfed.load⟩

/-! ## What is spared -/

theorem Kept.mono {before calls : List Timed} {j k : Nat} (h : Kept n size created calls k)
    (hbefore : before <+: calls) (hjk : j ≤ k) : Kept n size created before j := by
  rintro id hid hidn hle hlimit ⟨now, idleThreshold, hmem, hold⟩
  exact h id hid hidn (Nat.le_trans hle hjk) hlimit ⟨now, idleThreshold, hbefore.subset hmem, hold⟩

theorem outlives_iff_kept (hn : n ≠ 0) {calls : List Timed} :
    Outlives n size created calls ↔ Kept n size created calls (Timed.pushCount calls) := by
  rw [Outlives, if_neg hn]
  constructor
  · rintro h id hid hidn hle hlimit ⟨now, idleThreshold, hmem, hold⟩
    exact absurd (h now idleThreshold hmem id hid hidn hle hlimit) (Nat.not_lt_of_le hold)
  · intro h now idleThreshold hmem id hid hidn hle hlimit
    by_contra hyoung
    exact h id hid hidn hle hlimit ⟨now, idleThreshold, hmem, Nat.le_of_not_lt hyoung⟩

theorem dealt_mono {before calls : List Timed} (h : before <+: calls) :
    dealt n size created before ≤ dealt n size created calls :=
  min_le_min_right _ (Timed.pushCount_mono h)

/-- A shard is empty until its turn comes. -/
theorem Fed.channel_ne_nil_iff {m : Manager} {a id : Nat} (h : Fed n a m) (hid : 1 ≤ id)
    (hidn : id < n) : m.channel id ≠ [] ↔ id ≤ a := by
  rw [← List.length_pos_iff, h.load id hid hidn, RoundRobin.share_pos_iff hid (by omega)]

/-- The turn of a shard that is gone: `push` finds nothing. -/
theorem push_missing (hn : n ≠ 0) (hN : n < 2 ^ 64) {calls : List Timed} {id : Nat}
    (hfed : Fed n (dealt n size created calls) ((started n size created).runTimed calls))
    (hidn : id < n) (hturn : id = Timed.pushCount calls + 1)
    (hlimit : id ≤ (started n size created).backpressureLimit) (hgone : Gone created calls id)
    (msg : Message) : (((started n size created).runTimed calls).push msg).1 = .err .notFound := by
  subst hturn
  have hdealt : dealt n size created calls = Timed.pushCount calls :=
    Nat.min_eq_left (Nat.le_of_succ_le hlimit)
  rw [hdealt] at hfed
  obtain ⟨hnum, -⟩ := config_runTimed (started n size created) calls
  have hcount : ((started n size created).runTimed calls).regularCount = n - 1 := by
    rw [regularCount_eq (hnum ▸ hN), hnum]
    exact if_neg hn
  have hlt : Timed.pushCount calls < ((started n size created).runTimed calls).backpressureLimit := by
    rw [limit_runTimed]
    exact hlimit
  have hmissing := (push_turn hcount hfed.turn hfed.total hlt msg).1
  rw [Nat.mod_eq_of_lt (Nat.lt_sub_of_add_lt hidn), Nat.add_comm] at hmissing
  rcases shards_runTimed size created (Nat.le_add_left 1 _) hidn calls with ⟨-, hnone⟩ | ⟨hthere, -⟩
  · exact hmissing hnone
  · exact absurd hgone hthere

/-- Without its shards the run is not spared: a shard whose turn has come holds a message when it goes, and
    one whose turn is still to come is not found. -/
theorem Spares.kept (hn : n ≠ 0) (hN : n < 2 ^ 64) {calls : List Timed}
    (h : (started n size created).Spares calls) :
    Kept n size created calls (Timed.pushCount calls) := by
  induction calls using List.reverseRecOn with
  | nil =>
    rintro id - - - - ⟨_, _, hmem, -⟩
    exact absurd hmem List.not_mem_nil
  | append_singleton calls c ih =>
    have hkept := ih (h.mono (List.prefix_append _ _))
    have hfed := fed_runTimed hn hN calls hkept
    intro id hid hidn hle hlimit hgone
    cases c with
    | push now msg =>
      rw [Timed.pushCount_concat_push] at hle
      rw [gone_concat_push] at hgone
      rcases Nat.lt_or_eq_of_le hle with hearlier | hlast
      · exact hkept id hid hidn (Nat.le_of_lt_succ hearlier) hlimit hgone
      · have hmissing := push_missing hn hN hfed hidn hlast hlimit hgone msg
        obtain ⟨_, _, hmem, -⟩ := hgone
        exact h.found calls now msg (List.prefix_refl _) ⟨_, hmem, rfl⟩ hmissing
    | evictIdle now idleThreshold =>
      rw [Timed.pushCount_concat_evictIdle] at hle
      have hthere : ¬ Gone created calls id := hkept id hid hidn hle hlimit
      have hold := (gone_concat_evictIdle.mp hgone).resolve_left hthere
      have hempty := h.undelivered calls now idleThreshold (List.prefix_refl _) id
        (removes_iff.mpr ⟨hid, hidn, hthere, hold⟩)
      exact (hfed.channel_ne_nil_iff hid hidn).mpr (Nat.le_min.mpr ⟨hle, hlimit⟩) hempty

section Kept

variable {calls before : List Timed}

theorem Kept.fed (hn : n ≠ 0) (hN : n < 2 ^ 64) (h : Kept n size created calls (Timed.pushCount calls))
    (hbefore : before <+: calls) :
    Fed n (dealt n size created before) ((started n size created).runTimed before) :=
  fed_runTimed hn hN before (h.mono hbefore (Timed.pushCount_mono hbefore))

/-- A push of the run deals its message to a shard whose turn comes, or is refused at the gate. -/
theorem Kept.push_outcome (hn : n ≠ 0) (hN : n < 2 ^ 64)
    (h : Kept n size created calls (Timed.pushCount calls)) {now : Nat} {msg : Message}
    (hpush : before ++ [.push now msg] <+: calls) :
    (((started n size created).runTimed before).push msg).1 = .err .backpressure ∨
      ∃ id ≤ dealt n size created calls,
        (((started n size created).runTimed before).push msg).1 = .ok id := by
  have hbefore := (List.prefix_append before _).trans hpush
  have hcount := Timed.pushCount_mono hpush
  rw [Timed.pushCount_concat_push] at hcount
  rcases (fed_concat_push hn hN (h.fed hn hN hbefore) (h.mono hbefore hcount) now msg).2 with
    hrefused | ⟨id, hid, hok⟩
  · exact .inl hrefused
  · exact .inr ⟨id, Nat.le_trans hid (dealt_mono hpush), hok⟩

/-- No shard that is removed has its turn in the run. -/
theorem Kept.turn_of_removes (h : Kept n size created calls (Timed.pushCount calls))
    {now idleThreshold id : Nat} (hevict : before ++ [.evictIdle now idleThreshold] <+: calls)
    (hremoves : ((started n size created).runTimed before).Removes now idleThreshold id) :
    ¬ id ≤ dealt n size created calls := by
  intro hle
  obtain ⟨hid, hidn, -, hold⟩ := removes_iff.mp hremoves
  obtain ⟨hcount, hlimit⟩ := Nat.le_min.mp hle
  exact h.mono hevict (Nat.le_refl _) id hid hidn hcount hlimit (gone_concat_evictIdle.mpr (.inr hold))

/-- With its shards, it is. -/
theorem Kept.spares (hn : n ≠ 0) (hN : n < 2 ^ 64)
    (h : Kept n size created calls (Timed.pushCount calls)) :
    (started n size created).Spares calls := by
  refine ⟨?_, ?_, ?_⟩
  · rintro before now idleThreshold hevict id hremoves time ⟨earlier, msg, hearlier, hok⟩
    have hbefore := (List.prefix_append before _).trans hevict
    rcases h.push_outcome hn hN (hearlier.trans hbefore) with hrefused | ⟨id', hid', hok'⟩
    · rw [hok] at hrefused
      cases hrefused
    · rw [hok] at hok'
      cases hok'
      exact absurd hid' (h.turn_of_removes hevict hremoves)
  · intro before now idleThreshold hevict id hremoves
    have hbefore := (List.prefix_append before _).trans hevict
    obtain ⟨hid, hidn, -, -⟩ := removes_iff.mp hremoves
    by_contra hholds
    have hturn := ((h.fed hn hN hbefore).channel_ne_nil_iff hid hidn).mp hholds
    exact h.turn_of_removes hevict hremoves (Nat.le_trans hturn (dealt_mono hbefore))
  · intro before now msg hpush _ hmissing
    rcases h.push_outcome hn hN hpush with hrefused | ⟨id, -, hok⟩
    · rw [hmissing] at hrefused
      cases hrefused
    · rw [hmissing] at hok
      cases hok

end Kept

/-! Without shards `num_shards - 1` wraps: the gate may be open, but there is no shard behind it. -/

theorem perform_without_shards (calls : List Timed) (msg : Message)
    (htotal : ((started 0 size created).runTimed calls).totalRegularMessages = 0) :
    (((started 0 size created).runTimed calls).perform (.regular msg)).2.totalRegularMessages = 0 ∧
      ((((started 0 size created).runTimed calls).perform (.regular msg)).1 = .err .notFound ↔
        (started 0 size created).backpressureLimit ≠ 0) := by
  rw [← limit_runTimed (started 0 size created) calls]
  by_cases hgate : ((started 0 size created).runTimed calls).GateOpen (.regular msg)
  · have hlimit := Nat.ne_of_gt (Nat.lt_of_le_of_lt (Nat.zero_le _) hgate)
    have habsent : ((started 0 size created).runTimed calls).shards
        (((started 0 size created).runTimed calls).target (.regular msg)) = none := by
      by_contra hsome
      have hle := bounded_runTimed calls _ (Option.isSome_iff_ne_none.mpr hsome)
      rw [(config_runTimed (started 0 size created) calls).1, target] at hle
      exact absurd hle (Nat.not_le_of_lt (Nat.lt_of_lt_of_le Nat.zero_lt_one (Nat.le_add_right _ _)))
    rcases perform_cases hgate with ⟨-, hrun⟩ | ⟨_, hsome, -⟩ | ⟨_, hsome, -⟩
    · rw [hrun]
      exact ⟨htotal, iff_of_true rfl hlimit⟩
    · rw [habsent] at hsome
      cases hsome
    · rw [habsent] at hsome
      cases hsome
  · obtain ⟨-, hge, hrun⟩ := perform_refused hgate
    rw [htotal] at hge
    rw [hrun]
    refine ⟨htotal, iff_of_false (fun hmissing => ?_) (not_not.mpr (Nat.le_zero.mp hge))⟩
    cases hmissing

variable (size created) in
theorem total_without_shards (calls : List Timed) :
    ((started 0 size created).runTimed calls).totalRegularMessages = 0 := by
  induction calls using List.reverseRecOn with
  | nil => rfl
  | append_singleton calls c ih =>
    cases c with
    | push now msg =>
      rw [runTimed_push]
      exact (perform_without_shards calls msg ih).1
    | evictIdle =>
      rw [runTimed_concat]
      exact ih

theorem spares_without_shards {calls : List Timed} :
    (started 0 size created).Spares calls ↔ Outlives 0 size created calls := by
  have hpush : ∀ before msg, (((started 0 size created).runTimed before).push msg).1 = .err .notFound ↔
      (started 0 size created).backpressureLimit ≠ 0 := by
    intro before msg
    have hperform := (perform_without_shards before msg (total_without_shards size created before)).2
    rw [perform] at hperform
    exact hperform
  rw [Outlives, if_pos rfl]
  constructor
  · intro h
    refine or_iff_not_imp_left.mpr fun hlimit before now msg hprefix c hc => ?_
    by_contra hevict
    exact h.found before now msg hprefix ⟨c, hc, Bool.eq_false_iff.mpr hevict⟩
      ((hpush before msg).mpr hlimit)
  · intro h
    refine ⟨?_, ?_, ?_⟩
    · intro before now idleThreshold _ id hremoves
      exact absurd (removes_iff.mp hremoves).2.1 (Nat.not_lt_zero id)
    · intro before now idleThreshold _ id hremoves
      exact absurd (removes_iff.mp hremoves).2.1 (Nat.not_lt_zero id)
    · rintro before now msg hprefix ⟨c, hc, hevict⟩ hmissing
      rcases h with hlimit | hlast
      · exact (hpush before msg).mp hmissing hlimit
      · rw [hlast before now msg hprefix c hc] at hevict
        cases hevict

end Run

/-- **Eviction by age.**  In a run of `push` and `evict_idle` calls, whatever the clock, no regular shard is
    removed that accepted a message less than the threshold ago or that holds one, and no push after an
    `evict_idle` finds its shard gone, exactly if every regular shard whose turn comes in the run was made
    less than the threshold before each `evict_idle`. -/
theorem spares_iff {numShards : Nat} (hN : numShards < 2 ^ 64) (shardSize : Nat) (created : Nat → Nat)
    (calls : List Timed) :
    (started numShards shardSize created).Spares calls ↔
      Outlives numShards shardSize created calls := by
  by_cases hn : numShards = 0
  · subst hn
    exact spares_without_shards
  · rw [outlives_iff_kept hn]
    exact ⟨fun h => h.kept hn hN, fun h => h.spares hn hN⟩

theorem spares_iff_three :
    (started 3 10 fun _ => 0).Spares
      [.push 5 (.new .nidd [1] .operational 0), .evictIdle 6 60,
        .push 7 (.new .nidd [1] .operational 0)] := by
  refine (spares_iff (by decide) 10 _ _).mpr ?_
  rw [Outlives, if_neg (by decide)]
  intro now idleThreshold hmem id _ _ _ _
  simp only [List.mem_cons, reduceCtorEq, Timed.evictIdle.injEq, List.not_mem_nil, or_false,
    false_or] at hmem
  omega

/-- **A busy shard is removed.**  Three shards made at 0: the first regular one takes a message at 100 and
    is removed at 101 as 60 s idle, with the message in it; the push that comes round to the second finds
    nothing. -/
theorem busy_shard_removed :
    let msg : Message := .new .nidd [1] .operational 0
    let m := started 3 10 fun _ => 0
    let calls := [.push 100 msg, .evictIdle 101 60, .push 102 msg]
    (m.push msg).1 = .ok 1 ∧ ((m.runTimed (calls.take 1)).channel 1).length = 1 ∧
      ((m.runTimed (calls.take 2)).shards 1) = none ∧
      ((m.runTimed (calls.take 2)).push msg).1 = .err .notFound ∧ ¬ m.Spares calls := by
  intro msg m calls
  refine ⟨by decide, by decide, by decide, by decide, fun h => ?_⟩
  exact absurd (by decide) (h.found (calls.take 2) 102 msg (List.prefix_refl _)
    ⟨.evictIdle 101 60, by simp [calls], rfl⟩)

end Manager

end Sharding

end FloatProtocols
