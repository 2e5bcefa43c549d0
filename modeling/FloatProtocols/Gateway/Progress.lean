/-
  Tasks get on.

  Each section brings a task nearer to its end, and no other task touches what it has in hand.  How many
  sections it has left, its `rank` says: 6 for an emergency, 606 at most for a batch of ten messages, 66
  for a worker's batch.  Only a drain of the spread shard may get more to do while it is under way: it
  receives as long as it finds anything, pushed in the meantime or not, and each message costs it three
  sections.

  What a section waits for: a worker for the first message of a batch, with nothing in hand then.  That
  an enqueue waits for room is the business of `Gateway.Pipeline`, which has the bounded channel.
-/
import Mathlib.Algebra.Order.BigOperators.Group.List
import FloatProtocols.Gateway.Conservation

namespace FloatProtocols

open Wire

namespace Gateway

open Translator Sharding

variable {n : Nat} {libs : Libs}

/-- How many sections a task has left, at most, with `waiting` messages in the spread shard. -/
def rank (waiting : Nat) : Task → Nat
  | .idle => 0
  | .emergency (.reconcile _) => 6
  | .emergency (.store _) => 5
  | .emergency (.push _) => 4
  | .emergency (.snapshot _) => 3
  | .emergency (.translate _) => 2
  | .emergency (.emit _) => 1
  -- the cadence rules make up to 60 messages of one
  | .incoming (.reconcile batch) => 60 * batch.length + 6
  | .incoming (.store reconciled) => 60 * reconciled.length + 5
  | .incoming (.partition reconciled) => 60 * reconciled.length + 4
  | .incoming (.pushSpread spread normal) => spread.length + normal.length + 3
  | .incoming (.lookup normal) => normal.length + 2
  | .incoming (.route routed) => routed.length + 1
  -- a message costs a receive, a translation and an enqueue
  | .translated (.gather _ batch) => 2 * max 20 batch.length + (20 - batch.length) + 6
  | .translated (.collect messages) => 3 * waiting + 2 * messages.length + 6
  | .translated (.translate todo pairs _) => 2 * todo.length + pairs.length + 5
  | .translated (.cacheAll pairs _) => pairs.length + 4
  | .translated (.snapshotAll pairs _) => pairs.length + 3
  | .translated (.enqueue translated _) => translated.length + 1

/-- A drain that is still receiving. -/
def collects : Task → Bool
  | .translated (.collect _) => true
  | _ => false

/-- Only such a drain has an eye on the spread shard. -/
theorem rank_congr {task : Task} (h : collects task = false) (w w' : Nat) : rank w task = rank w' task := by
  match task with
  | .translated (.collect _) => cases h
  | .idle => rfl
  | .emergency pc => cases pc <;> rfl
  | .incoming pc => cases pc <;> rfl
  | .translated (.gather _ _) | .translated (.translate _ _ _) | .translated (.cacheAll _ _)
  | .translated (.snapshotAll _ _) | .translated (.enqueue _ _) => rfl

/-- The messages in the spread shard. -/
def spreadLoad (g : Gateway) : Nat := (g.shardManager.channel 8).length

/-- It has more to do for each message that comes. -/
theorem rank_le_add {w w' c : Nat} (h : w' ≤ w + c) (task : Task) :
    rank w' task ≤ rank w task + 3 * if collects task then c else 0 := by
  cases hcollects : collects task with
  | false =>
    rw [rank_congr hcollects w' w]
    exact Nat.le_add_right _ _
  | true =>
    unfold collects at hcollects
    split at hcollects
    · rw [rank, rank, if_pos rfl]
      omega
    · cases hcollects

/-- A task that has something in hand. -/
def Engaged : Task → Prop
  | .idle => False
  | .translated (.gather _ batch) => batch ≠ []
  | _ => True

/-- The section is possible, and the task is nearer to its end. -/
def Advances (libs : Libs) (env : Env) (g : Gateway) (task : Task) : Prop :=
  ∃ task' g', advance libs env g task = some (task', g') ∧
    rank g'.spreadLoad task' < rank g.spreadLoad task ∧ (task' = .idle ∨ Engaged task')

theorem translateSync_returns (hhex : InmarsatC.HexInverts libs.hexDecode) (now : UInt64)
    (msg : Message) :
    (∃ t, translateSync libs now msg = .ok t) ∨ ∃ e, translateSync libs now msg = .err e := by
  have hpanic : translateSync libs now msg ≠ .panic := by
    rw [translateSync]
    exact Exec.bind_ne_panic.mpr ⟨translateData_ne_panic hhex _ _, fun _ _ => by simp⟩
  cases hresult : translateSync libs now msg with
  | ok t => exact .inl ⟨t, rfl⟩
  | err e => exact .inr ⟨e, rfl⟩
  | panic => exact absurd hresult hpanic

/-- The loop over a batch makes up to 60 messages of one. -/
theorem length_partition_le {g : Gateway} (hg : g.Configured) (instant : Nat → Nat)
    (reconciled : List Message) :
    (g.partition instant reconciled).spread.length + (g.partition instant reconciled).normal.length ≤
      60 * reconciled.length := by
  have hperm := (partition_perm g instant reconciled).length_eq
  have hfst := congrArg List.length (map_fst_shares instant reconciled 0 g.ewmaState g.cadenceTranslator)
  have hcopied := shares_copied instant reconciled 0 g.ewmaState
  rw [hg.cadenceTranslator] at hperm hfst
  rw [List.length_append, List.length_flatMap] at hperm
  rw [List.length_map] at hfst
  rw [hperm, ← hfst]
  have hsum := List.sum_le_card_nsmul
    ((shares instant 0 g.ewmaState defaultCadence reconciled).map fun x => x.2.length) 60 ?_
  · rw [List.length_map, Nat.nsmul_eq_mul, Nat.mul_comm] at hsum
    exact hsum
  · intro k hk
    obtain ⟨x, hx, rfl⟩ := List.mem_map.mp hk
    rcases (hcopied x hx).2 with h | ⟨h, -⟩ <;> omega

section

variable (hhex : InmarsatC.HexInverts libs.hexDecode) (env : Env) {g : Gateway}
include hhex

theorem processEmergency_advances (pc : Emergency) : Advances libs env g (.emergency pc) := by
  cases pc with
  | translate msg =>
    rcases translateSync_returns hhex (env.nowMs 0) msg with ⟨t, ht⟩ | ⟨e, he⟩
    · rw [Advances, advance, processEmergency, ht]
      exact ⟨_, _, rfl, Nat.lt_succ_self 1, .inr trivial⟩
    · rw [Advances, advance, processEmergency, he]
      exact ⟨_, _, rfl, Nat.zero_lt_succ 1, .inl rfl⟩
  | emit translated => exact ⟨_, _, rfl, Nat.zero_lt_succ 0, .inl rfl⟩
  | _ => exact ⟨_, _, rfl, Nat.lt_succ_self _, .inr trivial⟩

omit hhex in
theorem processIncomingBatch_advances (hg : g.Configured) (pc : Incoming) :
    Advances libs env g (.incoming pc) := by
  cases pc with
  | reconcile batch =>
    refine ⟨_, _, rfl, ?_, .inr trivial⟩
    rw [rank, rank, List.length_mapIdx]
    exact Nat.lt_succ_self _
  | store reconciled => exact ⟨_, _, rfl, Nat.lt_succ_self _, .inr trivial⟩
  | partition reconciled =>
    have hlength := length_partition_le hg env.instant reconciled
    refine ⟨_, _, rfl, ?_, .inr trivial⟩
    rw [rank, rank]
    omega
  | pushSpread spread normal =>
    cases spread with
    | nil =>
      refine ⟨_, _, rfl, ?_, ?_⟩
      · split <;> simp only [rank, List.length_nil] <;> omega
      · split
        · exact .inl rfl
        · exact .inr trivial
    | cons msg spread =>
      refine ⟨_, _, rfl, ?_, .inr trivial⟩
      rw [rank, rank, List.length_cons]
      omega
  | lookup normal =>
    refine ⟨_, _, rfl, ?_, .inr trivial⟩
    rw [rank, rank, List.length_zip]
    omega
  | route routed =>
    rcases routed with _ | ⟨⟨msg, _ | translated⟩, routed⟩
    · exact ⟨_, _, rfl, Nat.zero_lt_succ 0, .inl rfl⟩
    · rw [Advances, advance, processIncomingBatch]
      rcases g.shardManager.push_cases msg with ⟨e, m', he⟩ | ⟨id, m', hid, -⟩
      · rw [he, afterPush]
        exact ⟨_, _, rfl, Nat.lt_succ_self _, .inr trivial⟩
      · rw [hid, afterPush]
        exact ⟨_, _, rfl, Nat.lt_succ_self _, .inr trivial⟩
    · exact ⟨_, _, rfl, Nat.lt_succ_self _, .inr trivial⟩

omit hhex in
theorem gather_advances (id : Nat) (batch : List Message)
    (h : batch ≠ [] ∨ g.shardManager.channel id ≠ []) :
    Advances libs env g (.translated (.gather id batch)) := by
  rw [Advances, advance, processTranslatedBatch, gather]
  by_cases hroom : batch.length < 20
  · rw [if_pos hroom]
    cases hq : g.shardManager.channel id with
    | nil =>
      have hbatch : batch ≠ [] := h.resolve_right fun hne => hne hq
      rw [if_neg hbatch]
      refine ⟨_, _, rfl, ?_, .inr trivial⟩
      rw [rank, rank, List.length_nil]
      omega
    | cons msg rest =>
      refine ⟨_, _, rfl, ?_, .inr ?_⟩
      · rw [rank, rank, List.length_append, List.length_singleton]
        omega
      · exact List.append_ne_nil_of_right_ne_nil _ (List.cons_ne_nil _ _)
  · rw [if_neg hroom]
    refine ⟨_, _, rfl, ?_, .inr trivial⟩
    rw [rank, rank, List.length_nil]
    omega

omit hhex in
/-- A receive of the drain: one message less in the shard, one more in hand. -/
theorem collect_advances (hg : g.Configured) (messages : List Message) :
    Advances libs env g (.translated (.collect messages)) := by
  rw [Advances, advance, processTranslatedBatch, collect, hg.spreadShardId]
  cases hq : g.shardManager.channel 8 with
  | nil =>
    refine ⟨_, _, rfl, ?_, ?_⟩
    · split <;> simp only [rank, List.length_nil] <;> omega
    · split
      · exact .inl rfl
      · exact .inr trivial
  | cons msg rest =>
    refine ⟨_, _, rfl, ?_, .inr trivial⟩
    have hbefore : g.spreadLoad = rest.length + 1 := congrArg List.length hq
    have hafter : (Function.update g.shardManager.channel 8 rest 8).length = rest.length := by
      rw [Function.update_self]
    rw [rank, rank, List.length_append, List.length_singleton, hbefore]
    simp only [spreadLoad, hafter]
    omega

theorem processTranslatedBatch_advances (hg : g.Configured) {pc : Translated}
    (h : ∀ id, pc = .gather id [] → g.shardManager.channel id ≠ []) :
    Advances libs env g (.translated pc) := by
  cases pc with
  | gather id batch =>
    refine gather_advances env id batch ?_
    rcases eq_or_ne batch [] with rfl | hne
    · exact .inr (h id rfl)
    · exact .inl hne
  | collect messages => exact collect_advances env hg messages
  | translate todo pairs drain =>
    cases todo with
    | nil =>
      refine ⟨_, _, rfl, ?_, ?_⟩
      · split <;> simp only [rank, List.length_nil] <;> omega
      · split
        · exact .inl rfl
        · exact .inr trivial
    | cons msg todo =>
      rcases translateSync_returns hhex (env.nowMs 0) msg with ⟨t, ht⟩ | ⟨e, he⟩
      · rw [Advances, advance, processTranslatedBatch, ht]
        refine ⟨_, _, rfl, ?_, .inr trivial⟩
        rw [rank, rank, List.length_append, List.length_singleton, List.length_cons]
        omega
      · rw [Advances, advance, processTranslatedBatch, he]
        refine ⟨_, _, rfl, ?_, .inr trivial⟩
        rw [rank, rank, List.length_cons]
        omega
  | cacheAll pairs drain => exact ⟨_, _, rfl, Nat.lt_succ_self _, .inr trivial⟩
  | snapshotAll pairs drain =>
    refine ⟨_, _, rfl, ?_, .inr trivial⟩
    rw [rank, rank, List.length_map]
    omega
  | enqueue translated drain =>
    cases translated with
    | nil => exact ⟨_, _, rfl, Nat.zero_lt_succ 0, .inl rfl⟩
    | cons translated rest =>
      rw [Advances, advance, processTranslatedBatch]
      split
      · exact ⟨_, _, rfl, Nat.lt_succ_self _, .inr trivial⟩
      · exact ⟨_, _, rfl, Nat.lt_succ_self _, .inr trivial⟩

/-- No section panics, and none but the first receive of a worker waits for another task's section. -/
theorem advances (hg : g.Configured) {task : Task} (hbusy : task ≠ .idle)
    (h : ∀ id, task = .translated (.gather id []) → g.shardManager.channel id ≠ []) :
    Advances libs env g task := by
  cases task with
  | idle => exact absurd rfl hbusy
  | emergency pc => exact processEmergency_advances hhex env pc
  | incoming pc => exact processIncomingBatch_advances env hg pc
  | translated pc =>
    exact processTranslatedBatch_advances hhex env hg fun id hid => h id (congrArg Task.translated hid)

/-- A section that is taken brings its task nearer to the end. -/
theorem rank_lt_of_advance (hg : g.Configured) {task task' : Task} {g' : Gateway}
    (h : advance libs env g task = some (task', g')) :
    rank g'.spreadLoad task' < rank g.spreadLoad task ∧ (task' = .idle ∨ Engaged task') := by
  have hbusy : task ≠ .idle := by
    rintro rfl
    cases h
  have hqueue : ∀ id, task = .translated (.gather id []) → g.shardManager.channel id ≠ [] := by
    rintro id rfl hempty
    rw [advance, processTranslatedBatch, gather, hempty] at h
    cases h
  obtain ⟨_, _, hadvance, hrank, hnext⟩ := advances hhex env hg hbusy hqueue
  cases h.symm.trans hadvance
  exact ⟨hrank, hnext⟩

end

theorem Engaged.ne_idle {task : Task} (h : Engaged task) : task ≠ .idle := by
  rintro rfl
  exact h

/-- The messages that a step puts into the spread shard. -/
def spreading (libs : Libs) (s : Sys n) (a : Act n) : List Message :=
  (log libs s a).flatMap (Event.placedIn 8)

/-- Those that come while the drain in slot `i` receives. -/
def arriving (libs : Libs) (i : Fin n) (s : Sys n) (a : Act n) : List Message :=
  if collects (s.task i) then spreading libs s a else []

theorem spreadLoad_step {s s' : Sys n} {a : Act n} (hs : Sound s) (h : step libs s a = some s') :
    s'.gateway.spreadLoad ≤ s.gateway.spreadLoad + (spreading libs s a).length := by
  have hqueue := congrArg List.length (Trace.fifo (fun v : Flow => v.channel 8)
    (fun v e w (h : v.step e = some w) => (step_queues h).2.1 8) _ _ _ (hs.step h).2)
  rw [List.length_append, List.length_append] at hqueue
  exact Nat.le.intro ((Nat.add_comm _ _).trans hqueue.symm)

/-- **Progress.**  A section of a task brings it nearer to its end, and the other steps take none further
    from it but a drain, for each message they put into the shard it receives from. -/
theorem Sound.rank_step (hhex : InmarsatC.HexInverts libs.hexDecode) {s s' : Sys n} {a : Act n}
    (hs : Sound s) (h : Gateway.step libs s a = some s') {i : Fin n} (hbusy : s.task i ≠ .idle) :
    s'.task i = .idle ∨ s'.task i ≠ .idle ∧
      rank s'.gateway.spreadLoad (s'.task i) + (if a.isTurnOf i then 1 else 0) ≤
        rank s.gateway.spreadLoad (s.task i) + 3 * (arriving libs i s a).length := by
  rcases task_of_step h hbusy with ⟨hturn, htask⟩ | ⟨env, g', rfl, hadvance⟩
  · refine .inr ⟨by rw [htask]; exact hbusy, ?_⟩
    rw [hturn, htask, arriving, apply_ite List.length]
    exact rank_le_add (spreadLoad_step hs h) _
  · have hgateway : s'.gateway = g' := by
      obtain ⟨⟨task', g''⟩, hstep, rfl⟩ := Option.map_eq_some_iff.mp h
      exact (Prod.mk.inj (Option.some.inj (hstep.symm.trans hadvance))).2
    obtain ⟨hrank, hnext⟩ := rank_lt_of_advance hhex env hs.configured hadvance
    rcases hnext with hidle | hengaged
    · exact .inl hidle
    · refine .inr ⟨hengaged.ne_idle, ?_⟩
      rw [Act.isTurnOf, decide_eq_true rfl, hgateway]
      exact Nat.le_add_right_of_le hrank

/-! ## How much a task takes on -/

section

variable {env : Env} {g g' : Gateway} {task' : Task}

end

end Gateway

end FloatProtocols
