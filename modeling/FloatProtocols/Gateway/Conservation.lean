/-
  Where every message is: nothing is lost or duplicated without an event that says so.

  1. **Originals** — a message received is in the intake queue, in the hands of a task, in a shard, or
     it was answered from the cache, translated, refused by a shard, or did not translate.  The cadence
     rules add copies, and only of Iridium readings (`messages_conserved`).

  2. **Translations** — a translation made or found in the cache is in the hands of a task, in the
     transmission queue, went out to ASTS in a request, came to the uplink without one, or was refused
     by the queue (`translations_conserved`).

  Both are balances of multisets: what the queues do is known from the abstract gateway
  (`step_stock`), so each section of a task has to be looked at for what it has in hand only.
-/
import Mathlib.Algebra.BigOperators.Group.Finset.Basic
import Mathlib.Algebra.Order.Group.Multiset
import Mathlib.Tactic.Abel
import FloatProtocols.Gateway.Queues

namespace FloatProtocols

open Wire

namespace Gateway

open Translator Sharding

variable {n : Nat} {libs : Libs}

/-! ## Accounts

  A quantity that tasks carry, queues or events take and give.  To account for it over whole runs, it
  is enough to do so for each section and for each start of a task.
-/

/-- What a section carries on and puts down is what it carried and picked up. -/
def Balances (carry : Task → Multiset Message) (down up : Event → Multiset Message)
    (task task' : Task) (l : List Event) : Prop :=
  carry task' + (l.map down).sum = carry task + (l.map up).sum

/-- An account of every step. -/
structure Account (libs : Libs) (carry : Task → Multiset Message) (down up : Event → Multiset Message) :
    Prop where
  idle : carry .idle = 0
  emergency : ∀ msg : Message, msg.isEmergency = true →
    Balances carry down up .idle (.emergency (.reconcile msg)) [.received msg]
  ordinary : ∀ msg : Message, ¬ msg.isEmergency = true → down (.received msg) = up (.received msg)
  batch : ∀ msgs, Balances carry down up .idle (.incoming (.reconcile msgs)) [.batched msgs]
  worker : ∀ id, carry (.translated (.gather id [])) = 0
  drain : carry (.translated (.collect [])) = 0
  transmit : ∀ batch uplink, down (.transmitted batch uplink) = up (.transmitted batch uplink)
  advance : ∀ {env : Env} {g g' : Gateway} {task task' : Task}, g.Configured →
    FloatProtocols.advance libs env g task = some (task', g') →
      Balances carry down up task task' (sectionLog libs env g task)

section Accounts

variable {carry : Task → Multiset Message} {down up : Event → Multiset Message}

theorem balances_nil {task task' : Task} (h : carry task' = carry task) :
    Balances carry down up task task' [] := congrArg (· + 0) h

theorem balances_single {task task' : Task} {e : Event} (h : carry task' + down e = carry task + up e) :
    Balances carry down up task task' [e] := by
  rw [Balances, List.map_singleton, List.map_singleton, List.sum_singleton, List.sum_singleton]
  exact h

theorem Account.step (ha : Account libs carry down up) {s s' : Sys n} {a : Act n} (hs : Sound s)
    (h : step libs s a = some s') :
    ∑ i, carry (s'.task i) + ((log libs s a).map down).sum =
      ∑ i, carry (s.task i) + ((log libs s a).map up).sum := by
  have hstart : ∀ {i : Fin n} {g : Gateway} {t : Task} {l : List Event}, s.start i g t = some s' →
      Balances carry down up .idle t l →
        ∑ i, carry (s'.task i) + (l.map down).sum = ∑ i, carry (s.task i) + (l.map up).sum := by
    intro i g t l hstart hbalances
    obtain ⟨hidle, rfl⟩ := start_eq_some.mp hstart
    rw [← hidle] at hbalances
    exact Trace.sum_balance carry hbalances
  cases a with
  | send i msg =>
    rw [Gateway.step] at h
    split at h
    · rename_i hemergency
      exact hstart h (ha.emergency msg hemergency)
    · rename_i hordinary
      cases h
      rw [log, List.map_singleton, List.map_singleton, ha.ordinary msg hordinary]
  | takeBatch i size =>
    rw [Gateway.step] at h
    split at h
    · exact hstart h (ha.batch _)
    · cases h
  | startWorker i id =>
    rw [Gateway.step] at h
    split at h
    · exact hstart h (balances_nil ((ha.worker id).trans ha.idle.symm))
    · cases h
  | drainSpread i =>
    rw [step_drainSpread hs.configured] at h
    exact hstart h (balances_nil (ha.drain.trans ha.idle.symm))
  | advance i env =>
    obtain ⟨⟨t, g⟩, hadvance, rfl⟩ := Option.map_eq_some_iff.mp h
    exact Trace.sum_balance carry (ha.advance hs.configured hadvance)
  | transmit size uplink =>
    rw [Gateway.step] at h
    split at h
    · cases h
      rw [log, List.map_singleton, List.map_singleton, ha.transmit]
    · cases h

/-- **What is accounted for in every step is accounted for in every run.** -/
theorem Account.run (ha : Account libs carry down up) {cacheTtl now : Nat} {hasCredentials : Bool}
    {as : List (Act n)} {t : Sys n}
    (hrun : Trace.run (Gateway.step libs) (Sys.init n cacheTtl hasCredentials now) as = some t) :
    let l := history libs n cacheTtl hasCredentials now as
    ∑ i, carry (t.task i) + (l.map down).sum = (l.map up).sum := by
  have hidle : ∑ i, carry ((Sys.init n cacheTtl hasCredentials now).task i) = 0 :=
    Finset.sum_eq_zero fun _ _ => ha.idle
  have hbalance := Trace.Along.balance (f := log libs) (fun s : Sys n => ∑ i, carry (s.task i)) up down
    (fun _ _ _ hs h => ha.step hs h) as _ t ((sound_init n cacheTtl hasCredentials now).along as) hrun
  rw [hidle, zero_add] at hbalance
  exact hbalance

end Accounts

/-! ## Originals -/

/-- The messages in a task's hands. -/
def inHand : Task → Multiset Message
  | .emergency (.reconcile msg) | .emergency (.store msg) | .emergency (.push msg)
  | .emergency (.snapshot msg) | .emergency (.translate msg) => {msg}
  | .incoming (.reconcile msgs) | .incoming (.store msgs) | .incoming (.partition msgs)
  | .incoming (.lookup msgs) => msgs
  | .incoming (.pushSpread spread normal) => spread + normal
  | .incoming (.route routed) => routed.map Prod.fst
  | .translated (.gather _ batch) | .translated (.collect batch) => batch
  | .translated (.translate todo _ _) => todo
  | _ => 0

/-- The messages in the intake queue and in the shards that are emptied. -/
def Flow.stock (v : Flow) : Multiset Message :=
  v.batcher + ∑ id ∈ Finset.Icc 1 8, (v.channel id : Multiset Message)

/-- The messages under way. -/
def inFlight (s : Sys n) : Multiset Message := s.gateway.view.stock + ∑ i, inHand (s.task i)

namespace Event

/-- A message comes in. -/
def arrived : Event → Multiset Message
  | .received msg => {msg}
  | _ => 0

/-- The cadence rules add copies. -/
def extra : Event → Multiset Message
  | .parted msg copies => Multiset.replicate (copies - 1) msg
  | _ => 0

/-- A message gets its translation. -/
def served : Event → Multiset Message
  | .hit msg _ => {msg}
  | .translated msg (some _) => {msg}
  | _ => 0

/-- A shard has no room. -/
def refused : Event → Multiset Message
  | .pushed (.regular msg) none => {msg}
  | .pushed (.spread msg) none => {msg}
  | _ => 0

/-- A message does not translate. -/
def failed : Event → Multiset Message
  | .translated msg none => {msg}
  | _ => 0

/-- What adds to the messages under way. -/
def gained (e : Event) : Multiset Message := e.arrived + e.extra

/-- What ends a message's way. -/
def settled (e : Event) : Multiset Message := e.served + e.refused + e.failed

/-- Into a queue. -/
def stored : Event → Multiset Message
  | .received msg => if msg.isEmergency then 0 else {msg}
  | .pushed (.regular msg) (some _) => {msg}
  | .pushed (.spread msg) (some _) => {msg}
  | _ => 0

/-- Out of a queue. -/
def fetched : Event → Multiset Message
  | .batched msgs => msgs
  | .taken _ msg => {msg}
  | _ => 0

end Event

theorem sum_shard {j : Nat} (msgs : List Message) (hj : j ∈ Finset.Icc 1 8) :
    ∑ id ∈ Finset.Icc 1 8, ((if j = id then msgs else [] : List Message) : Multiset Message) = msgs := by
  rw [Finset.sum_eq_single_of_mem j hj, if_pos rfl]
  intro id _ hne
  rw [if_neg (Ne.symm hne)]
  rfl

theorem sum_no_shard {j : Nat} (msgs : List Message) (hj : j ∉ Finset.Icc 1 8) :
    ∑ id ∈ Finset.Icc 1 8, ((if j = id then msgs else [] : List Message) : Multiset Message) = 0 := by
  refine Finset.sum_eq_zero fun id hid => ?_
  have hne : j ≠ id := by
    rintro rfl
    exact hj hid
  rw [if_neg hne]
  rfl

/-- What an event puts into the queues it puts into one of them. -/
theorem stored_eq {v v' : Flow} {e : Event} (h : v.step e = some v') :
    e.stored = e.intake + ∑ id ∈ Finset.Icc 1 8, (e.placedIn id : Multiset Message) := by
  cases e with
  | received msg =>
    rw [Event.stored, Event.intake]
    split <;> rfl
  | pushed p shard =>
    rw [Flow.step, Option.ite_none_right_eq_some] at h
    cases shard with
    | none => cases p <;> rfl
    | some j =>
      show _ = 0 + ∑ id ∈ Finset.Icc 1 8, ((if j = id then [p.message] else [] : List Message) : Multiset Message)
      rw [zero_add]
      have hfits := fits_of_dest h.1
      cases p with
      | regular msg =>
        obtain ⟨hlow, hhigh⟩ := hfits
        rw [sum_shard _ (Finset.mem_Icc.mpr ⟨hlow, Nat.le_of_lt hhigh⟩)]
        rfl
      | spread msg =>
        cases hfits
        rw [sum_shard _ (by decide)]
        rfl
      | deadzone msg =>
        cases hfits
        rw [sum_no_shard _ (by decide)]
        rfl
  | _ => rfl

theorem fetched_eq {v v' : Flow} {e : Event} (h : v.step e = some v') :
    e.fetched = e.cut + ∑ id ∈ Finset.Icc 1 8, (e.leftFrom id : Multiset Message) := by
  cases e with
  | batched msgs => exact (add_zero _).symm
  | taken j msg =>
    rw [Flow.step, Option.ite_none_right_eq_some] at h
    obtain ⟨⟨hlow, hhigh, -⟩, -⟩ := h
    show _ = 0 + ∑ id ∈ Finset.Icc 1 8, ((if j = id then [msg] else [] : List Message) : Multiset Message)
    rw [zero_add, sum_shard _ (Finset.mem_Icc.mpr ⟨hlow, hhigh⟩)]
    rfl
  | _ => rfl

/-- What one event does to the queues, all taken together. -/
theorem step_stock {v v' : Flow} {e : Event} (h : v.step e = some v') :
    v'.stock + e.fetched = v.stock + e.stored := by
  obtain ⟨hbatcher, hchannel, -⟩ := step_queues h
  have hintake : (v.batcher + e.intake : Multiset Message) = e.cut + v'.batcher := by
    rw [Multiset.coe_add, Multiset.coe_add, hbatcher]
  have hshards : ∑ id ∈ Finset.Icc 1 8, (v.channel id : Multiset Message) +
        ∑ id ∈ Finset.Icc 1 8, (e.placedIn id : Multiset Message) =
      ∑ id ∈ Finset.Icc 1 8, (e.leftFrom id : Multiset Message) +
        ∑ id ∈ Finset.Icc 1 8, (v'.channel id : Multiset Message) := by
    rw [← Finset.sum_add_distrib, ← Finset.sum_add_distrib]
    refine Finset.sum_congr rfl fun id _ => ?_
    rw [Multiset.coe_add, Multiset.coe_add, hchannel]
  rw [stored_eq h, fetched_eq h, Flow.stock, Flow.stock]
  calc _ = (v'.batcher + e.cut : Multiset Message) +
        (∑ id ∈ Finset.Icc 1 8, (v'.channel id : Multiset Message) +
          ∑ id ∈ Finset.Icc 1 8, (e.leftFrom id : Multiset Message)) := add_add_add_comm _ _ _ _
    _ = (v.batcher + e.intake : Multiset Message) +
        (∑ id ∈ Finset.Icc 1 8, (v.channel id : Multiset Message) +
          ∑ id ∈ Finset.Icc 1 8, (e.placedIn id : Multiset Message)) := by
      rw [hintake, hshards, add_comm (v'.batcher : Multiset Message),
        add_comm (∑ id ∈ Finset.Icc 1 8, (v'.channel id : Multiset Message))]
    _ = _ := add_add_add_comm _ _ _ _

/-! ### The copies -/

/-- A message stays one, or it is an Iridium reading and becomes 60. -/
def Copied (msg : Message) (copies : Nat) : Prop :=
  copies = 1 ∨ copies = 60 ∧ msg.protocol = .iridiumSBD ∧ msg.priority ≠ .emergency

theorem copies_eq (msg : Message) :
    ∃ k, copies msg = List.replicate k msg ∧ Copied msg k := by
  rw [copies]
  split
  · rename_i h
    exact ⟨60, rfl, .inr ⟨rfl, h⟩⟩
  · exact ⟨1, rfl, .inl rfl⟩

theorem shares_copied (instant : Nat → Nat) (msgs : List Message) :
    ∀ k ewma, ∀ x ∈ shares instant k ewma defaultCadence msgs,
      x.2 = List.replicate x.2.length x.1 ∧ Copied x.1 x.2.length := by
  induction msgs with
  | nil =>
    intro k ewma x hx
    cases hx
  | cons msg msgs ih =>
    intro k ewma x hx
    rw [shares, cadenceCopies_default] at hx
    split at hx
    · rcases List.mem_cons.mp hx with rfl | hx
      · exact ⟨rfl, .inl rfl⟩
      · exact ih _ _ x hx
    · rcases List.mem_cons.mp hx with rfl | hx
      · obtain ⟨k, hk, hcopied⟩ := copies_eq msg
        rw [hk, List.length_replicate]
        exact ⟨rfl, hcopied⟩
      · exact ih _ _ x hx

/-- The two halves of a batch are the batch and its extra copies. -/
theorem partition_balance {g : Gateway} (hg : g.Configured) (instant : Nat → Nat)
    (reconciled : List Message) :
    ((g.partition instant reconciled).spread + (g.partition instant reconciled).normal :
      Multiset Message) = reconciled + (((shares instant 0 g.ewmaState g.cadenceTranslator
        reconciled).map fun x => Event.parted x.1 x.2.length).map Event.gained).sum := by
  have hperm := partition_perm g instant reconciled
  have hfst := map_fst_shares instant reconciled 0 g.ewmaState g.cadenceTranslator
  have hcopied := shares_copied instant reconciled 0 g.ewmaState
  rw [hg.cadenceTranslator] at hperm hfst ⊢
  rw [Multiset.coe_add, Multiset.coe_eq_coe.mpr hperm]
  nth_rewrite 2 [← hfst]
  generalize shares instant 0 g.ewmaState defaultCadence reconciled = parts at hcopied
  induction parts with
  | nil => rfl
  | cons x parts ih =>
    obtain ⟨hx, hparts⟩ := List.forall_mem_cons.mp hcopied
    have hone : (x.2 : Multiset Message) = {x.1} + (Event.parted x.1 x.2.length).gained := by
      have hlength : x.2.length - 1 + 1 = x.2.length := by
        rcases hx.2 with h | ⟨h, -⟩ <;> omega
      show (x.2 : Multiset Message) = {x.1} + (0 + Multiset.replicate (x.2.length - 1) x.1)
      rw [zero_add, Multiset.singleton_add, ← Multiset.replicate_succ, hlength]
      nth_rewrite 1 [hx.1]
      rfl
    rw [List.flatMap_cons, ← Multiset.coe_add, ih hparts, hone, List.map_cons, List.map_cons,
      List.map_cons, List.sum_cons, ← Multiset.cons_coe, ← Multiset.singleton_add]
    exact add_add_add_comm _ _ _ _

/-! ### What a section has in hand -/

/-- The balance of the messages in hand: they go to a queue or are settled. -/
abbrev Hands (task task' : Task) (l : List Event) : Prop :=
  Balances inHand (fun e => e.stored + e.settled) (fun e => e.fetched + e.gained) task task' l

variable {env : Env} {g g' : Gateway} {task' : Task}

theorem processEmergency_hands (hg : g.Configured) {pc : Emergency}
    (h : processEmergency libs env g pc = some (task', g')) :
    Hands (.emergency pc) task' (sectionLog libs env g (.emergency pc)) := by
  cases pc with
  | reconcile msg =>
    cases h
    refine balances_nil ?_
    rw [hg.correct]
    rfl
  | store msg =>
    cases h
    exact balances_nil rfl
  | push msg =>
    cases h
    show Hands _ _ [_, _]
    cases (g.shardManager.perform (.deadzone msg)).1.toOption <;> rfl
  | snapshot msg =>
    cases h
    exact balances_nil rfl
  | translate msg =>
    rw [processEmergency] at h
    rw [sectionLog]
    rcases hresult : translateSync libs (env.nowMs 0) msg with translated | e | _
    · rw [hresult] at h
      cases h
      exact balances_single rfl
    · rw [hresult] at h
      cases h
      exact balances_single rfl
    · rw [hresult] at h
      cases h
  | emit translated =>
    cases h
    exact balances_single rfl

/-- A section that puts one message down, in a queue or for good. -/
theorem hands_put_down {task task' : Task} {e : Event} {msg : Message} (h : inHand task = msg ::ₘ inHand task')
    (hdown : e.stored + e.settled = {msg}) (hup : e.fetched + e.gained = 0) : Hands task task' [e] := by
  refine balances_single ?_
  rw [hdown, hup, h, add_zero, add_comm, Multiset.singleton_add]

/-- A section that fetches messages from a queue. -/
theorem hands_pick_up {task task' : Task} {e : Event} (h : inHand task' = e.fetched + inHand task)
    (hdown : e.stored + e.settled = 0) (hgained : e.gained = 0) : Hands task task' [e] := by
  refine balances_single ?_
  rw [hdown, hgained, h, add_zero, add_zero, add_comm]

/-- Handing a translation to ASTS is not about originals. -/
theorem hands_emit {task task' : Task} {e : Event} {translated : Message} {uplink : Uplink}
    (h : Hands task task' [e]) : Hands task task' [e, .emitted translated uplink] := h

/-- Events that have nothing to do with a quantity add nothing to it. -/
theorem sum_quiet {f : Event → Multiset Message} {l : List Event} (h : ∀ e ∈ l, f e = 0) :
    (l.map f).sum = 0 :=
  List.sum_eq_zero fun x hx => by
    obtain ⟨e, he, rfl⟩ := List.mem_map.mp hx
    exact h e he

theorem sum_accepted {f : Event → Multiset Message} (hf : ∀ msg, f (.accepted msg) = 0)
    (batch : List Message) : ((batch.map .accepted).map f).sum = 0 :=
  sum_quiet fun e he => by
    obtain ⟨msg, -, rfl⟩ := List.mem_map.mp he
    exact hf msg

theorem sum_parted {f : Event → Multiset Message} (hf : ∀ msg k, f (.parted msg k) = 0)
    (parts : List (Message × List Message)) :
    ((parts.map fun x => Event.parted x.1 x.2.length).map f).sum = 0 :=
  sum_quiet fun e he => by
    obtain ⟨x, -, rfl⟩ := List.mem_map.mp he
    exact hf x.1 x.2.length

theorem processIncomingBatch_hands (hg : g.Configured) {pc : Incoming}
    (h : processIncomingBatch env g pc = some (task', g')) :
    Hands (.incoming pc) task' (sectionLog libs env g (.incoming pc)) := by
  cases pc with
  | reconcile batch =>
    cases h
    have hsame : (batch.mapIdx fun i msg => g.clockReconciler.correct (env.nowMs i) msg) = batch := by
      simp only [hg.correct]
      exact List.mapIdx_eq_iff.mpr fun i => by simp
    rw [hsame, Hands, Balances, sectionLog, sum_accepted (fun _ => rfl), sum_accepted (fun _ => rfl)]
    rfl
  | store reconciled =>
    cases h
    exact balances_nil rfl
  | partition reconciled =>
    cases h
    have hbalance := partition_balance hg env.instant reconciled
    have hfetched : ∀ parts : List (Message × List Message), ((parts.map fun x =>
        Event.parted x.1 x.2.length).map fun e => e.fetched + e.gained) =
          (parts.map fun x => Event.parted x.1 x.2.length).map Event.gained := by
      intro parts
      rw [List.map_map, List.map_map]
      exact List.map_congr_left fun x _ => zero_add _
    rw [Hands, Balances, sectionLog, sum_parted (fun _ _ => rfl), hfetched, add_zero]
    exact hbalance
  | pushSpread spread normal =>
    cases spread with
    | nil =>
      cases h
      refine balances_nil ?_
      split
      · rename_i hnormal
        rw [hnormal]
        rfl
      · exact (zero_add _).symm
    | cons msg spread =>
      cases h
      refine hands_put_down (Multiset.cons_add msg spread normal) ?_ rfl
      cases (g.shardManager.perform (.spread msg)).1.toOption <;> rfl
  | lookup normal =>
    cases h
    refine balances_nil ?_
    show ((List.map Prod.fst (normal.zip _) : List Message) : Multiset Message) = normal
    rw [List.map_fst_zip]
    rw [AsyncCache.getBatch, List.length_mapIdx, List.length_map]
  | route routed =>
    rcases routed with _ | ⟨⟨msg, _ | translated⟩, routed⟩
    · cases h
      exact balances_nil rfl
    · cases afterPush_task h
      refine hands_put_down rfl ?_ rfl
      cases (g.shardManager.perform (.regular msg)).1.toOption <;> rfl
    · cases h
      exact hands_emit (hands_put_down rfl rfl rfl)

/-- A section that receives a message from a shard. -/
theorem hands_receive {task task' : Task} {batch : List Message} (id : Nat) (msg : Message)
    (h : inHand task = batch) (h' : inHand task' = (batch ++ [msg] : List Message)) :
    Hands task task' [.taken id msg] := by
  refine hands_pick_up ?_ rfl rfl
  rw [h, h', ← Multiset.coe_add, add_comm]
  rfl

theorem gather_hands {id : Nat} {batch : List Message} (h : gather g id batch = some (task', g')) :
    Hands (.translated (.gather id batch)) task' (sectionLog libs env g (.translated (.gather id batch))) := by
  rw [gather] at h
  rw [sectionLog]
  split at h
  · rename_i hroom
    rw [if_pos hroom]
    rcases hq : g.shardManager.channel id with _ | ⟨msg, rest⟩
    · rw [hq] at h
      dsimp only at h
      split at h
      · cases h
      · cases h
        exact balances_nil rfl
    · rw [hq] at h
      cases h
      exact hands_receive id msg rfl rfl
  · rename_i hfull
    rw [if_neg hfull]
    cases h
    exact balances_nil rfl

theorem collect_hands {messages : List Message} (h : collect g messages = some (task', g')) :
    Hands (.translated (.collect messages)) task'
      (sectionLog libs env g (.translated (.collect messages))) := by
  rw [collect] at h
  rw [sectionLog]
  rcases hq : g.shardManager.channel g.shardManager.spreadShardId with _ | ⟨msg, rest⟩
  · rw [hq] at h
    cases h
    refine balances_nil ?_
    split
    · rename_i hempty
      rw [hempty]
      rfl
    · rfl
  · rw [hq] at h
    cases h
    exact hands_receive _ msg rfl rfl

theorem processTranslatedBatch_hands {pc : Translated}
    (h : processTranslatedBatch libs env g pc = some (task', g')) :
    Hands (.translated pc) task' (sectionLog libs env g (.translated pc)) := by
  cases pc with
  | gather id batch => exact gather_hands h
  | collect messages => exact collect_hands h
  | translate todo pairs drain =>
    cases todo with
    | nil =>
      cases h
      refine balances_nil ?_
      split <;> rfl
    | cons msg todo =>
      rw [processTranslatedBatch] at h
      rw [sectionLog]
      rcases hresult : translateSync libs (env.nowMs 0) msg with translated | e | _
      · rw [hresult] at h
        cases h
        exact hands_put_down rfl rfl rfl
      · rw [hresult] at h
        cases h
        exact hands_put_down rfl rfl rfl
      · rw [hresult] at h
        cases h
  | cacheAll pairs drain =>
    cases h
    exact balances_nil rfl
  | snapshotAll pairs drain =>
    cases h
    exact balances_nil rfl
  | enqueue translated drain =>
    cases translated with
    | nil =>
      cases h
      exact balances_nil rfl
    | cons translated rest =>
      rw [processTranslatedBatch] at h
      rw [sectionLog]
      split at h
      · rename_i hqueued
        rw [if_pos hqueued]
        cases h
        exact balances_single rfl
      · rename_i hqueued
        rw [if_neg hqueued]
        cases h
        exact balances_single rfl

theorem advance_hands (hg : g.Configured) {task : Task}
    (h : advance libs env g task = some (task', g')) :
    Hands task task' (sectionLog libs env g task) := by
  cases task with
  | idle => cases h
  | emergency pc => exact processEmergency_hands hg h
  | incoming pc => exact processIncomingBatch_hands hg h
  | translated pc => exact processTranslatedBatch_hands h

theorem hands_account : Account libs inHand (fun e => e.stored + e.settled)
    (fun e => e.fetched + e.gained) where
  idle := rfl
  emergency msg hemergency := by
    refine balances_single ?_
    rw [Event.stored, if_pos hemergency]
    rfl
  ordinary msg hordinary := by
    rw [Event.stored, if_neg hordinary]
    rfl
  batch msgs := hands_pick_up (add_zero _).symm rfl rfl
  worker id := rfl
  drain := rfl
  transmit batch uplink := rfl
  advance hg h := advance_hands hg h

/-- Only the loop over a batch makes copies. -/
theorem parted_mem_sectionLog {task : Task} {msg : Message} {k : Nat}
    (h : .parted msg k ∈ sectionLog libs env g task) :
    ∃ reconciled, task = .incoming (.partition reconciled) ∧
      ∃ x ∈ shares env.instant 0 g.ewmaState g.cadenceTranslator reconciled,
        x.1 = msg ∧ x.2.length = k := by
  unfold sectionLog at h
  split at h
  case h_5 reconciled =>
    obtain ⟨x, hx, heq⟩ := List.mem_map.mp h
    cases heq
    exact ⟨reconciled, rfl, x, hx, rfl, rfl⟩
  case h_9 =>
    split at h
    · obtain ⟨x, -, heq⟩ := List.mem_map.mp h
      cases heq
    · cases h
  case h_12 =>
    split at h <;> simp at h
  all_goals simp at h

theorem copied_of_mem_log {s : Sys n} (hs : Sound s) (a : Act n) :
    ∀ e ∈ log libs s a, ∀ msg k, e = .parted msg k → Copied msg k := by
  rintro _ he msg k rfl
  cases a with
  | advance i env =>
    obtain ⟨reconciled, -, x, hx, rfl, rfl⟩ := parted_mem_sectionLog he
    rw [hs.configured.cadenceTranslator] at hx
    exact (shares_copied env.instant reconciled 0 _ x hx).2
  | _ => simp [log] at he

section

variable {cacheTtl now : Nat} {hasCredentials : Bool} {as : List (Act n)} {t : Sys n}

/-- **No message is lost or made up.**  After every run, whatever order the tasks take turns in, the
    messages received and the extra copies of the cadence rules are, as multisets: the messages under
    way, those that got a translation, those that a full or closed shard refused, and those that did
    not translate.  Extra copies are made of Iridium readings only, 59 of each. -/
theorem messages_conserved
    (hrun : Trace.run (step libs) (Sys.init n cacheTtl hasCredentials now) as = some t) :
    let l := history libs n cacheTtl hasCredentials now as
    (l.map Event.arrived).sum + (l.map Event.extra).sum =
      inFlight t + (l.map Event.served).sum + (l.map Event.refused).sum + (l.map Event.failed).sum ∧
    ∀ msg copies, .parted msg copies ∈ l → Copied msg copies := by
  intro l
  have hsound := sound_init n cacheTtl hasCredentials now
  have hqueues := Trace.balance Flow.stock Event.stored Event.fetched (fun _ _ _ => step_stock)
    l _ _ (run_refines hrun)
  have hhands := hands_account.run hrun
  constructor
  · -- what the queues and the hands exchange cancels out
    change _ + (l.map _).sum = (l.map _).sum at hhands
    rw [List.sum_map_add, List.sum_map_add] at hhands
    have hempty : (Flow.start hasCredentials).stock = 0 := rfl
    rw [hempty, zero_add] at hqueues
    have htotal : (l.map Event.gained).sum = inFlight t + (l.map Event.settled).sum := by
      refine (add_left_cancel (a := (l.map Event.fetched).sum) ?_)
      rw [← hhands, ← hqueues, inFlight]
      abel
    rw [show Event.gained = fun e => e.arrived + e.extra from rfl,
      show Event.settled = fun e => e.served + e.refused + e.failed from rfl, List.sum_map_add,
      List.sum_map_add, List.sum_map_add] at htotal
    rw [htotal, ← add_assoc, ← add_assoc]
  · intro msg copies hmem
    exact Trace.Along.forall_collect (fun _ a hs => copied_of_mem_log hs a) as _ (hsound.along as) _
      hmem msg copies rfl

/-- A reading that comes in and is translated. -/
theorem messages_conserved_reading :
    ∃ t, Trace.run (step frameLibs) (Sys.init 1 60000000000 true 0) oneReading = some t ∧
      let l := history frameLibs 1 60000000000 true 0 oneReading
      (l.map Event.arrived).sum + (l.map Event.extra).sum =
        inFlight t + (l.map Event.served).sum + (l.map Event.refused).sum + (l.map Event.failed).sum := by
  obtain ⟨t, ht⟩ := Option.isSome_iff_exists.mp oneReading_runs
  exact ⟨t, ht, (messages_conserved ht).1⟩

end

/-! ## Translations -/

/-- The translations in a task's hands. -/
def ready : Task → Multiset Message
  | .emergency (.emit translated) => {translated}
  | .translated (.translate _ pairs _) | .translated (.cacheAll pairs _)
  | .translated (.snapshotAll pairs _) => pairs.map Prod.snd
  | .translated (.enqueue translated _) => translated
  | _ => 0

/-- The translations that wait for a request, and those that have come to the uplink. -/
def Flow.outbound (v : Flow) : Multiset Message := v.transmission + v.uplinked + v.withheld

namespace Event

/-- A translation is made, or found in the cache. -/
def made : Event → Multiset Message
  | .translated _ (some t) => {t}
  | .hit _ t => {t}
  | _ => 0

/-- A translation leaves its task. -/
def handedOn : Event → Multiset Message
  | .enqueued t _ => {t}
  | .emitted t _ => {t}
  | _ => 0

/-- The transmission queue does not take it. -/
def stranded : Event → Multiset Message
  | .unqueued t => {t}
  | _ => 0

end Event

/-- What comes to the uplink goes out or is withheld. -/
theorem outbound_deliver (v : Flow) (uplink : Uplink) (batch : List Message) :
    (v.deliver uplink batch).outbound = v.outbound + batch := by
  rw [Flow.outbound, Flow.outbound, Flow.deliver]
  split
  · rw [← Multiset.coe_add]
    abel
  · rw [← Multiset.coe_add]
    abel

/-- Nothing is taken back. -/
theorem step_outbound {v v' : Flow} {e : Event} (h : v.step e = some v') :
    v'.outbound = v.outbound + e.handedOn := by
  cases e with
  | enqueued t drain =>
    cases h
    show ((v.transmission ++ [t] : List Message) + v.uplinked + v.withheld : Multiset Message) = _
    rw [← Multiset.coe_add, add_right_comm (v.transmission : Multiset Message), add_right_comm]
    rfl
  | emitted t uplink =>
    cases h
    exact outbound_deliver v uplink [t]
  | transmitted batch uplink =>
    rw [Flow.step, Option.ite_none_right_eq_some] at h
    obtain ⟨hfront, h⟩ := h
    cases h
    have hsplit : (v.transmission : Multiset Message) =
        batch + (v.transmission.drop batch.length : List Message) := by
      rw [Multiset.coe_add, List.prefix_iff_eq_append.mp hfront]
    rw [outbound_deliver]
    show ((v.transmission.drop batch.length : List Message) + v.uplinked + v.withheld + batch :
      Multiset Message) = v.outbound + 0
    rw [Flow.outbound, hsplit]
    abel
  | pushed p shard =>
    rw [Flow.step, Option.ite_none_right_eq_some] at h
    obtain ⟨-, h⟩ := h
    cases h
    exact (add_zero _).symm
  | batched msgs =>
    rw [Flow.step, Option.ite_none_right_eq_some] at h
    obtain ⟨-, h⟩ := h
    cases h
    exact (add_zero _).symm
  | taken id msg =>
    rw [Flow.step, Option.ite_none_right_eq_some] at h
    obtain ⟨-, h⟩ := h
    cases h
    exact (add_zero _).symm
  | _ =>
    cases h
    exact (add_zero _).symm

/-- The balance of the translations in hand. -/
abbrev Readies (task task' : Task) (l : List Event) : Prop :=
  Balances ready (fun e => e.handedOn + e.stranded) Event.made task task' l

theorem processEmergency_readies {pc : Emergency}
    (h : processEmergency libs env g pc = some (task', g')) :
    Readies (.emergency pc) task' (sectionLog libs env g (.emergency pc)) := by
  cases pc with
  | translate msg =>
    rw [processEmergency] at h
    rw [sectionLog]
    rcases hresult : translateSync libs (env.nowMs 0) msg with translated | e | _
    · rw [hresult] at h
      cases h
      exact balances_single rfl
    · rw [hresult] at h
      cases h
      exact balances_single rfl
    · rw [hresult] at h
      cases h
  | emit translated =>
    cases h
    exact balances_single rfl
  | _ =>
    cases h
    rfl

theorem processIncomingBatch_readies {pc : Incoming}
    (h : processIncomingBatch env g pc = some (task', g')) :
    Readies (.incoming pc) task' (sectionLog libs env g (.incoming pc)) := by
  cases pc with
  | reconcile batch =>
    cases h
    rw [Readies, Balances, sectionLog, sum_accepted (fun _ => rfl), sum_accepted (fun _ => rfl)]
    rfl
  | store reconciled =>
    cases h
    exact balances_nil rfl
  | partition reconciled =>
    cases h
    rw [Readies, Balances, sectionLog, sum_parted (fun _ _ => rfl), sum_parted (fun _ _ => rfl)]
    rfl
  | pushSpread spread normal =>
    cases spread with
    | nil =>
      cases h
      refine balances_nil ?_
      split <;> rfl
    | cons msg spread =>
      cases h
      exact balances_single rfl
  | lookup normal =>
    cases h
    exact balances_nil rfl
  | route routed =>
    rcases routed with _ | ⟨⟨msg, _ | translated⟩, routed⟩
    · cases h
      exact balances_nil rfl
    · cases afterPush_task h
      exact balances_single rfl
    · cases h
      rfl

theorem processTranslatedBatch_readies {pc : Translated}
    (h : processTranslatedBatch libs env g pc = some (task', g')) :
    Readies (.translated pc) task' (sectionLog libs env g (.translated pc)) := by
  cases pc with
  | gather id batch =>
    have htask : ready task' = 0 := by
      change gather g id batch = some (task', g') at h
      rw [gather] at h
      repeat' split at h
      all_goals cases h <;> rfl
    rw [Readies, Balances, sectionLog, htask]
    split
    · cases (g.shardManager.channel id).head? <;> rfl
    · rfl
  | collect messages =>
    have htask : ready task' = 0 := by
      change collect g messages = some (task', g') at h
      rw [collect] at h
      split at h
      · cases h
        rfl
      · cases h
        split <;> rfl
    rw [Readies, Balances, sectionLog, htask]
    cases (g.shardManager.channel g.shardManager.spreadShardId).head? <;> rfl
  | translate todo pairs drain =>
    cases todo with
    | nil =>
      cases h
      refine balances_nil ?_
      split
      · rename_i hpairs
        rw [hpairs]
        rfl
      · rfl
    | cons msg todo =>
      rw [processTranslatedBatch] at h
      rw [sectionLog]
      rcases hresult : translateSync libs (env.nowMs 0) msg with translated | e | _
      · rw [hresult] at h
        cases h
        refine balances_single ?_
        show (((pairs ++ [(msg, translated)]).map Prod.snd : List Message) : Multiset Message) + 0 = _
        rw [add_zero, List.map_append, ← Multiset.coe_add]
        rfl
      · rw [hresult] at h
        cases h
        exact balances_single rfl
      · rw [hresult] at h
        cases h
  | cacheAll pairs drain =>
    cases h
    exact balances_nil rfl
  | snapshotAll pairs drain =>
    cases h
    exact balances_nil rfl
  | enqueue translated drain =>
    cases translated with
    | nil =>
      cases h
      exact balances_nil rfl
    | cons translated rest =>
      have hcons : ((translated :: rest : List Message) : Multiset Message) = rest + {translated} := by
        rw [← Multiset.cons_coe, ← Multiset.singleton_add, add_comm]
      rw [processTranslatedBatch] at h
      rw [sectionLog]
      split at h
      · rename_i hqueued
        rw [if_pos hqueued]
        cases h
        exact balances_single (hcons.symm.trans (add_zero _).symm)
      · rename_i hqueued
        rw [if_neg hqueued]
        cases h
        exact balances_single (hcons.symm.trans (add_zero _).symm)

theorem readies_account : Account libs ready (fun e => e.handedOn + e.stranded) Event.made where
  idle := rfl
  emergency msg _ := balances_single rfl
  ordinary msg _ := rfl
  batch msgs := balances_single rfl
  worker id := rfl
  drain := rfl
  transmit batch uplink := rfl
  advance := by
    intro env g g' task task' _ h
    cases task with
    | idle => cases h
    | emergency pc => exact processEmergency_readies h
    | incoming pc => exact processIncomingBatch_readies h
    | translated pc => exact processTranslatedBatch_readies h

/-- **No translation is lost or made up.**  After every run, the translations made or found in the cache
    are, as multisets: those in the hands of a task, those in the transmission queue, those that went
    out in a request to ASTS, those that came to the uplink when none could be made (no credentials, or
    an open circuit breaker), and those that the queue did not take. -/
theorem translations_conserved {cacheTtl now : Nat} {hasCredentials : Bool} {as : List (Act n)}
    {t : Sys n} (hrun : Trace.run (step libs) (Sys.init n cacheTtl hasCredentials now) as = some t) :
    let l := history libs n cacheTtl hasCredentials now as
    (l.map Event.made).sum = ∑ i, ready (t.task i) + t.gateway.transmission + t.gateway.uplinked +
      t.gateway.withheld + (l.map Event.stranded).sum := by
  intro l
  have hout := Trace.balance Flow.outbound Event.handedOn (fun _ => 0)
    (fun _ _ _ h => (add_zero _).trans (step_outbound h)) l _ _ (run_refines hrun)
  have hhands := readies_account.run hrun
  change _ + (l.map _).sum = (l.map _).sum at hhands
  have hstart : (Flow.start hasCredentials).outbound = 0 := rfl
  have hnone : (l.map fun _ => (0 : Multiset Message)).sum = 0 := sum_quiet fun _ _ => rfl
  rw [hnone, add_zero, hstart, zero_add] at hout
  rw [← hhands, List.sum_map_add, ← hout, Flow.outbound, ← add_assoc, ← add_assoc, ← add_assoc]
  rfl

/-- The reading went out, and nothing else is anywhere. -/
theorem translations_conserved_reading :
    ∃ t, Trace.run (step frameLibs) (Sys.init 1 60000000000 true 0) oneReading = some t ∧
      let l := history frameLibs 1 60000000000 true 0 oneReading
      t.gateway.uplinked.length = 1 ∧
      (l.map Event.made).sum = ∑ i, ready (t.task i) + t.gateway.transmission + t.gateway.uplinked +
        t.gateway.withheld + (l.map Event.stranded).sum := by
  obtain ⟨t, ht⟩ := Option.isSome_iff_exists.mp oneReading_runs
  have hsent : (Trace.run (step frameLibs) (Sys.init 1 60000000000 true 0) oneReading).map
      (·.gateway.uplinked.length) = some 1 := by
    decide +kernel
  rw [ht] at hsent
  exact ⟨t, ht, Option.some.inj hsent, translations_conserved ht⟩

end Gateway

end FloatProtocols
