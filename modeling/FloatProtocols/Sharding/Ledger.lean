/-
  Does `total_regular_messages` count the messages in the regular shards?

  1. **The ledger (`Inv.balance`)** — counter plus sends not yet counted equals queue plus receives
     not yet subtracted plus what has leaked.  One lemma for the accesses of a call
     (`Effect.balance`), one for the workers (`Inv.workerRecv`).

  2. **Leaks** — a worker's receive from a regular shard leaves the queue and never the counter, and
     `drainShard` subtracts with saturation, so that a drain which overtakes the count of the push it
     drains leaks too.  Nothing else does, and nothing ever pays a leak back.

  3. **The verdict (`counter_eq_queued_iff`)** — the counter is right in exactly the states where the
     ledger's other entries cancel, and the gateway's workers see to it that they do not:
     `gate_shut_on_empty` is refused at an EMPTY queue, for good.
-/
import Mathlib.Data.Fintype.Basic
import FloatProtocols.Sharding.Interleaving

namespace FloatProtocols

namespace Sharding

open Wire

/-! ## The ledger -/

/-- A message in the channel that its `push` has yet to count. -/
def Pc.uncounted : Pc → Nat
  | .addTotal _ => 1
  | _ => 0

/-- Messages a drain has taken from a regular shard and has yet to subtract. -/
def Pc.unsubtracted (numShards : Nat) : Pc → Nat
  | .tryRecv id messages => if id ∈ Finset.Ico 1 numShards then messages.length else 0
  | .subTotal messages => messages.length
  | _ => 0

/-- A counted send is under way to a regular shard (or to none at all), an uncounted one is not. -/
def Pc.Placed (m : Manager) : Pc → Prop
  | .allocate id _ true | .trySend id _ true =>
    id ∈ Finset.Ico 1 m.numShards ∨ m.shards id = none
  | .allocate id _ false | .trySend id _ false => id ∉ Finset.Ico 1 m.numShards
  | .tryRecv id _ => id ≤ m.numShards
  | _ => True

/-- What no call and no worker changes, and what keeps a manager's ids in range. -/
structure Shape (m : Manager) : Prop where
  size : m.numShards < 2 ^ 64
  shards : ∀ id, m.numShards < id → m.shards id = none
  receivers : ∀ id, m.receivers id = true → id ≤ m.numShards

theorem Shape.new {numShards : Nat} (hN : numShards < 2 ^ 64) (shardSize now : Nat) :
    Shape (.new numShards shardSize now) where
  size := hN
  shards id hid := by
    change numShards < id at hid
    show (if id = numShards then _ else if id = 0 then _ else if id < numShards then _ else _) = _
    rw [if_neg (by omega), if_neg (by omega), if_neg (by omega)]
  receivers id hid := of_decide_eq_true hid

/-- The round robin lands on a regular shard; with `num_shards = 0` it lands on no shard. -/
theorem Shape.selected {m : Manager} (hm : Shape m) (hcount : m.regularCount ≠ 0) :
    1 + m.roundRobin % m.regularCount ∈ Finset.Ico 1 m.numShards ∨
      m.shards (1 + m.roundRobin % m.regularCount) = none := by
  have hlt : m.roundRobin % m.regularCount < m.regularCount := Nat.mod_lt _ (by omega)
  rcases Nat.eq_zero_or_pos m.numShards with hz | hpos
  · exact .inr (hm.shards _ (by omega))
  · left
    rw [Manager.regularCount_eq hm.size, if_neg (by omega)] at hlt ⊢
    rw [Finset.mem_Ico]
    omega

theorem Effect.frame {m m' : Manager} {pc pc' : Pc} (h : Effect m pc pc' m') :
    m'.numShards = m.numShards ∧ m'.shards = m.shards ∧ m'.receivers = m.receivers := by
  cases h <;> exact ⟨rfl, rfl, rfl⟩

theorem Effect.placed {m m' : Manager} {pc pc' : Pc} (h : Effect m pc pc' m') (hm : Shape m)
    (hpc : pc.Placed m) : pc'.Placed m' := by
  cases h with
  | selected msg hcount => exact hm.selected hcount
  | allocated id msg counted => cases counted <;> exact hpc
  | sent id msg counted hshard => cases counted <;> trivial
  | received id acc msg rest hq => exact hpc
  | emptied id acc => split <;> trivial
  | _ => trivial

theorem unsubtracted_emptied {m : Manager} {id : Nat} (hid : id ≤ m.numShards)
    (acc : List Message) :
    (if m.isRegularShard id = true ∧ acc ≠ [] then Pc.subTotal acc
        else .drained acc).unsubtracted m.numShards =
      if id ∈ Finset.Ico 1 m.numShards then acc.length else 0 := by
  simp only [Manager.isRegularShard_iff hid]
  by_cases hreg : id ∈ Finset.Ico 1 m.numShards
  · cases acc with
    | nil => simp [Pc.unsubtracted]
    | cons msg rest => simp [Pc.unsubtracted, hreg]
  · simp [Pc.unsubtracted, hreg]

/-- **One access keeps the books**: each message that enters or leaves a regular channel is matched
    by the counter, now or later, except for what a saturating subtraction is short of. -/
theorem Effect.balance {m m' : Manager} {pc pc' : Pc} (h : Effect m pc pc' m')
    (hpc : pc.Placed m) :
    m'.totalRegularMessages + pc'.uncounted + (m.queued + pc.unsubtracted m.numShards) =
      m.totalRegularMessages + pc.uncounted + (m'.queued + pc'.unsubtracted m.numShards) +
        shortfall m pc := by
  cases h with
  | sent id msg counted hshard =>
    have hq := m.queued_update id (m.channel id ++ [msg])
    cases counted with
    | true =>
      -- a counted send goes to a regular shard: the queue grows by one, `uncounted` with it
      have hreg : id ∈ Finset.Ico 1 m.numShards := hpc.resolve_right hshard
      rw [if_pos hreg, if_pos hreg, List.length_append] at hq
      show m.totalRegularMessages + 1 + (m.queued + 0) =
        m.totalRegularMessages + 0 + ((m.send id msg).queued + 0) + 0
      change (m.send id msg).queued + _ = _ + (_ + 1) at hq
      omega
    | false =>
      rw [if_neg hpc, if_neg hpc] at hq
      show m.totalRegularMessages + 0 + (m.queued + 0) =
        m.totalRegularMessages + 0 + ((m.send id msg).queued + 0) + 0
      change (m.send id msg).queued + _ = _ at hq
      omega
  | received id acc msg rest hch =>
    have hq := m.queued_update id rest
    rw [hch] at hq
    show m.totalRegularMessages + 0 + (m.queued + if _ then _ else _) =
      m.totalRegularMessages + 0 + (_ + if _ then _ else _) + 0
    by_cases hreg : id ∈ Finset.Ico 1 m.numShards
    · rw [if_pos hreg, if_pos hreg, List.length_cons] at hq
      rw [if_pos hreg, if_pos hreg, List.length_append, List.length_singleton]
      omega
    · rw [if_neg hreg, if_neg hreg] at hq
      rw [if_neg hreg, if_neg hreg]
      omega
  | emptied id acc =>
    have huncounted : (if m.isRegularShard id = true ∧ acc ≠ [] then Pc.subTotal acc
        else .drained acc).uncounted = 0 := by
      split <;> rfl
    rw [unsubtracted_emptied hpc, huncounted]
    rfl
  | counted id =>
    show m.totalRegularMessages + 1 + 0 + (m.queued + 0) =
      m.totalRegularMessages + 1 + (m.queued + 0) + 0
    omega
  | subtracted acc =>
    show m.totalRegularMessages - acc.length + 0 + (m.queued + acc.length) =
      m.totalRegularMessages + 0 + (m.queued + 0) + (acc.length - m.totalRegularMessages)
    omega
  | _ => rfl

/-! ## Whole runs -/

variable {n : Nat}

/-- Sends not yet counted, over all threads. -/
def Sys.uncounted (s : Sys n) : Nat := ∑ i, (s.pc i).uncounted

/-- Receives not yet subtracted, over all threads. -/
def Sys.unsubtracted (s : Sys n) : Nat := ∑ i, (s.pc i).unsubtracted s.manager.numShards

/-- The invariant of every run. -/
structure Inv (s : Sys n) : Prop where
  shape : Shape s.manager
  workers : ∀ id, s.workers id = true → id ≤ s.manager.numShards
  placed : ∀ i, (s.pc i).Placed s.manager
  balance : s.manager.totalRegularMessages + s.uncounted =
    s.manager.queued + s.unsubtracted + s.leaked

theorem Inv.init {numShards : Nat} (hN : numShards < 2 ^ 64) (shardSize now : Nat) :
    Inv (Sys.init n numShards shardSize now) where
  shape := .new hN shardSize now
  workers id hid := absurd hid Bool.false_ne_true
  placed _ := trivial
  balance := by
    show 0 + ∑ i : Fin n, 0 = (∑ id ∈ Finset.Ico 1 numShards, ([] : List Message).length) +
      (∑ i : Fin n, 0) + 0
    simp

theorem Pc.resting_weights {pc : Pc} (h : pc.resting = true) (numShards : Nat) :
    pc.uncounted = 0 ∧ pc.unsubtracted numShards = 0 := by
  cases pc <;> first | exact ⟨rfl, rfl⟩ | cases h

theorem start_weights (m : Manager) (c : Call) :
    (start m c).uncounted = 0 ∧ (start m c).unsubtracted m.numShards = 0 := by
  cases c with
  | push msg => exact ⟨rfl, rfl⟩
  | pushSpread msg => exact ⟨rfl, rfl⟩
  | pushDeadzone msg => exact ⟨rfl, rfl⟩
  | drain id =>
    rw [start]
    split
    · exact ⟨rfl, ite_self 0⟩
    · exact ⟨rfl, rfl⟩

theorem Shape.start_placed {m : Manager} (hm : Shape m) (c : Call) : (start m c).Placed m := by
  cases c with
  | push msg => trivial
  | pushSpread msg =>
    show m.numShards ∉ Finset.Ico 1 m.numShards
    simp
  | pushDeadzone msg =>
    show 0 ∉ Finset.Ico 1 m.numShards
    simp
  | drain id =>
    rw [start]
    split
    · exact hm.receivers id ‹_›
    · trivial

/-- `Placed` looks only at what no step changes. -/
theorem Pc.Placed.congr {m m' : Manager} {pc : Pc} (h : pc.Placed m)
    (hN : m'.numShards = m.numShards) (hshards : m'.shards = m.shards) : pc.Placed m' := by
  cases pc with
  | allocate id msg counted | trySend id msg counted =>
    cases counted <;> simpa only [Pc.Placed, hN, hshards] using h
  | tryRecv id messages => simpa only [Pc.Placed, hN] using h
  | _ => trivial

/-- When one thread moves, the sums over all threads change by its own difference. -/
theorem sum_weights_update (f : Pc → Nat) (pc : Fin n → Pc) (i : Fin n) (pc' : Pc) :
    (∑ j, f (Function.update pc i pc' j)) + f (pc i) = (∑ j, f (pc j)) + f pc' :=
  Trace.sum_update (Finset.mem_univ i) f pc pc'

theorem Inv.call {s : Sys n} (hs : Inv s) {i : Fin n} (hrest : (s.pc i).resting = true)
    (c : Call) : Inv { s with pc := Function.update s.pc i (start s.manager c) } where
  shape := hs.shape
  workers := hs.workers
  placed := Trace.forall_update (P := fun _ pc => Pc.Placed s.manager pc) (hs.shape.start_placed c)
    hs.placed
  balance := by
    have hbal := hs.balance
    have hold := Pc.resting_weights hrest s.manager.numShards
    have hnew := start_weights s.manager c
    have hunc := sum_weights_update Pc.uncounted s.pc i (start s.manager c)
    have hunsub := sum_weights_update (Pc.unsubtracted s.manager.numShards) s.pc i
      (start s.manager c)
    simp only [Sys.uncounted, Sys.unsubtracted] at hbal ⊢
    omega

theorem Inv.op {s : Sys n} (hs : Inv s) {i : Fin n} {pc' : Pc} {m' : Manager}
    (heff : Effect s.manager (s.pc i) pc' m') :
    Inv { s with manager := m', pc := Function.update s.pc i pc',
                 leaked := s.leaked + shortfall s.manager (s.pc i) } := by
  obtain ⟨hN, hshards, hreceivers⟩ := heff.frame
  refine ⟨⟨?_, ?_, ?_⟩, ?_, ?_, ?_⟩
  · rw [hN]; exact hs.shape.size
  · rw [hN, hshards]; exact hs.shape.shards
  · rw [hN, hreceivers]; exact hs.shape.receivers
  · rw [hN]; exact hs.workers
  · exact Trace.forall_update (P := fun _ pc => Pc.Placed _ pc) (heff.placed hs.shape (hs.placed i))
      fun j => (hs.placed j).congr hN hshards
  · have hbal := hs.balance
    have hone := heff.balance (hs.placed i)
    have hunc := sum_weights_update Pc.uncounted s.pc i pc'
    have hunsub := sum_weights_update (Pc.unsubtracted s.manager.numShards) s.pc i pc'
    simp only [Sys.uncounted, Sys.unsubtracted, hN] at hbal ⊢
    omega

theorem Inv.getReceiver {s : Sys n} (hs : Inv s) (id : Nat) :
    Inv { s with manager := (s.manager.getReceiver id).2
                 workers := Function.update s.workers id
                   (s.workers id || (s.manager.getReceiver id).1) } where
  shape := by
    refine ⟨hs.shape.size, hs.shape.shards, fun j hj => hs.shape.receivers j ?_⟩
    change Function.update s.manager.receivers id false j = true at hj
    rcases eq_or_ne j id with rfl | hne
    · rw [Function.update_self] at hj
      cases hj
    · rwa [Function.update_of_ne hne] at hj
  workers j hj := by
    change Function.update s.workers id (s.workers id || s.manager.receivers id) j = true at hj
    rcases eq_or_ne j id with rfl | hne
    · rw [Function.update_self, Bool.or_eq_true] at hj
      exact hj.elim (hs.workers j) (hs.shape.receivers j)
    · rw [Function.update_of_ne hne] at hj
      exact hs.workers j hj
  placed j := (hs.placed j).congr rfl rfl
  balance := hs.balance

/-- The step that breaks the count: the queue shrinks, the counter does not hear of it. -/
theorem Inv.workerRecv {s : Sys n} (hs : Inv s) {id : Nat} {msg : Message} {rest : List Message}
    (hworker : s.workers id = true) (hq : s.manager.channel id = msg :: rest) :
    Inv { s with
      manager := { s.manager with channel := Function.update s.manager.channel id rest }
      leaked := s.leaked + if s.manager.isRegularShard id then 1 else 0 } where
  shape := ⟨hs.shape.size, hs.shape.shards, hs.shape.receivers⟩
  workers := hs.workers
  placed j := (hs.placed j).congr rfl rfl
  balance := by
    have hbal := hs.balance
    have hqueued := s.manager.queued_update id rest
    have hreg := Manager.isRegularShard_iff (hs.workers id hworker)
    rw [hq, List.length_cons] at hqueued
    simp only [Sys.uncounted, Sys.unsubtracted, hreg] at hbal ⊢
    split at hqueued
    · rw [if_pos ‹_›]
      omega
    · rw [if_neg ‹_›]
      omega

/-- **One step of the system keeps the invariant.** -/
theorem Inv.step {s t : Sys n} {a : Act n} (h : step s a = some t) (hs : Inv s) : Inv t := by
  cases a with
  | call i c =>
    rw [Sharding.step] at h
    split at h
    · cases h
      exact hs.call ‹_› c
    · cases h
  | op i =>
    obtain ⟨⟨pc', m'⟩, hat, rfl⟩ := Option.map_eq_some_iff.mp h
    exact hs.op (atomic_effect hat)
  | getReceiver id =>
    cases h
    exact hs.getReceiver id
  | workerRecv id =>
    rw [Sharding.step] at h
    split at h
    · cases h
      exact hs.workerRecv ‹_› ‹_›
    · cases h

/-! ## What a run leaks -/

/-- What a step takes out of the regular shards behind the counter's back. -/
def leak (s : Sys n) : Act n → Nat
  | .op i => shortfall s.manager (s.pc i)
  | .workerRecv id => if s.manager.isRegularShard id then 1 else 0
  | _ => 0

/-- A step that keeps the counter honest: no worker receives from a regular shard, and no drain
    subtracts more than the counter holds. -/
def Accounted (s : Sys n) : Act n → Prop
  | .op i => match s.pc i with
    | .subTotal messages => messages.length ≤ s.manager.totalRegularMessages
    | _ => True
  | .workerRecv id => s.manager.isRegularShard id = false
  | _ => True

theorem accounted_iff (s : Sys n) (a : Act n) : Accounted s a ↔ leak s a = 0 := by
  cases a with
  | call i c => exact iff_of_true trivial rfl
  | getReceiver id => exact iff_of_true trivial rfl
  | op i =>
    show (match s.pc i with | .subTotal messages => _ | _ => True) ↔ shortfall s.manager (s.pc i) = 0
    cases s.pc i with
    | subTotal messages => exact Nat.sub_eq_zero_iff_le.symm
    | _ => exact iff_of_true trivial rfl
  | workerRecv id =>
    show s.manager.isRegularShard id = false ↔ (if s.manager.isRegularShard id then 1 else 0) = 0
    cases s.manager.isRegularShard id <;> simp

theorem leaked_step {s t : Sys n} {a : Act n} (h : step s a = some t) :
    t.leaked = s.leaked + leak s a := by
  cases a with
  | call i c =>
    rw [step] at h
    split at h
    · cases h; rfl
    · cases h
  | op i =>
    obtain ⟨x, -, rfl⟩ := Option.map_eq_some_iff.mp h
    rfl
  | getReceiver id => cases h; rfl
  | workerRecv id =>
    rw [step] at h
    split at h
    · cases h; rfl
    · cases h

/-- **What the counter is worth.**  In every state of every run it equals the queue exactly if the
    sends not yet counted balance the receives not yet subtracted and what has leaked; nothing has
    leaked exactly if every step so far was accounted for; and then, with no drain half-way, a push
    is refused only at a queue that really holds the limit. -/
theorem counter_eq_queued_iff {numShards : Nat} (hN : numShards < 2 ^ 64) (shardSize now : Nat)
    (as : List (Act n)) (s : Sys n)
    (hrun : Trace.run step (Sys.init n numShards shardSize now) as = some s) :
    (s.manager.totalRegularMessages = s.manager.queued ↔
      s.uncounted = s.unsubtracted + s.leaked) ∧
    (s.leaked = 0 ↔ Trace.Along step Accounted (Sys.init n numShards shardSize now) as) ∧
    (Trace.Along step Accounted (Sys.init n numShards shardSize now) as → s.unsubtracted = 0 →
      ∀ i msg t, s.pc i = .loadTotal msg → step s (.op i) = some t →
        t.pc i = .drop .backpressure → s.manager.backpressureLimit ≤ s.manager.queued) := by
  have hinv : Inv s := Trace.invariant (fun _ _ _ h => Inv.step h) as _ s hrun (.init hN shardSize now)
  have hbal := hinv.balance
  have hleak : s.leaked = 0 ↔ Trace.Along step Accounted (Sys.init n numShards shardSize now) as :=
    (Trace.along_iff_of_cost (fun _ _ _ h => leaked_step h) accounted_iff as _ s hrun).2.symm
  refine ⟨by omega, hleak, ?_⟩
  intro hacc hunsub i msg t hpc ht hdrop
  have hzero : s.leaked = 0 := hleak.mpr hacc
  obtain ⟨⟨pc', m'⟩, hat, rfl⟩ := Option.map_eq_some_iff.mp ht
  obtain rfl : pc' = .drop .backpressure := by rwa [← Function.update_self i pc' s.pc]
  rw [hpc] at hat
  cases atomic_effect hat with
  | shut msg hgate => omega

/-- A short message to run with. -/
def telemetry : Message := .new .nidd [1, 2, 3] .operational 0

/-- Two shards of size two have room for one regular message: one push, and a second under way. -/
def refusedRun : List (Act 1) :=
  [.call 0 (.push telemetry), .op 0, .op 0, .op 0, .op 0, .op 0, .call 0 (.push telemetry)]

/-- The second push is refused, and rightly so. -/
theorem counter_eq_queued_iff_refused :
    ∃ s t : Sys 1, Trace.run step (Sys.init 1 2 2 0) refusedRun = some s ∧
      step s (.op 0) = some t ∧ t.pc 0 = .drop .backpressure ∧
      s.manager.backpressureLimit ≤ s.manager.queued := by
  have hview : (Trace.run step (Sys.init 1 2 2 0) refusedRun).map
      (fun s => (s.pc 0, s.unsubtracted, s.manager.totalRegularMessages,
        s.manager.backpressureLimit)) = some (.loadTotal telemetry, 0, 1, 1) := rfl
  obtain ⟨s, hs, hview⟩ := Option.map_eq_some_iff.mp hview
  simp only [Prod.mk.injEq] at hview
  obtain ⟨hpc, hunsub, htotal, hlimit⟩ := hview
  have hload : atomic s.manager (s.pc 0) = some (.drop .backpressure, s.manager) := by
    rw [hpc, atomic, if_pos (by omega)]
  have hacc : Trace.Along step Accounted (Sys.init 1 2 2 0) refusedRun :=
    ⟨trivial, trivial, trivial, trivial, trivial, trivial, trivial, trivial⟩
  have ht : step s (.op 0) = some { s with
      pc := Function.update s.pc 0 (.drop .backpressure)
      leaked := s.leaked + shortfall s.manager (s.pc 0) } := by
    rw [step, hload]
    rfl
  have hdrop := Function.update_self 0 (Pc.drop .backpressure) s.pc
  exact ⟨s, _, hs, ht, hdrop, (counter_eq_queued_iff (by decide) 2 0 refusedRun s hs).2.2 hacc
    hunsub 0 telemetry _ hpc ht hdrop⟩

/-- **The gate locks.**  A push, and a worker takes the message: the queue is empty, nothing is under
    way, the counter still says one, which is the limit, and the next push is refused. -/
theorem gate_shut_on_empty :
    (Trace.run step (Sys.init 1 2 2 0)
        [.getReceiver 1, .call 0 (.push telemetry), .op 0, .op 0, .op 0, .op 0, .op 0,
          .workerRecv 1]).map
      (fun s => (s.manager.totalRegularMessages, s.manager.queued, s.uncounted, s.unsubtracted,
        s.manager.backpressureLimit, (s.manager.push telemetry).1)) =
    some (1, 0, 0, 0, 1, .err .backpressure) := by
  rfl

end Sharding

end FloatProtocols
