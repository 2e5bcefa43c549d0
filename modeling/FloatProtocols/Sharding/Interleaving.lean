/-
  The shard manager under overlapping calls and workers, one step per atomic access.

  A call is a thread: the load of the counter, the round robin, the channel operation and the update
  of the counter are SEPARATE steps of `atomic`, and `Effect` lists everything one of them can do.
  Workers are the other consumers: `workerRecv` takes a message from a receiver that `getReceiver`
  handed out, and touches no counter.  `solo_push`, `solo_offer` and `solo_drain` are the bridge to
  the sequential calls: a thread that runs alone does what they say.

  `getReceiver` may here strike in the middle of a drain, which the map's lock rules out in the
  source: the runs below include all of the source's in which the workers keep their receivers.
-/
import Mathlib.Logic.Function.Basic
import FloatProtocols.Sharding.Manager

namespace FloatProtocols

namespace Sharding

open Wire

/-! ## Calls as threads -/

/-- The four calls. -/
inductive Call where
  | push (msg : Message)
  | pushSpread (msg : Message)
  | pushDeadzone (msg : Message)
  | drain (id : Nat)

/-- The access a call is about to make; `counted` marks a `push`, which counts what it sent. -/
inductive Pc where
  | idle
  | loadTotal (msg : Message)
  | drop (e : ShardError)
  | select (msg : Message)
  | allocate (id : Nat) (msg : Message) (counted : Bool)
  | trySend (id : Nat) (msg : Message) (counted : Bool)
  | addTotal (id : Nat)
  | tryRecv (id : Nat) (messages : List Message)
  | subTotal (messages : List Message)
  | returned (r : Exec ShardError Nat)
  | drained (messages : List Message)

/-- Where a call starts; `drain` looks its receiver up first and then keeps hold of it. -/
def start (m : Manager) : Call → Pc
  | .push msg => .loadTotal msg
  | .pushSpread msg => .allocate m.spreadShardId msg false
  | .pushDeadzone msg => .allocate Manager.deadzoneShardId msg false
  | .drain id => if m.receivers id then .tryRecv id [] else .drained []

/-- One access. -/
def atomic (m : Manager) : Pc → Option (Pc × Manager)
  | .loadTotal msg =>
    some (if m.totalRegularMessages ≥ m.backpressureLimit then .drop .backpressure
      else .select msg, m)
  | .drop e => some (.returned (.err e), { m with messagesDropped := m.messagesDropped + 1 })
  | .select msg =>
    if m.regularCount = 0 then some (.returned .panic, m)
    else some (.allocate (1 + m.roundRobin % m.regularCount) msg true,
      { m with roundRobin := (m.roundRobin + 1) % 2 ^ 64 })
  | .allocate id msg counted =>
    some (.trySend id msg counted, { m with messagesAllocated := m.messagesAllocated + 1 })
  | .trySend id msg counted =>
    match m.shards id with
    | some shard =>
      if m.hasRoom id shard then
        some (if counted then .addTotal id else .returned (.ok id), m.send id msg)
      else some (.returned (.err .full), m)
    | none => some (.drop .notFound, m)
  | .addTotal id =>
    some (.returned (.ok id), { m with totalRegularMessages := m.totalRegularMessages + 1 })
  | .tryRecv id messages =>
    match m.channel id with
    | msg :: rest =>
      some (.tryRecv id (messages ++ [msg]),
        { m with channel := Function.update m.channel id rest })
    | [] =>
      some (if m.isRegularShard id ∧ messages ≠ [] then .subTotal messages else .drained messages, m)
  | .subTotal messages =>
    some (.drained messages,
      { m with totalRegularMessages := m.totalRegularMessages - messages.length })
  | _ => none

/-! ## The bridge to the sequential calls -/

/-- A call left alone for `k` accesses. -/
def solo : Nat → Pc × Manager → Option (Pc × Manager)
  | 0, x => some x
  | k + 1, x => (atomic x.2 x.1).bind (solo k)

theorem solo_succ {k : Nat} {pc : Pc} {m : Manager} {x : Pc × Manager}
    (h : atomic m pc = some x) : solo (k + 1) (pc, m) = solo k x := by
  show (atomic m pc).bind (solo k) = _
  rw [h]
  rfl

theorem solo_snoc (k : Nat) (x : Pc × Manager) :
    solo (k + 1) x = (solo k x).bind fun y => atomic y.2 y.1 := by
  induction k generalizing x with
  | zero =>
    show (atomic x.2 x.1).bind some = atomic x.2 x.1
    exact Option.bind_fun_some _
  | succ k ih =>
    show (atomic x.2 x.1).bind (solo (k + 1)) = ((atomic x.2 x.1).bind (solo k)).bind _
    rw [Option.bind_assoc]
    exact Option.bind_congr fun y _ => ih y

/-- From the allocation on, a push run alone is `offer`. -/
theorem solo_offer (m : Manager) (id : Nat) (msg : Message) (counted : Bool) :
    ∃ k, solo k (.allocate id msg counted, m) =
      some (.returned (m.offer id msg counted).1, (m.offer id msg counted).2) := by
  rw [Manager.offer]
  rcases hshard : m.shards id with _ | shard
  · exact ⟨3, by simp [solo, atomic, hshard]⟩
  by_cases hroom : m.closed id = false ∧ (m.channel id).length < shard.maxSize
  · cases counted with
    | true => exact ⟨3, by simp [solo, atomic, hshard, Manager.hasRoom, hroom, Manager.send]⟩
    | false => exact ⟨2, by simp [solo, atomic, hshard, Manager.hasRoom, hroom, Manager.send]⟩
  · exact ⟨2, by simp [solo, atomic, hshard, Manager.hasRoom, hroom]⟩

/-- `push` run alone is the sequential `push`. -/
theorem solo_push (m : Manager) (msg : Message) :
    ∃ k, solo k (start m (.push msg), m) = some (.returned (m.push msg).1, (m.push msg).2) := by
  show ∃ k, solo k (.loadTotal msg, m) = _
  by_cases hgate : m.totalRegularMessages ≥ m.backpressureLimit
  · have hload : atomic m (.loadTotal msg) = some (.drop .backpressure, m) := by
      rw [atomic, if_pos hgate]
    refine ⟨2, ?_⟩
    rw [Manager.push, if_pos hgate, solo_succ hload, solo_succ rfl, solo]
  have hload : atomic m (.loadTotal msg) = some (.select msg, m) := by
    rw [atomic, if_neg hgate]
  rw [Manager.push, if_neg hgate]
  by_cases hcount : m.regularCount = 0
  · have hselect : atomic m (.select msg) = some (.returned .panic, m) := by
      rw [atomic, if_pos hcount]
    refine ⟨2, ?_⟩
    rw [if_pos hcount, solo_succ hload, solo_succ hselect, solo]
  have hselect : atomic m (.select msg) =
      some (.allocate (1 + m.roundRobin % m.regularCount) msg true,
        { m with roundRobin := (m.roundRobin + 1) % 2 ^ 64 }) := by
    rw [atomic, if_neg hcount]
  obtain ⟨k, hk⟩ := solo_offer { m with roundRobin := (m.roundRobin + 1) % 2 ^ 64 }
    (1 + m.roundRobin % m.regularCount) msg true
  refine ⟨k + 2, ?_⟩
  rw [if_neg hcount, solo_succ hload, solo_succ hselect, hk]

/-- The receive loop empties the channel into its accumulator. -/
theorem solo_tryRecv (id : Nat) (q : List Message) :
    ∀ (m : Manager) (acc : List Message), m.channel id = q →
      solo (q.length + 1) (.tryRecv id acc, m) =
        some (if m.isRegularShard id ∧ acc ++ q ≠ [] then .subTotal (acc ++ q)
          else .drained (acc ++ q), { m with channel := Function.update m.channel id [] }) := by
  induction q with
  | nil =>
    intro m acc hq
    have hsame : Function.update m.channel id [] = m.channel := by
      rw [← hq, Function.update_eq_self]
    simp [solo, atomic, hq, hsame]
  | cons msg rest ih =>
    intro m acc hq
    have hstep : atomic m (.tryRecv id acc) = some (.tryRecv id (acc ++ [msg]),
        { m with channel := Function.update m.channel id rest }) := by
      simp [atomic, hq]
    show (atomic m (.tryRecv id acc)).bind (solo (rest.length + 1)) = _
    rw [hstep, Option.bind_some, ih _ _ (Function.update_self ..)]
    simp only [Function.update_idem, List.append_assoc, List.singleton_append]
    rfl

/-- `drain_shard` run alone is the sequential `drainShard`. -/
theorem solo_drain (m : Manager) (id : Nat) :
    ∃ k, solo k (start m (.drain id), m) =
      some (.drained (m.drainShard id).1, (m.drainShard id).2) := by
  rw [start, Manager.drainShard]
  by_cases hrx : m.receivers id = true
  · have hloop := solo_tryRecv id (m.channel id) m [] rfl
    rw [List.nil_append] at hloop
    simp only [if_pos hrx]
    by_cases hsub : m.isRegularShard id = true ∧ m.channel id ≠ []
    · refine ⟨(m.channel id).length + 2, ?_⟩
      rw [if_pos hsub] at hloop
      rw [solo_snoc, hloop, Option.bind_some, if_pos (by exact hsub)]
      rfl
    · refine ⟨(m.channel id).length + 1, ?_⟩
      rw [hloop, if_neg hsub, if_neg (by exact hsub)]
  · refine ⟨0, ?_⟩
    simp only [solo, if_neg hrx, ne_eq, not_true_eq_false, and_false, if_false]

/-- **What one access can do**, every branch of `atomic` with its guard. -/
inductive Effect (m : Manager) : Pc → Pc → Manager → Prop where
  | shut (msg : Message) (h : m.totalRegularMessages ≥ m.backpressureLimit) :
    Effect m (.loadTotal msg) (.drop .backpressure) m
  | opened (msg : Message) (h : ¬ m.totalRegularMessages ≥ m.backpressureLimit) :
    Effect m (.loadTotal msg) (.select msg) m
  | dropped (e : ShardError) :
    Effect m (.drop e) (.returned (.err e)) { m with messagesDropped := m.messagesDropped + 1 }
  | aborted (msg : Message) (h : m.regularCount = 0) : Effect m (.select msg) (.returned .panic) m
  | selected (msg : Message) (h : m.regularCount ≠ 0) :
    Effect m (.select msg) (.allocate (1 + m.roundRobin % m.regularCount) msg true)
      { m with roundRobin := (m.roundRobin + 1) % 2 ^ 64 }
  | allocated (id : Nat) (msg : Message) (counted : Bool) :
    Effect m (.allocate id msg counted) (.trySend id msg counted)
      { m with messagesAllocated := m.messagesAllocated + 1 }
  | sent (id : Nat) (msg : Message) (counted : Bool) (h : m.shards id ≠ none) :
    Effect m (.trySend id msg counted) (if counted then .addTotal id else .returned (.ok id))
      (m.send id msg)
  | full (id : Nat) (msg : Message) (counted : Bool) :
    Effect m (.trySend id msg counted) (.returned (.err .full)) m
  | missing (id : Nat) (msg : Message) (counted : Bool) :
    Effect m (.trySend id msg counted) (.drop .notFound) m
  | counted (id : Nat) :
    Effect m (.addTotal id) (.returned (.ok id))
      { m with totalRegularMessages := m.totalRegularMessages + 1 }
  | received (id : Nat) (acc : List Message) (msg : Message) (rest : List Message)
      (h : m.channel id = msg :: rest) :
    Effect m (.tryRecv id acc) (.tryRecv id (acc ++ [msg]))
      { m with channel := Function.update m.channel id rest }
  | emptied (id : Nat) (acc : List Message) :
    Effect m (.tryRecv id acc)
      (if m.isRegularShard id ∧ acc ≠ [] then .subTotal acc else .drained acc) m
  | subtracted (acc : List Message) :
    Effect m (.subTotal acc) (.drained acc)
      { m with totalRegularMessages := m.totalRegularMessages - acc.length }

theorem atomic_effect {m m' : Manager} {pc pc' : Pc} (h : atomic m pc = some (pc', m')) :
    Effect m pc pc' m' := by
  cases pc with
  | idle => cases h
  | returned r => cases h
  | drained messages => cases h
  | drop e => cases h; exact .dropped e
  | allocate id msg counted => cases h; exact .allocated id msg counted
  | addTotal id => cases h; exact .counted id
  | subTotal messages => cases h; exact .subtracted messages
  | loadTotal msg =>
    by_cases hgate : m.totalRegularMessages ≥ m.backpressureLimit
    · rw [atomic, if_pos hgate] at h
      cases h
      exact .shut msg hgate
    · rw [atomic, if_neg hgate] at h
      cases h
      exact .opened msg hgate
  | select msg =>
    by_cases hcount : m.regularCount = 0
    · rw [atomic, if_pos hcount] at h
      cases h
      exact .aborted msg hcount
    · rw [atomic, if_neg hcount] at h
      cases h
      exact .selected msg hcount
  | trySend id msg counted =>
    rcases hshard : m.shards id with _ | shard
    · simp only [atomic, hshard] at h
      cases h
      exact .missing id msg counted
    · by_cases hroom : m.hasRoom id shard = true
      · simp only [atomic, hshard, if_pos hroom] at h
        cases h
        exact .sent id msg counted (by rw [hshard]; exact Option.some_ne_none shard)
      · simp only [atomic, hshard, if_neg hroom] at h
        cases h
        exact .full id msg counted
  | tryRecv id messages =>
    rcases hq : m.channel id with _ | ⟨msg, rest⟩
    · simp only [atomic, hq] at h
      cases h
      exact .emptied id messages
    · simp only [atomic, hq] at h
      cases h
      exact .received id messages msg rest hq

/-! ## Threads and workers together -/

/-- The manager, what each of `n` threads is at, the receivers workers hold, and `leaked`, which no
    code reads: the messages that left a regular shard without leaving the counter. -/
structure Sys (n : Nat) where
  manager : Manager
  pc : Fin n → Pc
  workers : Nat → Bool
  leaked : Nat

/-- What can happen next. -/
inductive Act (n : Nat) where
  | call (i : Fin n) (c : Call)
  | op (i : Fin n)
  | getReceiver (id : Nat)
  | workerRecv (id : Nat)

/-- Between calls. -/
def Pc.resting : Pc → Bool
  | .idle | .returned _ | .drained _ => true
  | _ => false

/-- What a subtraction is short of: `fetch_update` saturates at zero. -/
def shortfall (m : Manager) : Pc → Nat
  | .subTotal messages => messages.length - m.totalRegularMessages
  | _ => 0

/-- One step.  `run` and `run_batched` both consume a channel one receive at a time. -/
def step {n : Nat} (s : Sys n) : Act n → Option (Sys n)
  | .call i c =>
    if (s.pc i).resting then
      some { s with pc := Function.update s.pc i (start s.manager c) }
    else none
  | .op i =>
    (atomic s.manager (s.pc i)).map fun x =>
      { s with manager := x.2, pc := Function.update s.pc i x.1,
               leaked := s.leaked + shortfall s.manager (s.pc i) }
  | .getReceiver id =>
    let (found, m) := s.manager.getReceiver id
    some { s with manager := m, workers := Function.update s.workers id (s.workers id || found) }
  | .workerRecv id =>
    match s.workers id, s.manager.channel id with
    | true, _ :: rest =>
      some { s with
        manager := { s.manager with channel := Function.update s.manager.channel id rest }
        leaked := s.leaked + if s.manager.isRegularShard id then 1 else 0 }
    | _, _ => none

/-- A fresh manager and `n` threads yet to call. -/
def Sys.init (n numShards shardSize now : Nat) : Sys n where
  manager := .new numShards shardSize now
  pc _ := .idle
  workers _ := false
  leaked := 0

end Sharding

end FloatProtocols
