/-
  The three pushes, one after another: what they place and what they count.

  A push is refused at the gate, finds no shard, finds its shard full, or places its message
  (`perform_refused`, `perform_cases`).  Two results about whole runs rest on these
  cases:

  * the leak counters (`leak_balance_iff`): `allocated - dropped` is what the shards hold exactly if no
    push was refused at the gate or by a full shard;
  * the round robin (`round_robin_even`): the gate closes before any regular shard is full, so that
    `push` deals its messages out evenly.
-/
import FloatProtocols.Lib.RoundRobin
import FloatProtocols.Sharding.Manager

namespace FloatProtocols

namespace Sharding

open Wire

/-- The three pushes. -/
inductive Push where
  | regular (msg : Message)
  | spread (msg : Message)
  | deadzone (msg : Message)

namespace Push

/-- The message pushed. -/
def message : Push → Message
  | regular msg | spread msg | deadzone msg => msg

/-- Only `push` counts what it sent. -/
def counted : Push → Bool
  | regular _ => true
  | _ => false

end Push

/-- Everything that changes a manager, one call at a time. -/
inductive Op where
  | push (p : Push)
  | getReceiver (id : Nat)
  | drainShard (id : Nat)
  | workerRecv (id : Nat)
  | dropReceiver (id : Nat) (discards : Bool)
  | getShard (now : Nat) (protocol : Protocol)
  | evictIdle (now idleThreshold : Nat)
  | resetLeakStats

namespace Manager

/-- One push. -/
def perform (m : Manager) : Push → Exec ShardError Nat × Manager
  | .regular msg => m.push msg
  | .spread msg => m.pushSpread msg
  | .deadzone msg => m.pushDeadzone msg

/-- Pushes one after another. -/
def pushes (m : Manager) (ps : List Push) : Manager := ps.foldl (fun m p => (m.perform p).2) m

/-- One call. -/
def apply (m : Manager) : Op → Manager
  | .push p => (m.perform p).2
  | .getReceiver id => (m.getReceiver id).2
  | .drainShard id => (m.drainShard id).2
  | .workerRecv id => m.workerRecv id
  | .dropReceiver id discards => m.dropReceiver id discards
  | .getShard now protocol => (m.getShard now protocol).2
  | .evictIdle now idleThreshold => m.evictIdle now idleThreshold
  | .resetLeakStats => m.resetLeakStats

/-- A history of calls. -/
def after (m : Manager) (ops : List Op) : Manager := ops.foldl apply m

/-! ## The cases of a push -/

/-- The gate, which only `push` has. -/
def GateOpen (m : Manager) : Push → Prop
  | .regular _ => m.totalRegularMessages < m.backpressureLimit
  | _ => True

/-- The shard a push goes to. -/
def target (m : Manager) : Push → Nat
  | .regular _ => 1 + m.roundRobin % m.regularCount
  | .spread _ => m.spreadShardId
  | .deadzone _ => deadzoneShardId

/-- The manager once the shard is picked: `push` has moved the round robin on. -/
def picked (m : Manager) : Push → Manager
  | .regular _ => { m with roundRobin := (m.roundRobin + 1) % 2 ^ 64 }
  | _ => m

/-- Without a regular shard the limit is 0 and the gate never opens. -/
theorem regularCount_ne_zero {m : Manager} (h : m.totalRegularMessages < m.backpressureLimit) :
    m.regularCount ≠ 0 := by
  intro hzero
  rw [backpressureLimit, hzero] at h
  simp at h

theorem perform_refused {m : Manager} {p : Push} (h : ¬ m.GateOpen p) :
    p.counted = true ∧ m.totalRegularMessages ≥ m.backpressureLimit ∧
      m.perform p = (.err .backpressure, { m with messagesDropped := m.messagesDropped + 1 }) := by
  cases p with
  | regular msg =>
    have hge : m.totalRegularMessages ≥ m.backpressureLimit := Nat.le_of_not_lt h
    exact ⟨rfl, hge, if_pos hge⟩
  | spread _ => exact absurd trivial h
  | deadzone _ => exact absurd trivial h

/-- Past the gate the three pushes are one. -/
theorem perform_offered {m : Manager} {p : Push} (h : m.GateOpen p) :
    m.perform p = (m.picked p).offer (m.target p) p.message p.counted := by
  cases p with
  | regular msg =>
    show m.push msg = _
    rw [push, if_neg (Nat.not_le_of_lt h), if_neg (regularCount_ne_zero h)]
    rfl
  | spread _ => rfl
  | deadzone _ => rfl

/-- An offer finds no shard, finds it full, or places its message. -/
theorem offer_cases (m : Manager) (id : Nat) (msg : Message) (counted : Bool) :
    (m.shards id = none ∧ m.offer id msg counted = (.err .notFound, { m with
      messagesAllocated := m.messagesAllocated + 1, messagesDropped := m.messagesDropped + 1 })) ∨
    (∃ shard, m.shards id = some shard ∧ m.hasRoom id shard = false ∧
      m.offer id msg counted =
        (.err .full, { m with messagesAllocated := m.messagesAllocated + 1 })) ∨
    ∃ shard, m.shards id = some shard ∧ m.hasRoom id shard = true ∧
      m.offer id msg counted = (.ok id, { m.send id msg with
        messagesAllocated := m.messagesAllocated + 1
        totalRegularMessages := m.totalRegularMessages + if counted then 1 else 0 }) := by
  rw [offer]
  rcases hshard : m.shards id with _ | shard
  · exact .inl ⟨rfl, rfl⟩
  rcases hroom : m.hasRoom id shard with _ | _
  · have hroom' : ¬ ({ m with messagesAllocated := m.messagesAllocated + 1 } : Manager).hasRoom id shard = true :=
      Bool.eq_false_iff.mp hroom
    exact .inr (.inl ⟨shard, rfl, hroom, if_neg hroom'⟩)
  · have hroom' : ({ m with messagesAllocated := m.messagesAllocated + 1 } : Manager).hasRoom id shard = true :=
      hroom
    exact .inr (.inr ⟨shard, rfl, hroom, if_pos hroom'⟩)

/-- Past the gate, so does a push. -/
theorem perform_cases {m : Manager} {p : Push} (h : m.GateOpen p) :
    (m.shards (m.target p) = none ∧ m.perform p = (.err .notFound, { m.picked p with
      messagesAllocated := m.messagesAllocated + 1, messagesDropped := m.messagesDropped + 1 })) ∨
    (∃ shard, m.shards (m.target p) = some shard ∧ m.hasRoom (m.target p) shard = false ∧
      m.perform p = (.err .full, { m.picked p with messagesAllocated := m.messagesAllocated + 1 })) ∨
    ∃ shard, m.shards (m.target p) = some shard ∧ m.hasRoom (m.target p) shard = true ∧
      m.perform p = (.ok (m.target p), { (m.picked p).send (m.target p) p.message with
        messagesAllocated := m.messagesAllocated + 1
        totalRegularMessages := m.totalRegularMessages + if p.counted then 1 else 0 }) := by
  have hoffer := offer_cases (m.picked p) (m.target p) p.message p.counted
  rw [← perform_offered h] at hoffer
  cases p <;> exact hoffer

/-- The limit is a tenth of a u64. -/
theorem backpressureLimit_lt (m : Manager) : m.backpressureLimit < 2 ^ 64 - 1 := by
  rw [backpressureLimit]
  omega

/-- Behind the open gate, after `a` turns: the shard whose turn it is takes the message, if it is there
    and has room. -/
theorem push_turn {m : Manager} {r a : Nat} (hcount : m.regularCount = r) (hturn : m.roundRobin = a)
    (htotal : m.totalRegularMessages = a) (hlt : a < m.backpressureLimit) (msg : Message) :
    (m.shards (1 + a % r) = none → (m.push msg).1 = .err .notFound) ∧
    ∀ shard, m.shards (1 + a % r) = some shard → m.hasRoom (1 + a % r) shard = true →
      m.push msg = (.ok (1 + a % r), { m.send (1 + a % r) msg with
        roundRobin := a + 1
        messagesAllocated := m.messagesAllocated + 1
        totalRegularMessages := a + 1 }) := by
  have hgate : m.GateOpen (.regular msg) := by
    show m.totalRegularMessages < m.backpressureLimit
    rw [htotal]
    exact hlt
  have htarget : m.target (.regular msg) = 1 + a % r := by rw [target, hturn, hcount]
  have hnext : (m.roundRobin + 1) % 2 ^ 64 = a + 1 := by
    have := m.backpressureLimit_lt
    rw [hturn]
    omega
  have hcases := perform_cases hgate
  rw [htarget] at hcases
  rcases hcases with ⟨hnone, hrun⟩ | ⟨shard, hshard, hfull, -⟩ | ⟨shard, hshard, -, hrun⟩
  · refine ⟨fun _ => congrArg Prod.fst hrun, fun shard hshard => ?_⟩
    rw [hnone] at hshard
    cases hshard
  · refine ⟨fun hnone => ?_, fun shard' hshard' hroom => ?_⟩
    · rw [hnone] at hshard
      cases hshard
    · obtain rfl := Option.some.inj (hshard.symm.trans hshard')
      rw [hroom] at hfull
      cases hfull
  · refine ⟨fun hnone => ?_, fun _ _ _ => ?_⟩
    · rw [hnone] at hshard
      cases hshard
    · refine Eq.trans hrun ?_
      rw [picked, hnext, ← htotal]
      rfl

/-! ## The leak counters -/

/-- No shard is above the spread shard. -/
def Bounded (m : Manager) : Prop := ∀ id, (m.shards id).isSome → id ≤ m.numShards

/-- What the counters and the shards have to agree on. -/
def Balanced (m : Manager) : Prop :=
  (m.leakStats.allocated : Int) - m.leakStats.dropped = m.stats.totalMessages

/-- If this push is rejected, it is counted once as dropped and once as allocated. -/
def Counted (m : Manager) (p : Push) : Prop :=
  ∀ e, (m.perform p).1 = .err e →
    (m.perform p).2.leakStats = ⟨m.leakStats.allocated + 1, m.leakStats.dropped + 1⟩

/-- The gate lets this push through, and its shard, if there is one, takes the message. -/
def Admits (m : Manager) (p : Push) : Prop :=
  m.GateOpen p ∧ ∀ shard, m.shards (m.target p) = some shard → m.hasRoom (m.target p) shard = true

/-- A run of pushes, for the induction on runs. -/
def step (m : Manager) (p : Push) : Option Manager := some (m.perform p).2

theorem run_step (ps : List Push) : ∀ m : Manager, Trace.run step m ps = some (m.pushes ps) := by
  induction ps with
  | nil => exact fun _ => rfl
  | cons p ps ih => exact fun m => ih (m.perform p).2

/-- A push is counted right exactly if it is let in: at the gate it is dropped without having been
    allocated, at a full shard it is allocated and never dropped. -/
theorem counted_iff_admits (m : Manager) (p : Push) : m.Counted p ↔ m.Admits p := by
  by_cases hgate : m.GateOpen p
  · have hleak : (m.picked p).leakStats = m.leakStats := by cases p <;> rfl
    rcases perform_cases hgate with
      ⟨hnone, hrun⟩ | ⟨shard, hshard, hroom, hrun⟩ | ⟨shard, hshard, hroom, hrun⟩
    · -- no shard: the push is counted on both sides
      refine iff_of_true (fun e _ => ?_) ⟨hgate, fun shard hshard => ?_⟩
      · rw [hrun]
        rfl
      · rw [hnone] at hshard
        cases hshard
    · -- a full shard: allocated, and left before the drop is counted
      refine iff_of_false (fun hcounted => ?_) (fun hadmits => ?_)
      · have h := hcounted .full (by rw [hrun])
        rw [hrun, ← hleak] at h
        have hdropped := congrArg LeakStats.dropped h
        exact absurd hdropped (Nat.ne_of_lt (Nat.lt_succ_self _))
      · rw [hadmits.2 shard hshard] at hroom
        cases hroom
    · refine iff_of_true (fun e he => ?_) ⟨hgate, fun shard' hshard' => ?_⟩
      · rw [hrun] at he
        cases he
      · obtain rfl := Option.some.inj (hshard.symm.trans hshard')
        exact hroom
  · obtain ⟨-, -, hrun⟩ := perform_refused hgate
    -- the gate: dropped, and left before the allocation is counted
    refine iff_of_false (fun hcounted => ?_) (fun hadmits => hgate hadmits.1)
    have h := hcounted .backpressure (by rw [hrun])
    rw [hrun] at h
    have hallocated := congrArg LeakStats.allocated h
    exact absurd hallocated (Nat.ne_of_lt (Nat.lt_succ_self _))

theorem mem_ids {m : Manager} (hm : m.Bounded) {id : Nat} {shard : MemoryShard}
    (h : m.shards id = some shard) : id ∈ m.ids := by
  have hsome : (m.shards id).isSome = true := by rw [h]; rfl
  exact Finset.mem_filter.mpr ⟨Finset.mem_range.mpr (Nat.lt_succ_of_le (hm id hsome)), hsome⟩

theorem totalMessages_send {m : Manager} {id : Nat} (h : id ∈ m.ids) (msg : Message) :
    (m.send id msg).stats.totalMessages = m.stats.totalMessages + 1 := by
  have hsum := Trace.sum_update h List.length m.channel (m.channel id ++ [msg])
  rw [List.length_append, List.length_singleton] at hsum
  have hnew : ∑ x ∈ m.ids, (Function.update m.channel id (m.channel id ++ [msg]) x).length =
      ∑ x ∈ m.ids, (m.channel x).length + 1 := by omega
  exact hnew

/-- A push that is let in keeps the balance, whether it finds a shard or not. -/
theorem Admits.balanced_iff {m : Manager} (hm : m.Bounded) {p : Push} (h : m.Admits p) :
    (m.perform p).2.Balanced ↔ m.Balanced := by
  have htotal : (m.picked p).stats.totalMessages = m.stats.totalMessages := by cases p <;> rfl
  have hdropped : (m.picked p).leakStats.dropped = m.leakStats.dropped := by cases p <;> rfl
  rcases perform_cases h.1 with ⟨-, hrun⟩ | ⟨shard, hshard, hroom, -⟩ | ⟨shard, hshard, -, hrun⟩
  · rw [hrun]
    show (m.leakStats.allocated + 1 : Nat) - (m.leakStats.dropped + 1 : Nat) =
      ((m.picked p).stats.totalMessages : Int) ↔ _
    rw [Balanced]
    omega
  · rw [h.2 shard hshard] at hroom
    cases hroom
  · have hmem : m.target p ∈ (m.picked p).ids := by
      have hm' := mem_ids hm hshard
      cases p <;> exact hm'
    have hsend := totalMessages_send hmem p.message
    rw [hrun]
    show (m.leakStats.allocated + 1 : Nat) - ((m.picked p).leakStats.dropped : Int) =
      (((m.picked p).send (m.target p) p.message).stats.totalMessages : Int) ↔ _
    rw [Balanced]
    omega

/-! No call puts a shard above the spread shard. -/

theorem shards_perform (m : Manager) (p : Push) :
    (m.perform p).2.shards = m.shards ∧ (m.perform p).2.numShards = m.numShards ∧
      (m.perform p).2.shardSize = m.shardSize := by
  by_cases hgate : m.GateOpen p
  · have hpicked : (m.picked p).shards = m.shards ∧ (m.picked p).numShards = m.numShards ∧
        (m.picked p).shardSize = m.shardSize := by
      cases p <;> exact ⟨rfl, rfl, rfl⟩
    rcases perform_cases hgate with ⟨-, hrun⟩ | ⟨-, -, -, hrun⟩ | ⟨-, -, -, hrun⟩ <;>
      (rw [hrun]; exact hpicked)
  · obtain ⟨-, -, hrun⟩ := perform_refused hgate
    rw [hrun]
    exact ⟨rfl, rfl, rfl⟩

theorem Bounded.perform {m : Manager} (hm : m.Bounded) (p : Push) : (m.perform p).2.Bounded := by
  obtain ⟨hshards, hnum, -⟩ := m.shards_perform p
  rw [Bounded, hshards, hnum]
  exact hm

theorem Bounded.createShard {m : Manager} (hm : m.Bounded) (now : Nat) {id : Nat}
    (hid : id ≤ m.numShards) : (m.createShard now id).Bounded := by
  rw [Manager.createShard]
  split
  · exact hm
  · intro j hj
    rcases eq_or_ne j id with rfl | hne
    · exact hid
    · change (Function.update m.shards id _ j).isSome = true at hj
      rw [Function.update_of_ne hne] at hj
      exact hm j hj

theorem Bounded.apply {m : Manager} (hm : m.Bounded) (op : Op) : (m.apply op).Bounded := by
  cases op with
  | push p => exact hm.perform p
  | getReceiver id => exact hm
  | drainShard id =>
    show (m.drainShard id).2.Bounded
    rw [drainShard]
    split <;> split <;> exact hm
  | workerRecv id =>
    show (m.workerRecv id).Bounded
    rw [workerRecv]
    split <;> exact hm
  | dropReceiver id discards =>
    show (m.dropReceiver id discards).Bounded
    rw [dropReceiver]
    split <;> exact hm
  | getShard now protocol =>
    show (m.getShard now protocol).2.Bounded
    rw [getShard, protocolToShardId]
    by_cases hzero : m.numShards = 0
    · rw [if_pos hzero]
      exact hm
    · rw [if_neg hzero]
      have hlt := Nat.mod_lt (protocolHash protocol) (Nat.pos_of_ne_zero hzero)
      exact hm.createShard now (by omega)
  | evictIdle now idleThreshold =>
    intro id hid
    have hsome : (m.shards id).isSome = true := Option.isSome_of_isSome_filter _ _ hid
    exact hm id hsome
  | resetLeakStats => exact hm

theorem bounded_new (numShards shardSize now : Nat) : (new numShards shardSize now).Bounded := by
  intro id hid
  show id ≤ numShards
  by_contra hlt
  have hnone : (new numShards shardSize now).shards id = none := by
    show (if id = numShards then _ else if id = 0 then _ else if id < numShards then _ else none) = none
    rw [if_neg (by omega), if_neg (by omega), if_neg (by omega)]
  rw [hnone] at hid
  cases hid

theorem Bounded.after {m : Manager} (hm : m.Bounded) (history : List Op) : (m.after history).Bounded :=
  List.foldlRecOn history _ hm fun _ hm op _ => hm.apply op

/-- **The leak counters.**  After any history and a reset, a run of pushes ends with
    `allocated - dropped` equal to what the shards hold, and with every rejection counted once on both
    sides, exactly if the shards held nothing at the reset and every push of the run got past the gate
    and met no shard that was full or had lost its receiver. -/
theorem leak_balance_iff (numShards shardSize now : Nat) (history : List Op) (ps : List Push) :
    let m := ((new numShards shardSize now).after history).resetLeakStats
    ((m.pushes ps).Balanced ∧ Trace.Along step Counted m ps) ↔
      m.stats.totalMessages = 0 ∧ Trace.Along step Admits m ps := by
  intro m
  have hm : m.Bounded := (bounded_new numShards shardSize now).after history
  rw [Trace.along_congr counted_iff_admits]
  refine and_congr_left fun hadmits => ?_
  -- pushes that are let in keep the balance, so what counts is the balance at the reset
  have hkeep : (m.pushes ps).Bounded ∧ ((m.pushes ps).Balanced ↔ m.Balanced) := by
    refine Trace.Along.invariant (P := fun t => t.Bounded ∧ (t.Balanced ↔ m.Balanced)) ?_ ps m _
      hadmits (run_step ps m) ⟨hm, Iff.rfl⟩
    intro s p t hp ht ⟨hs, hbalanced⟩
    obtain rfl := Option.some.inj ht
    exact ⟨hs.perform p, (hp.balanced_iff hs).trans hbalanced⟩
  rw [hkeep.2]
  show ((0 : Nat) : Int) - (0 : Nat) = (m.stats.totalMessages : Int) ↔ _
  omega

/-- **An emergency that is lost without a trace.**  One message fills the deadzone shard of a fresh
    manager; the second is allocated, refused and never dropped.  A push that the gate refuses is
    dropped without having been allocated. -/
theorem full_deadzone_uncounted :
    let m := (new 2 1 0).resetLeakStats
    let sos := Push.deadzone (.new .nidd [1] .emergency 0)
    let reading := Push.regular (.new .nidd [2] .operational 0)
    m.stats.totalMessages = 0 ∧
      (m.pushes [sos, sos]).leakStats = ⟨2, 0⟩ ∧ (m.pushes [sos, sos]).stats.totalMessages = 1 ∧
      (m.pushes [reading]).leakStats = ⟨0, 1⟩ ∧ (m.pushes [reading]).stats.totalMessages = 0 := by
  decide

/-! ## The round robin -/

/-- The pushes to regular shards that were accepted. -/
def accepted (m : Manager) : List Push → Nat
  | [] => 0
  | p :: ps =>
    (if p.counted ∧ (m.perform p).1.isOk then 1 else 0) + (m.perform p).2.accepted ps

/-- `n` shards of `size`, with `a` messages dealt out to the regular ones. -/
structure Dealt (n size a : Nat) (m : Manager) : Prop where
  num : m.numShards = n
  limit : m.backpressureLimit = (n - 1) * size * 8 / 10
  shards : ∀ id ≤ n, ∃ shard, m.shards id = some shard ∧ shard.maxSize = size
  total : m.totalRegularMessages = a
  turn : m.roundRobin = a
  connected : ∀ id, m.closed id = false
  below : a ≤ (n - 1) * size * 8 / 10
  load : ∀ id, 1 ≤ id → id < n → (m.channel id).length = RoundRobin.share (n - 1) a id

section Dealing

variable {n size a : Nat} {m : Manager}

/-- While nothing overflows, the gate and the round robin compute with `n - 1` regular shards. -/
theorem regularCount_of_fits (hfit : (n - 1) * size * 8 < 2 ^ 64) (hsize : 0 < size) (hn : 2 ≤ n)
    (hm : m.numShards = n) : m.regularCount = n - 1 := by
  have hle : n - 1 ≤ (n - 1) * size := Nat.le_mul_of_pos_right _ hsize
  rw [regularCount_eq (by omega), hm, if_neg (by omega)]

theorem dealt_new (now : Nat) (hn : 2 ≤ n) (hfit : (n - 1) * size * 8 < 2 ^ 64) :
    Dealt n size 0 (new n size now) where
  num := rfl
  limit := by
    have hsame : (new n size now).regularCount * size = (n - 1) * size := by
      rcases Nat.eq_zero_or_pos size with hzero | hsize
      · rw [hzero, Nat.mul_zero, Nat.mul_zero]
      · rw [regularCount_of_fits hfit hsize hn rfl]
    have hmod : (n - 1) * size % 2 ^ 64 = (n - 1) * size := Nat.mod_eq_of_lt (by omega)
    rw [backpressureLimit]
    change (new n size now).regularCount * size % 2 ^ 64 * 8 % 2 ^ 64 / 10 = _
    rw [hsame, hmod, Nat.mod_eq_of_lt hfit]
  shards id hid := by
    show ∃ shard, (if id = n then _ else if id = 0 then _ else if id < n then _ else none) =
      some shard ∧ _
    split_ifs with h1 h2 h3
    · exact ⟨_, rfl, rfl⟩
    · exact ⟨_, rfl, rfl⟩
    · exact ⟨_, rfl, rfl⟩
    · omega
  total := rfl
  turn := rfl
  connected _ := rfl
  below := Nat.zero_le _
  load id hid _ := (RoundRobin.share_zero hid).symm

/-- The 80% gate closes before any regular shard is full. -/
theorem share_lt_size (h : a < (n - 1) * size * 8 / 10) : a / (n - 1) < size := by
  apply Nat.div_lt_of_lt_mul
  omega

/-- `push` is refused once the limit is reached; before, the shard whose turn it is takes the
    message. -/
theorem Dealt.push (h : Dealt n size a m) (hn : 2 ≤ n) (hfit : (n - 1) * size * 8 < 2 ^ 64)
    (msg : Message) :
    (a = (n - 1) * size * 8 / 10 ∧
      m.push msg = (.err .backpressure, { m with messagesDropped := m.messagesDropped + 1 })) ∨
    (a < (n - 1) * size * 8 / 10 ∧ m.push msg = (.ok (1 + a % (n - 1)), { m.send (1 + a % (n - 1)) msg with
      roundRobin := a + 1
      messagesAllocated := m.messagesAllocated + 1
      totalRegularMessages := a + 1 })) := by
  rcases Nat.eq_or_lt_of_le h.below with heq | hlt
  · refine .inl ⟨heq, if_pos ?_⟩
    rw [h.total, h.limit]
    exact Nat.le_of_eq heq.symm
  · have hsize : 0 < size := Nat.zero_lt_of_lt (share_lt_size hlt)
    have hcount := regularCount_of_fits hfit hsize hn h.num
    have hmod : a % (n - 1) < n - 1 := Nat.mod_lt _ (by omega)
    obtain ⟨shard, hshard, hmax⟩ := h.shards (1 + a % (n - 1)) (by omega)
    -- the shard whose turn it is holds the smallest share, which is below the size
    have hroom : m.hasRoom (1 + a % (n - 1)) shard = true := by
      have hload := h.load (1 + a % (n - 1)) (by omega) (by omega)
      rw [RoundRobin.share_next] at hload
      rw [hasRoom, decide_eq_true_iff, hload, hmax]
      exact ⟨h.connected _, share_lt_size hlt⟩
    exact .inr ⟨hlt, (push_turn hcount h.turn h.total (h.limit ▸ hlt) msg).2 shard hshard hroom⟩

/-- The reserved shards have no part in the dealing. -/
theorem Dealt.offer (h : Dealt n size a m) {id : Nat} (hid : id = 0 ∨ n ≤ id) (msg : Message) :
    Dealt n size a (m.offer id msg false).2 := by
  rcases m.offer_cases id msg false with ⟨-, hoffer⟩ | ⟨-, -, -, hoffer⟩ | ⟨-, -, -, hoffer⟩
  · rw [hoffer]
    exact ⟨h.num, h.limit, h.shards, h.total, h.turn, h.connected, h.below, h.load⟩
  · rw [hoffer]
    exact ⟨h.num, h.limit, h.shards, h.total, h.turn, h.connected, h.below, h.load⟩
  · rw [hoffer]
    refine ⟨h.num, h.limit, h.shards, h.total, h.turn, h.connected, h.below, fun j hj hjn => ?_⟩
    show (Function.update m.channel id _ j).length = _
    rw [Function.update_of_ne (by omega)]
    exact h.load j hj hjn

/-- One push deals at most one message. -/
theorem Dealt.perform (h : Dealt n size a m) (hn : 2 ≤ n) (hfit : (n - 1) * size * 8 < 2 ^ 64)
    (p : Push) :
    Dealt n size (a + if p.counted ∧ (m.perform p).1.isOk then 1 else 0) (m.perform p).2 := by
  cases p with
  | spread msg => exact h.offer (.inr (Nat.le_of_eq h.num.symm)) msg
  | deadzone msg => exact h.offer (.inl rfl) msg
  | regular msg =>
    show Dealt n size (a + if true = true ∧ (m.push msg).1.isOk then 1 else 0) (m.push msg).2
    rcases h.push hn hfit msg with ⟨-, hpush⟩ | ⟨hlt, hpush⟩
    · rw [hpush, if_neg (by rintro ⟨-, hok⟩; cases hok)]
      exact ⟨h.num, h.limit, h.shards, h.total, h.turn, h.connected, h.below, h.load⟩
    · rw [hpush, if_pos ⟨rfl, rfl⟩]
      refine ⟨h.num, h.limit, h.shards, rfl, rfl, h.connected, hlt, fun j hj hjn => ?_⟩
      show (Function.update m.channel (1 + a % (n - 1)) _ j).length = _
      rw [RoundRobin.share_succ hj (by omega), ← h.load j hj hjn]
      rcases eq_or_ne j (1 + a % (n - 1)) with heq | hne
      · rw [if_pos heq, ← heq, Function.update_self, List.length_append, List.length_singleton]
      · rw [if_neg hne, Function.update_of_ne hne, Nat.add_zero]

theorem Dealt.pushes (hn : 2 ≤ n) (hfit : (n - 1) * size * 8 < 2 ^ 64) (ps : List Push) :
    ∀ {a : Nat} {m : Manager}, Dealt n size a m →
      Dealt n size (a + m.accepted ps) (m.pushes ps) := by
  induction ps with
  | nil => exact fun h => h
  | cons p ps ih =>
    intro a m h
    have hrest := ih (h.perform hn hfit p)
    rw [Nat.add_assoc] at hrest
    exact hrest

end Dealing

/-- **The round robin.**  After any pushes to a fresh manager, `push` leaves the deadzone and the
    spread shard alone, never finds a shard full or missing, is refused exactly once
    `(n - 1) * size * 8 / 10` messages were accepted, and no regular shard is more than one message
    ahead of another; a message that is accepted is put behind what the shard named in the answer holds,
    and nothing else moves. -/
theorem round_robin_even {n size : Nat} (hn : 2 ≤ n) (hfit : (n - 1) * size * 8 < 2 ^ 64) (now : Nat)
    (ps : List Push) (msg : Message) :
    let m := (new n size now).pushes ps
    ((m.push msg).2.channel deadzoneShardId = m.channel deadzoneShardId ∧
      (m.push msg).2.channel m.spreadShardId = m.channel m.spreadShardId) ∧
    ((m.push msg).1 ≠ .err .full ∧ (m.push msg).1 ≠ .err .notFound) ∧
    ((m.push msg).1 = .err .backpressure ↔
      (new n size now).accepted ps = (n - 1) * size * 8 / 10) ∧
    (∀ i j, 1 ≤ i → i < n → 1 ≤ j → j < n → (m.channel i).length ≤ (m.channel j).length + 1) ∧
    (∀ id, (m.push msg).1 = .ok id → 1 ≤ id ∧ id < n ∧
      (m.push msg).2.channel = Function.update m.channel id (m.channel id ++ [msg])) ∧
    ∀ e, (m.push msg).1 = .err e → (m.push msg).2.channel = m.channel := by
  intro m
  have hdealt : Dealt n size ((new n size now).accepted ps) m := by
    have h := (dealt_new now hn hfit).pushes hn hfit ps
    rwa [Nat.zero_add] at h
  have heven : ∀ i j, 1 ≤ i → i < n → 1 ≤ j → j < n →
      (m.channel i).length ≤ (m.channel j).length + 1 := by
    intro i j hi hin hj hjn
    rw [hdealt.load i hi hin, hdealt.load j hj hjn]
    exact RoundRobin.share_le_share_add_one j
  rcases hdealt.push hn hfit msg with ⟨hlimit, hpush⟩ | ⟨hlt, hpush⟩
  · rw [hpush]
    exact ⟨⟨rfl, rfl⟩, ⟨by simp, by simp⟩, iff_of_true rfl hlimit, heven,
      fun id hok => (by cases hok), fun _ _ => rfl⟩
  · have hmod : (new n size now).accepted ps % (n - 1) < n - 1 := Nat.mod_lt _ (by omega)
    have hspread : m.spreadShardId = n := hdealt.num
    rw [hpush]
    refine ⟨⟨?_, ?_⟩, ⟨by simp, by simp⟩, iff_of_false (by simp) (Nat.ne_of_lt hlt), heven,
      fun id hok => ?_, fun e herr => (by cases herr)⟩
    · exact Function.update_of_ne (by rw [deadzoneShardId]; omega) _ _
    · exact Function.update_of_ne (by omega) _ _
    · obtain rfl := Exec.ok.inj hok
      exact ⟨by omega, by omega, rfl⟩

/-- Two regular shards of two: three messages are let in, and the fourth is not. -/
theorem round_robin_even_three :
    let msg : Message := .new .nidd [1] .operational 0
    let ps := [Push.regular msg, .deadzone msg, .regular msg, .spread msg, .regular msg]
    (((new 3 2 0).pushes ps).push msg).1 = .err .backpressure :=
  (round_robin_even (by decide) (by decide) 0 _ _).2.2.1.mpr (by decide)

end Manager

end Sharding

end FloatProtocols
