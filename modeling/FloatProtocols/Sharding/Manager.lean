/-
  `sharding.rs`: the shard manager, one call at a time.

  Shard 0 is the deadzone shard, shards `1 .. numShards - 1` are the regular ones and shard
  `numShards` is the spread shard.  A shard is a bounded channel: the manager keeps the senders
  (`shards`) and, until a worker takes it away with `getReceiver`, the receiver.  `push` picks a
  regular shard round-robin behind the backpressure gate; from there on `push`, `pushSpread` and
  `pushDeadzone` are one function (`offer`).

  Sizes and shard ids are natural numbers, with the release profile's 64-bit wrap-around written
  out where the source subtracts or multiplies and for the round robin.  The other counters are
  `AtomicU64`s, and natural numbers here: what is said of them is said of fewer than `2 ^ 64` messages.
  A channel of capacity 0 is taken to be full.  Whoever has taken a receiver may drop it
  (`dropReceiver`): the channel is `closed` then, and `try_send` fails, which `MemoryShard::push` calls
  `Full` as well.  A shard that was evicted and is created again has a new channel, with its receiver
  back in the manager.
-/
import Mathlib.Algebra.BigOperators.Group.Finset.Basic
import Mathlib.Logic.Function.Basic
import Mathlib.Order.Interval.Finset.Nat
import FloatProtocols.Lib.Exec
import FloatProtocols.Lib.Trace
import FloatProtocols.Protocol

namespace FloatProtocols

open Wire

namespace Sharding

/-- `ShardError`. -/
inductive ShardError where
  | full
  | notFound
  | backpressure
  | timeout
  deriving DecidableEq, Repr

/-- `MemoryShard`, without its sender. -/
structure MemoryShard where
  maxSize : Nat
  lastAccess : Nat
  isDeadzoneShard : Bool
  deriving DecidableEq, Repr

/-- `ShardManager`.  `channel` is what a shard's channel holds, `receivers` which receivers are still
    with the manager, `closed` which channels have lost theirs. -/
structure Manager where
  numShards : Nat
  shardSize : Nat
  shards : Nat → Option MemoryShard
  channel : Nat → List Message
  receivers : Nat → Bool
  closed : Nat → Bool
  totalRegularMessages : Nat
  roundRobin : Nat
  messagesAllocated : Nat
  messagesDropped : Nat

namespace Manager

/-- `deadzone_shard_id`. -/
def deadzoneShardId : Nat := 0

/-- `spread_shard_id`. -/
def spreadShardId (m : Manager) : Nat := m.numShards

/-- `num_shards - 1`, wrapping. -/
def regularCount (m : Manager) : Nat := (m.numShards + 2 ^ 64 - 1) % 2 ^ 64

/-- `backpressure_limit`, wrapping. -/
def backpressureLimit (m : Manager) : Nat :=
  m.regularCount * m.shardSize % 2 ^ 64 * 8 % 2 ^ 64 / 10

/-- `is_regular_shard`. -/
def isRegularShard (m : Manager) (id : Nat) : Bool :=
  id ≠ deadzoneShardId ∧ id ≠ m.spreadShardId

/-- `ShardManager::new`, with the clock reading; the spread shard is inserted last. -/
def new (numShards shardSize now : Nat) : Manager where
  numShards := numShards
  shardSize := shardSize
  shards id :=
    if id = numShards then some ⟨shardSize, now, false⟩
    else if id = deadzoneShardId then some ⟨shardSize, now, true⟩
    else if id < numShards then some ⟨shardSize, now, false⟩
    else none
  channel _ := []
  receivers id := id ≤ numShards
  closed _ := false
  totalRegularMessages := 0
  roundRobin := 0
  messagesAllocated := 0
  messagesDropped := 0

/-- `try_send` into a channel that has room. -/
def send (m : Manager) (id : Nat) (msg : Message) : Manager :=
  { m with channel := Function.update m.channel id (m.channel id ++ [msg]) }

/-- A shard takes one more message: its channel has a receiver, and room. -/
def hasRoom (m : Manager) (id : Nat) (shard : MemoryShard) : Bool :=
  m.closed id = false ∧ (m.channel id).length < shard.maxSize

/-- What the three pushes do once they have a shard; only `push` counts what it sent. -/
def offer (m : Manager) (id : Nat) (msg : Message) (counted : Bool) :
    Exec ShardError Nat × Manager :=
  let m := { m with messagesAllocated := m.messagesAllocated + 1 }
  match m.shards id with
  | some shard =>
    if m.hasRoom id shard then
      (.ok id, { m.send id msg with
        totalRegularMessages := m.totalRegularMessages + if counted then 1 else 0 })
    else (.err .full, m)  -- `?` leaves before any counter moves: a full shard is not a drop
  | none => (.err .notFound, { m with messagesDropped := m.messagesDropped + 1 })

/-- `push`; the remainder by `num_shards - 1` is `select_shard_for_message`'s. -/
def push (m : Manager) (msg : Message) : Exec ShardError Nat × Manager :=
  if m.totalRegularMessages ≥ m.backpressureLimit then
    (.err .backpressure, { m with messagesDropped := m.messagesDropped + 1 })
  else if m.regularCount = 0 then (.panic, m)
  else
    offer { m with roundRobin := (m.roundRobin + 1) % 2 ^ 64 }
      (1 + m.roundRobin % m.regularCount) msg true

/-- `push_spread`: no gate, no counter. -/
def pushSpread (m : Manager) (msg : Message) : Exec ShardError Nat × Manager :=
  m.offer m.spreadShardId msg false

/-- `push_deadzone`. -/
def pushDeadzone (m : Manager) (msg : Message) : Exec ShardError Nat × Manager :=
  m.offer deadzoneShardId msg false

/-- `get_receiver`: whether there was one, and the manager without it. -/
def getReceiver (m : Manager) (id : Nat) : Bool × Manager :=
  (m.receivers id, { m with receivers := Function.update m.receivers id false })

/-- `drain_shard`. -/
def drainShard (m : Manager) (id : Nat) : List Message × Manager :=
  let messages := if m.receivers id then m.channel id else []
  let m := if m.receivers id then { m with channel := Function.update m.channel id [] } else m
  if m.isRegularShard id ∧ messages ≠ [] then
    (messages, { m with totalRegularMessages := m.totalRegularMessages - messages.length })
  else (messages, m)

/-- The number each protocol is hashed to. -/
def protocolHash : Protocol → Nat
  | .iridiumSBD => 1
  | .inmarsatC => 2
  | .vsat => 3
  | .hfvhf => 4
  | .rockBLOCK => 5
  | .samsara => 6
  | .nidd => 7
  | .astSpaceMobile => 8
  | .loRaMesh => 9

/-- `protocol_to_shard_id`; the remainder is one by `num_shards`. -/
def protocolToShardId (m : Manager) (protocol : Protocol) : Exec ShardError Nat :=
  if m.numShards = 0 then .panic else .ok (1 + protocolHash protocol % m.numShards)

/-- `create_shard`: a shard that is there stays; a new one has its own channel. -/
def createShard (m : Manager) (now id : Nat) : Manager :=
  if (m.shards id).isSome then m
  else { m with
    shards := Function.update m.shards id (some ⟨m.shardSize, now, false⟩)
    channel := Function.update m.channel id []
    receivers := Function.update m.receivers id true
    closed := Function.update m.closed id false }

/-- `get_shard`. -/
def getShard (m : Manager) (now : Nat) (protocol : Protocol) : Exec ShardError Nat × Manager :=
  match m.protocolToShardId protocol with
  | .ok id => (.ok id, m.createShard now id)
  | x => (x, m)

/-- `evict_idle`: the two reserved shards stay. -/
def evictIdle (m : Manager) (now idleThreshold : Nat) : Manager :=
  { m with shards := fun id => (m.shards id).filter fun shard =>
      id = deadzoneShardId ∨ id = m.spreadShardId ∨ now - shard.lastAccess < idleThreshold }

/-- A worker's receive, on the receiver it took. -/
def workerRecv (m : Manager) (id : Nat) : Manager :=
  if m.receivers id ∨ m.closed id then m
  else { m with channel := Function.update m.channel id (m.channel id).tail }

/-- A receiver that was taken is dropped; whether the channel then discards what it holds is left
    open. -/
def dropReceiver (m : Manager) (id : Nat) (discards : Bool) : Manager :=
  if m.receivers id then m
  else { m with
    channel := if discards then Function.update m.channel id [] else m.channel
    closed := Function.update m.closed id true }

/-- The ids in the map; none is above `num_shards`. -/
def ids (m : Manager) : Finset Nat :=
  (Finset.range (m.numShards + 1)).filter fun id => (m.shards id).isSome

/-- `ShardStats`. -/
structure Stats where
  totalShards : Nat
  activeShards : Nat
  totalMessages : Nat
  shardSize : Nat

/-- `stats`. -/
def stats (m : Manager) : Stats where
  totalShards := m.ids.card
  activeShards := (m.ids.filter fun id => m.channel id ≠ []).card
  totalMessages := ∑ id ∈ m.ids, (m.channel id).length
  shardSize := m.shardSize

/-- `LeakStats`, without `leaked`, which nothing ever changes. -/
structure LeakStats where
  allocated : Nat
  dropped : Nat
  deriving DecidableEq, Repr

/-- `leak_stats`. -/
def leakStats (m : Manager) : LeakStats := ⟨m.messagesAllocated, m.messagesDropped⟩

/-- `reset_leak_stats`. -/
def resetLeakStats (m : Manager) : Manager := { m with messagesAllocated := 0, messagesDropped := 0 }

/-- The messages in the regular shards. -/
def queued (m : Manager) : Nat := ∑ id ∈ Finset.Ico 1 m.numShards, (m.channel id).length

theorem isRegularShard_iff {m : Manager} {id : Nat} (h : id ≤ m.numShards) :
    m.isRegularShard id = true ↔ id ∈ Finset.Ico 1 m.numShards := by
  rw [isRegularShard, decide_eq_true_iff, deadzoneShardId, spreadShardId, Finset.mem_Ico]
  omega

/-- Below `numShards` the round robin stays on the regular shards; without any shard it points at
    none. -/
theorem regularCount_eq {m : Manager} (h : m.numShards < 2 ^ 64) :
    m.regularCount = if m.numShards = 0 then 2 ^ 64 - 1 else m.numShards - 1 := by
  rw [regularCount]
  split <;> omega

/-- Changing one channel changes the queue by the difference, if the shard is regular. -/
theorem queued_update (m : Manager) (id : Nat) (q : List Message) :
    queued { m with channel := Function.update m.channel id q } +
        (if id ∈ Finset.Ico 1 m.numShards then (m.channel id).length else 0) =
      m.queued + (if id ∈ Finset.Ico 1 m.numShards then q.length else 0) := by
  show (∑ j ∈ Finset.Ico 1 m.numShards, (Function.update m.channel id q j).length) + _ =
    (∑ j ∈ Finset.Ico 1 m.numShards, (m.channel j).length) + _
  by_cases h : id ∈ Finset.Ico 1 m.numShards
  · rw [if_pos h, if_pos h]
    exact Trace.sum_update h List.length m.channel q
  · rw [if_neg h, if_neg h, Trace.sum_update_of_notMem h List.length m.channel q]

end Manager

end Sharding

end FloatProtocols
