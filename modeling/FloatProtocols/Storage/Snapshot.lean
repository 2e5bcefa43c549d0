/-
  `snapshot.rs`: the snapshots kept for fast uplink.

  A map from ids to snapshots and a queue of ids in order of creation.  The id is a hash of protocol
  and PAYLOADS only, so an equal batch replaces the earlier snapshot in the map while its id enters
  the queue once more; eviction pops ids until one of them is still in the map.  All other removals
  leave the queue alone.  Each function changes the store under one lock; its clock reading is an
  argument.
-/
import Mathlib.Data.List.AList
import FloatProtocols.Lib.Bytes
import FloatProtocols.Protocol

namespace FloatProtocols

open Wire

/-- `Snapshot`. -/
structure Snapshot where
  id : String
  messages : List Message
  protocol : Protocol
  createdAt : UInt64
  sizeBytes : Nat
  deviceId : UInt64
  deriving DecidableEq, Repr

/-- `SnapshotManager` and the store it locks. -/
structure SnapshotManager where
  map : AList fun _ : String => Snapshot
  order : List String
  maxSnapshots : Nat
  snapshotTtlMs : UInt64

namespace SnapshotManager

/-- `SnapshotManager::new`. -/
def new (maxSnapshots : Nat) (snapshotTtlMs : UInt64) : SnapshotManager :=
  { map := ∅, order := [], maxSnapshots, snapshotTtlMs }

/-- One round of FNV-1a. -/
def fnvRound (h : UInt64) (b : UInt8) : UInt64 := (h ^^^ b.toUInt64) * 1099511628211

/-- `hash_messages`. -/
def hashMessages (messages : List Message) (protocol : Protocol) : UInt64 :=
  let h := (leBytes 8 protocol.discriminant.toNat).foldl fnvRound 14695981039346656037
  messages.foldl (fun h msg => msg.data.foldl fnvRound h) h

/-- `generate_snapshot_id`. -/
def generateSnapshotId (messages : List Message) (protocol : Protocol) : String :=
  "snap_" ++ protocol.display ++ "_" ++ toString (hashMessages messages protocol).toNat

/-- `evict_oldest`: ids without a snapshot are skipped. -/
def evictOldest (map : AList fun _ : String => Snapshot) :
    List String → (AList fun _ : String => Snapshot) × List String
  | [] => (map, [])
  | id :: rest => if id ∈ map then (map.erase id, rest) else evictOldest map rest

/-- `create_snapshot`, which `create_batch_snapshot` calls; also the id. -/
def createSnapshot (sm : SnapshotManager) (now : UInt64) (messages : List Message)
    (protocol : Protocol) (deviceId : UInt64) : String × SnapshotManager :=
  let id := generateSnapshotId messages protocol
  let sizeBytes := (messages.map Message.size).sum
  let (map, order) :=
    if sm.map.keys.length ≥ sm.maxSnapshots then evictOldest sm.map sm.order
    else (sm.map, sm.order)
  (id, { sm with
    map := map.insert id { id, messages, protocol, createdAt := now, sizeBytes, deviceId }
    order := order ++ [id] })

/-- `create_batch_snapshot`. -/
def createBatchSnapshot (sm : SnapshotManager) (now : UInt64) (messages : List Message)
    (protocol : Protocol) (deviceId : UInt64) : String × SnapshotManager :=
  sm.createSnapshot now messages protocol deviceId

/-- `retain` on the map; the queue keeps the ids of what goes. -/
def retain (sm : SnapshotManager) (keep : Snapshot → Bool) : SnapshotManager :=
  { sm with map := ⟨sm.map.entries.filter fun x => keep x.2,
                    sm.map.nodupKeys.sublist List.filter_sublist⟩ }

/-- Younger than the time to live; the subtraction wraps if the clock is behind. -/
def unexpired (sm : SnapshotManager) (now : UInt64) (s : Snapshot) : Bool :=
  now - s.createdAt < sm.snapshotTtlMs

/-- What `drain_for_uplink` takes. -/
def forUplink (sm : SnapshotManager) (now deviceId sinceMs : UInt64) (s : Snapshot) : Bool :=
  s.deviceId = deviceId ∧ s.createdAt ≥ sinceMs ∧ sm.unexpired now s

/-- `drain_for_uplink`; in which order a hash map gives its values is not specified. -/
def drainForUplink (sm : SnapshotManager) (now deviceId sinceMs : UInt64) :
    List Snapshot × SnapshotManager :=
  ((sm.map.entries.map Sigma.snd).filter (sm.forUplink now deviceId sinceMs),
    sm.retain fun s => !sm.forUplink now deviceId sinceMs s)

/-- `get_snapshot`; here a snapshot exactly as old as the time to live still counts. -/
def getSnapshot (sm : SnapshotManager) (now : UInt64) (id : String) : Option Snapshot :=
  (sm.map.lookup id).bind fun s =>
    if now - s.createdAt > sm.snapshotTtlMs then none else some s

/-- `get_protocol_snapshots`. -/
def getProtocolSnapshots (sm : SnapshotManager) (now : UInt64) (protocol : Protocol) : List Snapshot :=
  (sm.map.entries.map Sigma.snd).filter fun s => s.protocol = protocol ∧ sm.unexpired now s

/-- `delete_snapshot`. -/
def deleteSnapshot (sm : SnapshotManager) (id : String) : Bool × SnapshotManager :=
  ((sm.map.lookup id).isSome, { sm with map := sm.map.erase id })

/-- `clear_expired`. -/
def clearExpired (sm : SnapshotManager) (now : UInt64) : SnapshotManager :=
  sm.retain (sm.unexpired now)

/-- `SnapshotStats`. -/
structure SnapshotStats where
  totalSnapshots : Nat
  validSnapshots : Nat
  totalSizeBytes : Nat
  maxSnapshots : Nat
  deriving DecidableEq, Repr

/-- `stats`. -/
def stats (sm : SnapshotManager) (now : UInt64) : SnapshotStats where
  totalSnapshots := sm.map.keys.length
  validSnapshots := (sm.map.entries.map Sigma.snd).countP (sm.unexpired now)
  totalSizeBytes := ((sm.map.entries.map Sigma.snd).map Snapshot.sizeBytes).sum
  maxSnapshots := sm.maxSnapshots

end SnapshotManager

end FloatProtocols
