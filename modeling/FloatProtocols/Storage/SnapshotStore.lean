/-
  The snapshot store over whole runs: its queue, and its ids.

  1. **The invariant (`Stored`)** — every id in the map is somewhere in the queue.  Drains, deletions
     and expiry only shrink the map and leave GHOST ids behind; creating the same batch again puts a
     second copy of its id in the queue.  Neither hurts: an id that is popped is out of the map, or
     goes out with it.

  2. **Size** — so an eviction from a map that is not empty always finds an id that is still alive
     (`evictOldest_cases`) and makes room for one; the 1 in `max 1 maxSnapshots` is for a capacity
     of 0, where the first snapshot finds nothing to evict.

  3. **Ids** — the id of a batch is FNV-1a over its protocol and its payloads run together, with no
     boundary, clock, priority or device in it.  Two batches under one protocol are kept apart exactly
     when these hashes differ (`both_found_iff`).
-/
import FloatProtocols.Lib.Decimal
import FloatProtocols.Storage.Snapshot

namespace FloatProtocols

open Wire

namespace SnapshotManager

/-! ## Runs -/

/-- The calls that change the store. -/
inductive Op where
  | createSnapshot (now : UInt64) (messages : List Message) (protocol : Protocol) (deviceId : UInt64)
  | createBatchSnapshot (now : UInt64) (messages : List Message) (protocol : Protocol)
      (deviceId : UInt64)
  | drainForUplink (now deviceId sinceMs : UInt64)
  | deleteSnapshot (id : String)
  | clearExpired (now : UInt64)

/-- One call. -/
def apply (sm : SnapshotManager) : Op → SnapshotManager
  | .createSnapshot now messages protocol deviceId =>
    (sm.createSnapshot now messages protocol deviceId).2
  | .createBatchSnapshot now messages protocol deviceId =>
    (sm.createBatchSnapshot now messages protocol deviceId).2
  | .drainForUplink now deviceId sinceMs => (sm.drainForUplink now deviceId sinceMs).2
  | .deleteSnapshot id => (sm.deleteSnapshot id).2
  | .clearExpired now => sm.clearExpired now

/-- The store after a run of calls. -/
def run (maxSnapshots : Nat) (snapshotTtlMs : UInt64) (ops : List Op) : SnapshotManager :=
  ops.foldl apply (new maxSnapshots snapshotTtlMs)

/-! ## Creation in two halves -/

/-- Map and queue once there is room. -/
def room (sm : SnapshotManager) : (AList fun _ : String => Snapshot) × List String :=
  if sm.map.keys.length ≥ sm.maxSnapshots then evictOldest sm.map sm.order else (sm.map, sm.order)

/-- The snapshot of a batch. -/
def made (now : UInt64) (messages : List Message) (protocol : Protocol) (deviceId : UInt64) :
    Snapshot where
  id := generateSnapshotId messages protocol
  messages := messages
  protocol := protocol
  createdAt := now
  sizeBytes := (messages.map Message.size).sum
  deviceId := deviceId

theorem createSnapshot_eq (sm : SnapshotManager) (now : UInt64) (messages : List Message)
    (protocol : Protocol) (deviceId : UInt64) :
    sm.createSnapshot now messages protocol deviceId =
      (generateSnapshotId messages protocol, { sm with
        map := sm.room.1.insert (generateSnapshotId messages protocol)
          (made now messages protocol deviceId)
        order := sm.room.2 ++ [generateSnapshotId messages protocol] }) := rfl

/-- The first id that still has a snapshot goes, and the ghosts before it. -/
theorem evictOldest_cases (map : AList fun _ : String => Snapshot) : ∀ order : List String,
    ((∀ id ∈ order, id ∉ map) ∧ evictOldest map order = (map, [])) ∨
    ∃ ghosts id rest, order = ghosts ++ id :: rest ∧ (∀ g ∈ ghosts, g ∉ map) ∧ id ∈ map ∧
      evictOldest map order = (map.erase id, rest)
  | [] => .inl ⟨by simp, rfl⟩
  | id :: rest => by
    rw [evictOldest]
    by_cases hid : id ∈ map
    · rw [if_pos hid]
      exact .inr ⟨[], id, rest, rfl, by simp, hid, rfl⟩
    · rw [if_neg hid]
      rcases evictOldest_cases map rest with ⟨hghosts, heq⟩ | ⟨ghosts, id', rest', rfl, hghosts, hid', heq⟩
      · exact .inl ⟨List.forall_mem_cons.mpr ⟨hid, hghosts⟩, heq⟩
      · exact .inr ⟨id :: ghosts, id', rest', rfl, List.forall_mem_cons.mpr ⟨hid, hghosts⟩, hid', heq⟩

/-! ## The invariant -/

/-- Every id in the map is in the queue, and the map is within the capacity. -/
structure Stored (sm : SnapshotManager) : Prop where
  listed : ∀ id ∈ sm.map, id ∈ sm.order
  size : sm.map.keys.length ≤ max 1 sm.maxSnapshots

variable {sm : SnapshotManager}

/-- With room made, what is in the map is still in the queue, and one more fits. -/
theorem Stored.room (h : Stored sm) :
    (∀ id ∈ sm.room.1, id ∈ sm.room.2) ∧ sm.room.1.keys.length < max 1 sm.maxSnapshots := by
  obtain ⟨hlisted, hsize⟩ := h
  rw [SnapshotManager.room]
  split
  · rename_i hfull
    rcases evictOldest_cases sm.map sm.order with ⟨hghosts, heq⟩ | ⟨ghosts, id, rest, horder, hghosts, hid, heq⟩
    · -- only ghosts in the queue, so nothing in the map
      have hempty : sm.map.keys = [] := by
        refine List.eq_nil_iff_forall_not_mem.mpr fun id hid => ?_
        exact hghosts id (hlisted id hid) hid
      rw [heq]
      refine ⟨fun id hid => absurd hid (hghosts id (hlisted id hid)), ?_⟩
      rw [hempty, List.length_nil]
      omega
    · rw [heq]
      constructor
      · intro k hk
        obtain ⟨hne, hk⟩ := AList.mem_erase.mp hk
        have hmem := hlisted k hk
        rw [horder, List.mem_append, List.mem_cons] at hmem
        rcases hmem with hghost | rfl | hrest
        · exact absurd hk (hghosts k hghost)
        · exact absurd rfl hne
        · exact hrest
      · have hpos : 0 < sm.map.keys.length := List.length_pos_of_mem (AList.mem_keys.mp hid)
        rw [AList.keys_erase, List.length_erase_of_mem (AList.mem_keys.mp hid)]
        omega
  · rename_i hroom
    refine ⟨hlisted, ?_⟩
    show sm.map.keys.length < max 1 sm.maxSnapshots
    omega

theorem Stored.createSnapshot (h : Stored sm) (now : UInt64) (messages : List Message)
    (protocol : Protocol) (deviceId : UInt64) :
    Stored (sm.createSnapshot now messages protocol deviceId).2 := by
  obtain ⟨hlisted, hroom⟩ := h.room
  rw [createSnapshot_eq]
  constructor
  · intro id hid
    rw [List.mem_append, List.mem_singleton]
    rcases (AList.mem_insert _).mp hid with rfl | hid
    · exact .inr rfl
    · exact .inl (hlisted id hid)
  · show (sm.room.1.insert _ _).keys.length ≤ max 1 sm.maxSnapshots
    rw [AList.keys_insert, List.length_cons]
    have herase := List.length_erase_le (a := generateSnapshotId messages protocol) (l := sm.room.1.keys)
    omega

/-- Whatever only takes snapshots out of the map keeps the rest in the queue. -/
theorem Stored.shrink (h : Stored sm) {map : AList fun _ : String => Snapshot}
    (hsub : map.keys.Sublist sm.map.keys) : Stored { sm with map := map } where
  listed id hid := h.listed id (hsub.subset hid)
  size := hsub.length_le.trans h.size

theorem Stored.retain (h : Stored sm) (keep : Snapshot → Bool) : Stored (sm.retain keep) :=
  h.shrink (List.filter_sublist.map Sigma.fst)

/-- **Every call keeps the invariant.** -/
theorem Stored.apply (h : Stored sm) (op : Op) : Stored (sm.apply op) := by
  cases op with
  | createSnapshot now messages protocol deviceId =>
    exact h.createSnapshot now messages protocol deviceId
  | createBatchSnapshot now messages protocol deviceId =>
    exact h.createSnapshot now messages protocol deviceId
  | drainForUplink now deviceId sinceMs =>
    exact h.retain fun s => !sm.forUplink now deviceId sinceMs s
  | deleteSnapshot id =>
    refine h.shrink ?_
    rw [AList.keys_erase]
    exact List.erase_sublist
  | clearExpired now => exact h.retain (sm.unexpired now)

theorem apply_maxSnapshots (sm : SnapshotManager) (op : Op) :
    (sm.apply op).maxSnapshots = sm.maxSnapshots := by
  cases op <;> rfl

theorem stored_run (maxSnapshots : Nat) (snapshotTtlMs : UInt64) (ops : List Op) :
    Stored (run maxSnapshots snapshotTtlMs ops) ∧
      (run maxSnapshots snapshotTtlMs ops).maxSnapshots = maxSnapshots := by
  refine List.foldlRecOn (motive := fun sm => Stored sm ∧ sm.maxSnapshots = maxSnapshots) ops _
    ⟨⟨?_, Nat.zero_le _⟩, rfl⟩ ?_
  · intro id hid
    exact absurd hid (AList.notMem_empty id)
  · rintro sm ⟨hstored, hmax⟩ op -
    exact ⟨hstored.apply op, (apply_maxSnapshots sm op).trans hmax⟩

/-- **In every reachable state** the queue still lists every snapshot, the map is within its capacity,
    and the next snapshot will be found under the id that `createSnapshot` returns for it. -/
theorem snapshots_queued (maxSnapshots : Nat) (snapshotTtlMs : UInt64) (ops : List Op) :
    let sm := run maxSnapshots snapshotTtlMs ops
    (∀ id ∈ sm.map, id ∈ sm.order) ∧ sm.map.keys.length ≤ max 1 maxSnapshots ∧
    ∀ now messages protocol deviceId,
      let (id, sm') := sm.createSnapshot now messages protocol deviceId
      sm'.map.lookup id = some { id, messages, protocol, createdAt := now,
                                 sizeBytes := (messages.map Message.size).sum, deviceId } := by
  obtain ⟨⟨hlisted, hsize⟩, hmax⟩ := stored_run maxSnapshots snapshotTtlMs ops
  rw [hmax] at hsize
  refine ⟨hlisted, hsize, ?_⟩
  intro now messages protocol deviceId
  exact AList.lookup_insert _

/-! ## What an id forgets -/

/-- The payloads of a batch, run together. -/
def payload (messages : List Message) : Bytes := messages.flatMap Message.data

/-- FNV-1a over the protocol's number and a byte string. -/
def fnv (protocol : Protocol) (bytes : Bytes) : UInt64 :=
  (leBytes 8 protocol.discriminant.toNat ++ bytes).foldl fnvRound 14695981039346656037

theorem hashMessages_eq_fnv (messages : List Message) (protocol : Protocol) :
    hashMessages messages protocol = fnv protocol (payload messages) := by
  rw [hashMessages, fnv, payload, List.foldl_append, List.foldl_flatMap]

/-- Under one protocol, two ids are equal exactly when the hashes are. -/
theorem generateSnapshotId_inj {messages₁ messages₂ : List Message} {protocol : Protocol} :
    generateSnapshotId messages₁ protocol = generateSnapshotId messages₂ protocol ↔
      fnv protocol (payload messages₁) = fnv protocol (payload messages₂) := by
  rw [← hashMessages_eq_fnv, ← hashMessages_eq_fnv]
  constructor
  · intro h
    exact UInt64.toNat_inj.mp (Decimal.repr_inj ((String.append_right_inj _).mp h))
  · intro h
    rw [generateSnapshotId, generateSnapshotId, h]

/-- Below the capacity, a creation replaces what has the same id and nothing else. -/
theorem lookup_createSnapshot (hroom : sm.map.keys.length < sm.maxSnapshots) (now : UInt64)
    (messages : List Message) (protocol : Protocol) (deviceId : UInt64) (id : String) :
    (sm.createSnapshot now messages protocol deviceId).2.map.lookup id =
      if id = generateSnapshotId messages protocol then some (made now messages protocol deviceId)
      else sm.map.lookup id := by
  have hsame : sm.room = (sm.map, sm.order) := if_neg (Nat.not_le.mpr hroom)
  rw [createSnapshot_eq, hsame]
  show AList.lookup id (sm.map.insert _ _) = _
  split
  · rename_i heq
    rw [heq, AList.lookup_insert]
  · rename_i hne
    rw [AList.lookup_insert_ne hne]

/-- A batch is found under an id, with its own messages and its own device. -/
def Found (sm : SnapshotManager) (now : UInt64) (id : String) (messages : List Message)
    (deviceId : UInt64) : Prop :=
  ∃ s, sm.getSnapshot now id = some s ∧ s.messages = messages ∧ s.deviceId = deviceId

theorem getSnapshot_eq_some {now : UInt64} {id : String} {s : Snapshot} :
    sm.getSnapshot now id = some s ↔
      sm.map.lookup id = some s ∧ now - s.createdAt ≤ sm.snapshotTtlMs := by
  rw [getSnapshot, Option.bind_eq_some_iff]
  constructor
  · rintro ⟨t, ht, hage⟩
    split at hage
    · cases hage
    · obtain rfl := Option.some.inj hage
      exact ⟨ht, UInt64.not_lt.mp ‹_›⟩
  · rintro ⟨hs, hage⟩
    exact ⟨s, hs, if_neg (UInt64.not_lt.mpr hage)⟩

/-- **Two batches are both kept exactly when their hashes differ.**  Neither creation evicts, and
    neither snapshot has expired when it is asked for. -/
theorem both_found_iff (sm : SnapshotManager) {messages₁ messages₂ : List Message}
    (protocol : Protocol) (deviceId₁ deviceId₂ created₁ created₂ now₁ now₂ : UInt64)
    (hne : messages₁ ≠ messages₂) (hroom₁ : sm.map.keys.length < sm.maxSnapshots)
    (hroom₂ : (sm.createSnapshot created₁ messages₁ protocol deviceId₁).2.map.keys.length <
      sm.maxSnapshots)
    (hage₁ : now₁ - created₁ ≤ sm.snapshotTtlMs) (hage₂ : now₂ - created₂ ≤ sm.snapshotTtlMs) :
    let first := sm.createSnapshot created₁ messages₁ protocol deviceId₁
    let second := first.2.createSnapshot created₂ messages₂ protocol deviceId₂
    second.2.Found now₁ first.1 messages₁ deviceId₁ ∧
        second.2.Found now₂ second.1 messages₂ deviceId₂ ↔
      fnv protocol (payload messages₁) ≠ fnv protocol (payload messages₂) := by
  intro first second
  have hfirst := lookup_createSnapshot hroom₁ created₁ messages₁ protocol deviceId₁
  have hsecond := lookup_createSnapshot hroom₂ created₂ messages₂ protocol deviceId₂
  rw [ne_eq, ← generateSnapshotId_inj]
  constructor
  · rintro ⟨⟨s, hs, hmessages, -⟩, -⟩ hid
    -- the second creation has replaced the first snapshot
    have hlookup := (hsecond first.1).trans (if_pos hid)
    obtain ⟨hs, -⟩ := getSnapshot_eq_some.mp hs
    obtain rfl := Option.some.inj (hlookup.symm.trans hs)
    exact hne hmessages.symm
  · intro hid
    have hkept := (hsecond first.1).trans ((if_neg hid).trans ((hfirst first.1).trans (if_pos rfl)))
    have hnew := (hsecond second.1).trans (if_pos rfl)
    exact ⟨⟨_, getSnapshot_eq_some.mpr ⟨hkept, hage₁⟩, rfl, rfl⟩,
      _, getSnapshot_eq_some.mpr ⟨hnew, hage₂⟩, rfl, rfl⟩

/-- A reading with the given payload. -/
def reading (data : Bytes) : Message := .newWithTemporal .nidd data .operational 0 0

/-- Two batches in an empty store, two minutes before they are asked for. -/
theorem both_found_iff_apart :
    let first := (new 100 300000).createSnapshot 0 [reading [1]] .nidd 7
    let second := first.2.createSnapshot 0 [reading [2]] .nidd 8
    second.2.Found 120000 first.1 [reading [1]] 7 ∧ second.2.Found 120000 second.1 [reading [2]] 8 :=
  (both_found_iff (new 100 300000) .nidd 7 8 0 0 120000 120000 (by decide) (by decide) (by decide)
    (by decide) (by decide)).mpr (by decide)

/-- **The same bytes, cut differently**: two readings of one byte replace one reading of two, and what
    is then found under the id of the first batch are the messages and the device of the second. -/
theorem snapshot_replaced :
    let first := (new 100 300000).createSnapshot 0 [reading [1, 2]] .nidd 7
    let second := first.2.createSnapshot 0 [reading [1], reading [2]] .nidd 8
    [reading [1, 2]] ≠ [reading [1], reading [2]] ∧ first.1 = second.1 ∧
      second.2.Found 0 first.1 [reading [1], reading [2]] 8 ∧
      ¬ second.2.Found 0 first.1 [reading [1, 2]] 7 := by
  intro first second
  have hsecond := @lookup_createSnapshot first.2 (by decide) 0 [reading [1], reading [2]] .nidd 8
  have hid : first.1 = second.1 := generateSnapshotId_inj.mpr (by decide)
  have hlookup := (hsecond first.1).trans (if_pos hid)
  refine ⟨by decide, hid, ⟨_, getSnapshot_eq_some.mpr ⟨hlookup, by decide⟩, rfl, rfl⟩, ?_⟩
  rintro ⟨s, hs, hmessages, -⟩
  obtain ⟨hs, -⟩ := getSnapshot_eq_some.mp hs
  obtain rfl := Option.some.inj (hlookup.symm.trans hs)
  exact absurd hmessages (by decide)

end SnapshotManager

end FloatProtocols
