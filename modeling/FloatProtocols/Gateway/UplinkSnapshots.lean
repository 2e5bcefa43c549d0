/-
  What the snapshots of translated batches hold, device by device.

  The record of a run (`Note`) says what was translated, and which batches went into a snapshot.  A
  batch is translated message by message, and what is translated waits in its task (`pending`) until
  the whole batch is stored under ONE device: that of its first message.  So everything translated is
  in some snapshot, and a device's drain returns the batches that START with it — which are its own
  messages only where no batch mixes devices.
-/
import FloatProtocols.Gateway.Tasks
import FloatProtocols.Storage.SnapshotStore

namespace FloatProtocols

open Wire

namespace Gateway

open Translator

variable {n : Nat} {libs : Libs}

/-! ## The record -/

/-- What a step did: a message translated, or a batch stored. -/
inductive Note where
  | translated (pair : Message × Message)
  | stored (pairs : List (Message × Message))

/-- The messages translated, with their translations. -/
def translations (log : List Note) : List (Message × Message) :=
  log.filterMap fun
    | .translated pair => some pair
    | .stored _ => none

/-- The batches stored. -/
def batches (log : List Note) : List (List (Message × Message)) :=
  log.filterMap fun
    | .translated _ => none
    | .stored pairs => some pairs

theorem translations_append (l l' : List Note) :
    translations (l ++ l') = translations l ++ translations l' := List.filterMap_append

theorem batches_append (l l' : List Note) : batches (l ++ l') = batches l ++ batches l' :=
  List.filterMap_append

/-- What a section of a task does. -/
def notes (libs : Libs) (env : Env) : Task → List Note
  | .translated (.translate (msg :: _) _ _) =>
    match translateSync libs (env.nowMs 0) msg with
    | .ok translated => [.translated (msg, translated)]
    | _ => []
  | .translated (.snapshotAll pairs _) => [.stored pairs]
  | _ => []

/-- What a step of the gateway does. -/
def notesOf (libs : Libs) (s : Sys n) : Act n → List Note
  | .advance i env => notes libs env (s.task i)
  | _ => []

/-- Translated and not yet stored. -/
def pending : Task → List (Message × Message)
  | .translated (.translate _ pairs _) => pairs
  | .translated (.cacheAll pairs _) => pairs
  | .translated (.snapshotAll pairs _) => pairs
  | _ => []

/-- The device of a message. -/
def deviceOf (msg : Message) : UInt64 := AsyncCache.hashData msg.data

/-- The device a batch is stored under. -/
def batchDevice (pairs : List (Message × Message)) : UInt64 :=
  ((pairs.map fun x => deviceOf x.1).head?).getD 0

/-! ## One section -/

/-- The emergency path, which makes snapshots of its own. -/
def isEmergencyTask : Task → Bool
  | .emergency _ => true
  | _ => false

theorem snapshotManager_callUplink (g : Gateway) (uplink : Uplink) (messages : List Message) :
    (g.callUplink uplink messages).snapshotManager = g.snapshotManager := by
  obtain ⟨_, _, _, hframe⟩ := g.callUplink_frame uplink messages
  rw [hframe]

/-- An incoming batch has nothing to do with the snapshots. -/
theorem processIncomingBatch_quiet {env : Env} {g g' : Gateway} {pc : Incoming} {task' : Task}
    (h : processIncomingBatch env g pc = some (task', g')) :
    pending task' = [] ∧ isEmergencyTask task' = false ∧ g'.snapshotManager = g.snapshotManager := by
  cases pc with
  | reconcile batch =>
    obtain ⟨rfl, rfl⟩ := Prod.mk.inj (Option.some.inj h)
    refine ⟨rfl, rfl, ?_⟩
    exact List.foldlRecOn (motive := fun x : Gateway => x.snapshotManager = g.snapshotManager) batch _
      rfl fun _ hx _ _ => hx
  | store reconciled =>
    obtain ⟨rfl, rfl⟩ := Prod.mk.inj (Option.some.inj h)
    exact ⟨rfl, rfl, rfl⟩
  | partition reconciled =>
    obtain ⟨rfl, rfl⟩ := Prod.mk.inj (Option.some.inj h)
    exact ⟨rfl, rfl, rfl⟩
  | pushSpread spread normal =>
    cases spread with
    | nil =>
      obtain ⟨rfl, rfl⟩ := Prod.mk.inj (Option.some.inj h)
      split <;> exact ⟨rfl, rfl, rfl⟩
    | cons msg spread =>
      obtain ⟨rfl, rfl⟩ := Prod.mk.inj (Option.some.inj h)
      exact ⟨rfl, rfl, rfl⟩
  | lookup normal =>
    obtain ⟨rfl, rfl⟩ := Prod.mk.inj (Option.some.inj h)
    exact ⟨rfl, rfl, rfl⟩
  | route routed =>
    rcases routed with _ | ⟨⟨msg, _ | translated⟩, routed⟩
    · obtain ⟨rfl, rfl⟩ := Prod.mk.inj (Option.some.inj h)
      exact ⟨rfl, rfl, rfl⟩
    · rw [processIncomingBatch] at h
      rcases hpush : g.shardManager.push msg with ⟨_ | _ | _, m'⟩
      · rw [hpush] at h
        obtain ⟨rfl, rfl⟩ := Prod.mk.inj (Option.some.inj h)
        exact ⟨rfl, rfl, rfl⟩
      · rw [hpush] at h
        obtain ⟨rfl, rfl⟩ := Prod.mk.inj (Option.some.inj h)
        exact ⟨rfl, rfl, rfl⟩
      · rw [hpush] at h
        cases h
    · obtain ⟨rfl, rfl⟩ := Prod.mk.inj (Option.some.inj h)
      exact ⟨rfl, rfl, snapshotManager_callUplink _ _ _⟩

/-- A section moves pairs along: what was pending or is translated now is pending or stored after. -/
structure Moves (libs : Libs) (env : Env) (g g' : Gateway) (task task' : Task) : Prop where
  balance : pending task ++ translations (notes libs env task) =
    pending task' ++ (batches (notes libs env task)).flatten
  ordinary : isEmergencyTask task' = false
  snapshots : (batches (notes libs env task) = [] ∧ g'.snapshotManager = g.snapshotManager) ∨
    ∃ pairs drain, task = .translated (.snapshotAll pairs drain) ∧
      g'.snapshotManager = (g.snapshotManager.createSnapshot (env.nowMs 0) (pairs.map Prod.snd)
        .astSpaceMobile (batchDevice pairs)).2

theorem gather_moves {env : Env} {g g' : Gateway} {id : Nat} {batch : List Message} {task' : Task}
    (h : gather g id batch = some (task', g')) :
    Moves libs env g g' (.translated (.gather id batch)) task' := by
  rw [gather] at h
  split at h
  · split at h
    · obtain ⟨rfl, rfl⟩ := Prod.mk.inj (Option.some.inj h)
      exact ⟨rfl, rfl, .inl ⟨rfl, rfl⟩⟩
    · split at h
      · cases h
      · obtain ⟨rfl, rfl⟩ := Prod.mk.inj (Option.some.inj h)
        exact ⟨rfl, rfl, .inl ⟨rfl, rfl⟩⟩
  · obtain ⟨rfl, rfl⟩ := Prod.mk.inj (Option.some.inj h)
    exact ⟨rfl, rfl, .inl ⟨rfl, rfl⟩⟩

theorem collect_moves {env : Env} {g g' : Gateway} {messages : List Message} {task' : Task}
    (h : collect g messages = some (task', g')) :
    Moves libs env g g' (.translated (.collect messages)) task' := by
  rw [collect] at h
  split at h
  · obtain ⟨rfl, rfl⟩ := Prod.mk.inj (Option.some.inj h)
    exact ⟨rfl, rfl, .inl ⟨rfl, rfl⟩⟩
  · obtain ⟨rfl, rfl⟩ := Prod.mk.inj (Option.some.inj h)
    split <;> exact ⟨rfl, rfl, .inl ⟨rfl, rfl⟩⟩

theorem translate_moves {env : Env} {g g' : Gateway} {msg : Message} {todo : List Message}
    {pairs : List (Message × Message)} {drain : Bool} {task' : Task}
    (h : processTranslatedBatch libs env g (.translate (msg :: todo) pairs drain) = some (task', g')) :
    Moves libs env g g' (.translated (.translate (msg :: todo) pairs drain)) task' := by
  rw [processTranslatedBatch] at h
  split at h
  · rename_i translated hok
    obtain ⟨rfl, rfl⟩ := Prod.mk.inj (Option.some.inj h)
    have hnotes : notes libs env (.translated (.translate (msg :: todo) pairs drain)) =
        [.translated (msg, translated)] := by simp only [notes, hok]
    refine ⟨?_, rfl, .inl ⟨?_, rfl⟩⟩
    · rw [hnotes]
      exact (List.append_nil _).symm
    · rw [hnotes]
      rfl
  · rename_i e herr
    obtain ⟨rfl, rfl⟩ := Prod.mk.inj (Option.some.inj h)
    have hnotes : notes libs env (.translated (.translate (msg :: todo) pairs drain)) = [] := by
      simp only [notes, herr]
    refine ⟨?_, rfl, .inl ⟨?_, rfl⟩⟩
    · rw [hnotes]
      rfl
    · rw [hnotes]
      rfl
  · cases h

theorem processTranslatedBatch_moves {env : Env} {g g' : Gateway} {pc : Translated} {task' : Task}
    (h : processTranslatedBatch libs env g pc = some (task', g')) :
    Moves libs env g g' (.translated pc) task' := by
  cases pc with
  | gather id batch => exact gather_moves h
  | collect messages => exact collect_moves h
  | translate todo pairs drain =>
    cases todo with
    | cons msg todo => exact translate_moves h
    | nil =>
      obtain ⟨rfl, rfl⟩ := Prod.mk.inj (Option.some.inj h)
      split
      · rename_i hpairs
        rw [hpairs]
        exact ⟨rfl, rfl, .inl ⟨rfl, rfl⟩⟩
      · exact ⟨rfl, rfl, .inl ⟨rfl, rfl⟩⟩
  | cacheAll pairs drain =>
    obtain ⟨rfl, rfl⟩ := Prod.mk.inj (Option.some.inj h)
    exact ⟨rfl, rfl, .inl ⟨rfl, rfl⟩⟩
  | snapshotAll pairs drain =>
    obtain ⟨rfl, rfl⟩ := Prod.mk.inj (Option.some.inj h)
    exact ⟨rfl, rfl, .inr ⟨pairs, drain, rfl, rfl⟩⟩
  | enqueue translated drain =>
    cases translated with
    | nil =>
      obtain ⟨rfl, rfl⟩ := Prod.mk.inj (Option.some.inj h)
      exact ⟨rfl, rfl, .inl ⟨rfl, rfl⟩⟩
    | cons translated rest =>
      rw [processTranslatedBatch] at h
      split at h
      · obtain ⟨rfl, rfl⟩ := Prod.mk.inj (Option.some.inj h)
        cases drain <;> exact ⟨rfl, rfl, .inl ⟨rfl, rfl⟩⟩
      · obtain ⟨rfl, rfl⟩ := Prod.mk.inj (Option.some.inj h)
        exact ⟨rfl, rfl, .inl ⟨rfl, rfl⟩⟩

theorem advance_moves {env : Env} {g g' : Gateway} {task task' : Task}
    (hordinary : isEmergencyTask task = false) (h : advance libs env g task = some (task', g')) :
    Moves libs env g g' task task' := by
  cases task with
  | idle => cases h
  | emergency pc => cases hordinary
  | incoming pc =>
    obtain ⟨hpending, hordinary', hsnapshots⟩ := processIncomingBatch_quiet h
    refine ⟨?_, hordinary', .inl ⟨rfl, hsnapshots⟩⟩
    rw [hpending]
    rfl
  | translated pc => exact processTranslatedBatch_moves h

/-! ## Whole runs -/

/-- A batch that is stored next neither evicts a snapshot nor replaces one. -/
def Stores (sm : SnapshotManager) : Task → Prop
  | .translated (.snapshotAll pairs _) =>
    sm.map.keys.length < sm.maxSnapshots ∧
      SnapshotManager.generateSnapshotId (pairs.map Prod.snd) .astSpaceMobile ∉ sm.map.keys
  | _ => True

instance decidableStores (sm : SnapshotManager) (task : Task) : Decidable (Stores sm task) := by
  unfold Stores
  split <;> infer_instance

/-- No emergencies, and no snapshot lost. -/
def Kept (s : Sys n) : Act n → Prop
  | .send _ msg => msg.isEmergency = false
  | .advance i _ => Stores s.gateway.snapshotManager (s.task i)
  | _ => True

instance decidableKept (s : Sys n) (a : Act n) : Decidable (Kept s a) := by
  unfold Kept
  split <;> infer_instance

/-- The snapshots, as far as an uplink looks at them. -/
def held (sm : SnapshotManager) : List (UInt64 × List Message) :=
  sm.map.entries.map fun e => (e.2.deviceId, e.2.messages)

/-- What the record says about the state. -/
structure Recorded (s : Sys n) (log : List Note) : Prop where
  ordinary : ∀ i, isEmergencyTask (s.task i) = false
  moved : ∀ x, (translations log).count x =
    (batches log).flatten.count x + ∑ i, (pending (s.task i)).count x
  held : (held s.gateway.snapshotManager).Perm
    ((batches log).map fun pairs => (batchDevice pairs, pairs.map Prod.snd))

/-- With room and a new id, a snapshot is added and nothing else changes. -/
theorem held_createSnapshot {sm : SnapshotManager} {now device : UInt64} {messages : List Message}
    {protocol : Protocol} (hroom : sm.map.keys.length < sm.maxSnapshots)
    (hnew : SnapshotManager.generateSnapshotId messages protocol ∉ sm.map.keys) :
    held (sm.createSnapshot now messages protocol device).2 = (device, messages) :: held sm := by
  have hkeep : sm.room.1 = sm.map := by rw [SnapshotManager.room, if_neg (Nat.not_le_of_lt hroom)]
  rw [SnapshotManager.createSnapshot_eq, held, hkeep, AList.entries_insert_of_notMem hnew]
  rfl

theorem Recorded.advance {s : Sys n} {log : List Note} (hs : Recorded s log) {i : Fin n} {env : Env}
    {task' : Task} {g' : Gateway} (hkept : Kept s (.advance i env))
    (hmoves : Moves libs env s.gateway g' (s.task i) task') :
    Recorded { gateway := g', task := Function.update s.task i task' }
      (log ++ notes libs env (s.task i)) where
  ordinary := Trace.forall_update (P := fun _ t => isEmergencyTask t = false) hmoves.ordinary hs.ordinary
  moved x := by
    have hsum := Trace.sum_update (Finset.mem_univ i) (fun t => (pending t).count x) s.task task'
    have hbalance := congrArg (List.count x) hmoves.balance
    have hlog := hs.moved x
    rw [List.count_append, List.count_append] at hbalance
    rw [translations_append, batches_append, List.flatten_append, List.count_append,
      List.count_append]
    show _ = _ + ∑ j, (pending (Function.update s.task i task' j)).count x
    omega
  held := by
    rw [batches_append, List.map_append]
    rcases hmoves.snapshots with ⟨hnone, hsame⟩ | ⟨pairs, drain, htask, hstored⟩
    · rw [hnone, List.map_nil, List.append_nil]
      show (Gateway.held g'.snapshotManager).Perm _
      rw [hsame]
      exact hs.held
    · -- a batch is stored: `Kept` rules out that it evicts or replaces
      change Stores s.gateway.snapshotManager (s.task i) at hkept
      rw [htask] at hkept
      show (Gateway.held g'.snapshotManager).Perm _
      rw [hstored, held_createSnapshot hkept.1 hkept.2, htask]
      exact (hs.held.cons _).trans (List.perm_append_singleton _ _).symm

theorem Recorded.start {s s' : Sys n} {log : List Note} (hs : Recorded s log) {g : Gateway}
    {i : Fin n} {t : Task} (h : s.start i g t = some s') (hpending : pending t = [])
    (hordinary : isEmergencyTask t = false) (hg : g.snapshotManager = s.gateway.snapshotManager) :
    Recorded s' log := by
  rw [Sys.start] at h
  split at h
  · rename_i hidle
    obtain rfl := Option.some.inj h
    refine ⟨?_, fun x => ?_, ?_⟩
    · exact Trace.forall_update (P := fun _ t => isEmergencyTask t = false) hordinary hs.ordinary
    · have hsum := Trace.sum_update (Finset.mem_univ i) (fun t => (pending t).count x) s.task t
      have hlog := hs.moved x
      have hold : pending (s.task i) = [] := by rw [hidle]; rfl
      simp only [hpending, hold, List.count_nil, Nat.add_zero] at hsum
      show _ = _ + ∑ j, (pending (Function.update s.task i t j)).count x
      omega
    · show (Gateway.held g.snapshotManager).Perm _
      rw [hg]
      exact hs.held
  · cases h

theorem Recorded.step {s s' : Sys n} {a : Act n} {log : List Note} (hkept : Kept s a)
    (h : step libs s a = some s') (hs : Recorded s log) : Recorded s' (log ++ notesOf libs s a) := by
  cases a with
  | advance i env =>
    obtain ⟨x, hx, rfl⟩ := Option.map_eq_some_iff.mp h
    exact hs.advance hkept (advance_moves (hs.ordinary i) hx)
  | send i msg =>
    show Recorded s' (log ++ [])
    change msg.isEmergency = false at hkept
    rw [Gateway.step, hkept, if_neg Bool.false_ne_true] at h
    obtain rfl := Option.some.inj h
    rw [List.append_nil]
    exact ⟨hs.ordinary, hs.moved, hs.held⟩
  | takeBatch i size =>
    show Recorded s' (log ++ [])
    rw [Gateway.step] at h
    rw [List.append_nil]
    split at h
    · exact hs.start h rfl rfl rfl
    · cases h
  | startWorker i id =>
    show Recorded s' (log ++ [])
    rw [Gateway.step] at h
    rw [List.append_nil]
    split at h
    · exact hs.start h rfl rfl rfl
    · cases h
  | drainSpread i =>
    show Recorded s' (log ++ [])
    rw [Gateway.step] at h
    rw [List.append_nil]
    refine hs.start h ?_ ?_ rfl
    · split <;> rfl
    · split <;> rfl
  | transmit size uplink =>
    show Recorded s' (log ++ [])
    rw [Gateway.step] at h
    rw [List.append_nil]
    split at h
    · obtain rfl := Option.some.inj h
      refine ⟨hs.ordinary, hs.moved, ?_⟩
      show (Gateway.held ((s.gateway.count _).callUplink uplink _).snapshotManager).Perm _
      rw [snapshotManager_callUplink]
      exact hs.held
    · cases h

theorem Recorded.init (cacheTtl : Nat) (hasCredentials : Bool) (now : Nat) :
    Recorded (Sys.init n cacheTtl hasCredentials now) [] where
  ordinary _ := rfl
  moved x := by
    show 0 = 0 + ∑ _ : Fin n, 0
    rw [Finset.sum_const_zero, Nat.add_zero]
  held := .refl _

/-! ## What a device gets -/

/-- The messages a drain returns. -/
def drained (sm : SnapshotManager) (clock device : UInt64) : List Message :=
  (sm.drainForUplink clock device 0).1.flatMap Snapshot.messages

/-- With nothing expired, a drain returns all that is held for the device. -/
theorem drained_eq {sm : SnapshotManager} {clock : UInt64}
    (hfresh : ∀ e ∈ sm.map.entries, sm.unexpired clock e.2 = true) (device : UInt64) :
    drained sm clock device = ((held sm).filter fun x => x.1 = device).flatMap Prod.snd := by
  have hfilter : ∀ e ∈ sm.map.entries,
      sm.forUplink clock device 0 e.2 = decide (e.2.deviceId = device) := by
    intro e he
    simp [SnapshotManager.forUplink, hfresh e he]
  have hsame : sm.map.entries.filter (sm.forUplink clock device 0 ∘ Sigma.snd) =
      sm.map.entries.filter fun e => decide (e.2.deviceId = device) := List.filter_congr hfilter
  rw [drained, SnapshotManager.drainForUplink, held, List.filter_map, List.filter_map,
    List.flatMap_map, List.flatMap_map, hsame]
  rfl

/-- In a batch of one device, the messages of a device are all of them or none. -/
theorem filter_batch {pairs : List (Message × Message)}
    (h : ∀ x ∈ pairs, deviceOf x.1 = batchDevice pairs) (device : UInt64) :
    pairs.filter (fun x => deviceOf x.1 = device) = if batchDevice pairs = device then pairs else [] := by
  split
  · rename_i hdevice
    exact List.filter_eq_self.mpr fun x hx => decide_eq_true ((h x hx).trans hdevice)
  · rename_i hdevice
    refine List.filter_eq_nil_iff.mpr fun x hx htrue => hdevice ?_
    exact (h x hx).symm.trans (of_decide_eq_true htrue)

theorem filter_batches (bs : List (List (Message × Message)))
    (h : ∀ pairs ∈ bs, ∀ x ∈ pairs, deviceOf x.1 = batchDevice pairs) (device : UInt64) :
    bs.flatten.filter (fun x => deviceOf x.1 = device) =
      (bs.filter fun pairs => batchDevice pairs = device).flatten := by
  induction bs with
  | nil => rfl
  | cons pairs bs ih =>
    rw [List.forall_mem_cons] at h
    rw [List.flatten_cons, List.filter_append, ih h.2, filter_batch h.1, List.filter_cons]
    by_cases hdevice : batchDevice pairs = device
    · rw [if_pos hdevice, if_pos (decide_eq_true hdevice), List.flatten_cons]
    · rw [if_neg hdevice, if_neg (by simpa using hdevice), List.nil_append]

/-- **What a device's snapshots hold.**  In a run without emergencies, with no snapshot evicted or
    replaced and none expired at the drain, once no batch is under way: everything translated is in the
    batches stored, and a device's drain returns the batches whose first message is the device's — its
    own messages exactly, if no batch mixes devices. -/
theorem uplink_snapshots (cacheTtl : Nat) (hasCredentials : Bool) (now : Nat) (as : List (Act n))
    (s : Sys n) (hrun : Trace.run (step libs) (Sys.init n cacheTtl hasCredentials now) as = some s)
    (hkept : Trace.Along (step libs) Kept (Sys.init n cacheTtl hasCredentials now) as)
    (hdone : ∀ i, pending (s.task i) = []) (clock : UInt64)
    (hfresh : ∀ e ∈ s.gateway.snapshotManager.map.entries,
      s.gateway.snapshotManager.unexpired clock e.2 = true) (device : UInt64) :
    let log := Trace.collect (step libs) (notesOf libs) (Sys.init n cacheTtl hasCredentials now) as
    (translations log).Perm (batches log).flatten ∧
    (drained s.gateway.snapshotManager clock device).Perm
      (((batches log).filter fun pairs => batchDevice pairs = device).flatMap fun pairs =>
        pairs.map Prod.snd) ∧
    ((∀ pairs ∈ batches log, ∀ x ∈ pairs, deviceOf x.1 = batchDevice pairs) →
      (drained s.gateway.snapshotManager clock device).Perm
        (((translations log).filter fun x => deviceOf x.1 = device).map Prod.snd)) := by
  intro log
  have hrecorded : Recorded s log := Trace.Along.invariant_collect
    (fun _ _ _ _ hC h hP => hP.step hC h) as _ s [] hkept hrun (.init cacheTtl hasCredentials now)
  -- nothing is pending at the end, so every translation has reached a batch
  have hall : (translations log).Perm (batches log).flatten := by
    refine List.perm_iff_count.mpr fun x => ?_
    have hzero : ∑ i, (pending (s.task i)).count x = 0 :=
      Finset.sum_eq_zero fun i _ => by rw [hdone i, List.count_nil]
    rw [hrecorded.moved x, hzero, Nat.add_zero]
  have hdrained : (drained s.gateway.snapshotManager clock device).Perm
      (((batches log).filter fun pairs => batchDevice pairs = device).flatMap fun pairs =>
        pairs.map Prod.snd) := by
    rw [drained_eq hfresh]
    refine ((hrecorded.held.filter _).flatMap_right _).trans ?_
    rw [List.filter_map, List.flatMap_map]
    exact .refl _
  refine ⟨hall, hdrained, fun hpure => hdrained.trans ?_⟩
  refine List.Perm.trans ?_ ((hall.filter _).map Prod.snd).symm
  rw [filter_batches _ hpure, List.map_flatten, List.flatMap]

/-! ## Readings of one device and of two -/

/-- A reading of one byte; the byte makes the device. -/
def readingOf (k : UInt8) : Message := .newWithTemporal .nidd [k] .operational 0 0

/-- What goes out for it. -/
def readingOut (k : UInt8) : Message := { readingOf k with protocol := .astSpaceMobile }

/-- Readings with the given bytes go through one batch to the regular shards. -/
def readings (ks : List UInt8) : List (Act 1) :=
  ks.map (fun k => .send (.last 0) (readingOf k)) ++ .takeBatch (.last 0) ks.length ::
    List.replicate (6 + ks.length) (.advance (.last 0) ⟨fun _ => 0, fun _ => 0, .ok, true⟩)

/-- The worker of a shard takes what has come there, in so many sections. -/
def worked (id sections : Nat) : List (Act 1) :=
  .startWorker (.last 0) id ::
    List.replicate sections (.advance (.last 0) ⟨fun _ => 0, fun _ => 0, .ok, true⟩)

/-- Of nine readings, two come to the shards 1 and 2 each; here both are the same device's. -/
def twoDevices : List (Act 1) := readings [1, 2, 3, 4, 5, 6, 7, 1, 2] ++ worked 1 11 ++ worked 2 11

/-- Two batches of two readings, each of one device: a device's drain returns its own. -/
theorem uplink_snapshots_two :
    ∃ s : Sys 1, Trace.run (step frameLibs) (Sys.init 1 60000000000 true 0) twoDevices = some s ∧
      (drained s.gateway.snapshotManager 0 (deviceOf (readingOf 1))).Perm [readingOut 1, readingOut 1] ∧
      (drained s.gateway.snapshotManager 0 (deviceOf (readingOf 2))).Perm [readingOut 2, readingOut 2] := by
  have hend : (Trace.run (step frameLibs) (Sys.init 1 60000000000 true 0) twoDevices).map
      (fun s => (s.task 0, s.gateway.snapshotManager.map.entries.map fun e =>
        s.gateway.snapshotManager.unexpired 0 e.2)) = some (.idle, [true, true]) := by
    decide +kernel
  obtain ⟨s, hrun, hs⟩ := Option.map_eq_some_iff.mp hend
  obtain ⟨htask, hexpired⟩ := Prod.mk.inj hs
  have hfresh : ∀ e ∈ s.gateway.snapshotManager.map.entries,
      s.gateway.snapshotManager.unexpired 0 e.2 = true := by
    intro e he
    have hmem := List.mem_map_of_mem (f := fun e => s.gateway.snapshotManager.unexpired 0 e.2) he
    rw [hexpired] at hmem
    simpa using hmem
  have hown := fun device => (uplink_snapshots 60000000000 true 0 twoDevices s hrun (by decide +kernel)
    (fun i => by rw [Subsingleton.elim i 0, htask]; rfl) 0 hfresh device).2.2 (by decide +kernel)
  refine ⟨s, hrun, (hown _).trans ?_, (hown _).trans ?_⟩
  · decide +kernel
  · decide +kernel

/-- **A batch of two devices is stored under the first.**  Of eight readings the first and the last
    come to the same shard and are translated in one batch: a drain for the first device returns both,
    a drain for the second nothing. -/
theorem second_device_missing :
    let start := Sys.init 1 60000000000 true 0
    Trace.Along (step frameLibs) Kept start (readings [1, 2, 3, 4, 5, 6, 7, 8] ++ worked 1 11) ∧
    translations (Trace.collect (step frameLibs) (notesOf frameLibs) start
      (readings [1, 2, 3, 4, 5, 6, 7, 8] ++ worked 1 11)) =
        [(readingOf 1, readingOut 1), (readingOf 8, readingOut 8)] ∧
    deviceOf (readingOf 1) ≠ deviceOf (readingOf 8) ∧
    (Trace.run (step frameLibs) start (readings [1, 2, 3, 4, 5, 6, 7, 8] ++ worked 1 11)).map (fun s =>
      (s.task 0, drained s.gateway.snapshotManager 0 (deviceOf (readingOf 1)),
        drained s.gateway.snapshotManager 0 (deviceOf (readingOf 8)))) =
      some (.idle, [readingOut 1, readingOut 8], []) := by
  decide +kernel

end Gateway

end FloatProtocols
