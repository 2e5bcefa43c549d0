/-
  The load of the gateway: how much is left to do for what it holds.

  A message weighs as many sections as can still come of it.  A translation waiting for transmission
  counts 5, a message in a shard 13 (received, translated, enqueued, transmitted, and a share in the
  sections of its batch), a message in an incoming batch 840: the cadence rules make up to 60 of it, and
  each may miss the cache.

  `Settles` is what a section does to this: it makes the whole LIGHTER, whatever it moves where.
-/
import FloatProtocols.Gateway.Progress

namespace FloatProtocols

open Wire

namespace Gateway

open Translator Sharding

variable {libs : Libs} {env : Env} {g g' : Gateway} {task' : Task}

/-- What is left to do for what a task has in hand. -/
def load : Task → Nat
  | .idle => 0
  | .emergency (.reconcile _) => 6
  | .emergency (.store _) => 5
  | .emergency (.push _) => 4
  | .emergency (.snapshot _) => 3
  | .emergency (.translate _) => 2
  | .emergency (.emit _) => 1
  | .incoming (.reconcile batch) => 840 * batch.length + 6
  | .incoming (.store reconciled) => 840 * reconciled.length + 5
  | .incoming (.partition reconciled) => 840 * reconciled.length + 4
  | .incoming (.pushSpread spread normal) => 14 * spread.length + 14 * normal.length + 3
  | .incoming (.lookup normal) => 14 * normal.length + 2
  | .incoming (.route routed) => 14 * routed.length + 1
  -- a worker that waits for its first message has nothing in hand
  | .translated (.gather _ batch) => if batch = [] then 0 else 7 * batch.length + 5
  | .translated (.collect messages) => 7 * messages.length + 5
  | .translated (.translate todo pairs _) => 7 * todo.length + 6 * pairs.length + 4
  | .translated (.cacheAll pairs _) => 6 * pairs.length + 3
  | .translated (.snapshotAll pairs _) => 6 * pairs.length + 2
  | .translated (.enqueue translated _) => 6 * translated.length + 1

/-- The messages in the shards that are served: the regular ones and the spread shard. -/
def shelved (channel : Nat → List Message) : Nat := ∑ id ∈ Finset.Icc 1 8, (channel id).length

theorem shelved_update (channel : Nat → List Message) {id : Nat} (hid : id ∈ Finset.Icc 1 8)
    (l : List Message) :
    shelved (Function.update channel id l) + (channel id).length = shelved channel + l.length :=
  Trace.sum_update hid List.length channel l

/-- A push adds one message at most, -/
theorem shelved_perform_le (m : Manager) (p : Push) :
    shelved (m.perform p).2.channel ≤ shelved m.channel + 1 := by
  rcases m.perform_outcome p with ⟨-, hchannel, -⟩ | ⟨-, -, hchannel, -⟩
  · rw [hchannel]
    exact Nat.le_succ _
  · rw [hchannel]
    by_cases hid : m.target p ∈ Finset.Icc 1 8
    · have hsum := shelved_update m.channel hid (m.channel (m.target p) ++ [p.message])
      rw [List.length_append, List.length_singleton] at hsum
      omega
    · have hsame : shelved (Function.update m.channel (m.target p)
          (m.channel (m.target p) ++ [p.message])) = shelved m.channel :=
        Trace.sum_update_of_notMem hid List.length _ _
      omega

/-- and none to these if it is an emergency. -/
theorem shelved_deadzone (m : Manager) (msg : Message) :
    shelved (m.perform (.deadzone msg)).2.channel = shelved m.channel := by
  rcases m.perform_outcome (.deadzone msg) with ⟨-, hchannel, -⟩ | ⟨-, -, hchannel, -⟩
  · rw [hchannel]
  · have hid : m.target (.deadzone msg) ∉ Finset.Icc 1 8 := fun h =>
      absurd (Finset.mem_Icc.mp h).1 (Nat.not_succ_le_zero 0)
    rw [hchannel]
    exact Trace.sum_update_of_notMem hid List.length _ _

/-- What a section does: it leaves the batcher alone, enqueues one translation at most, and the whole
    gets lighter. -/
structure Settles (g g' : Gateway) (task task' : Task) : Prop where
  batcher : g'.batcher = g.batcher
  short : g'.transmission.length ≤ g.transmission.length + 1
  lighter : load task' + 13 * shelved g'.shardManager.channel + 5 * g'.transmission.length <
    load task + 13 * shelved g.shardManager.channel + 5 * g.transmission.length

/-- A section that keeps to its own. -/
theorem Settles.quiet {task : Task} (hbatcher : g'.batcher = g.batcher)
    (htransmission : g'.transmission = g.transmission)
    (hshelved : shelved g'.shardManager.channel = shelved g.shardManager.channel)
    (hload : load task' < load task) : Settles g g' task task' := by
  refine ⟨hbatcher, ?_, ?_⟩
  · rw [htransmission]
    exact Nat.le_succ _
  · rw [htransmission, hshelved]
    omega

/-- A section that pushes. -/
theorem Settles.push (p : Push) {task : Task} (hbatcher : g'.batcher = g.batcher)
    (htransmission : g'.transmission = g.transmission)
    (hchannel : g'.shardManager.channel = (g.shardManager.perform p).2.channel)
    (hload : load task' + 13 < load task) : Settles g g' task task' := by
  have hshelved := shelved_perform_le g.shardManager p
  refine ⟨hbatcher, ?_, ?_⟩
  · rw [htransmission]
    exact Nat.le_succ _
  · rw [htransmission, hchannel]
    omega

theorem callUplink_queues (g : Gateway) (uplink : Uplink) (messages : List Message) :
    (g.callUplink uplink messages).batcher = g.batcher ∧
    (g.callUplink uplink messages).transmission = g.transmission ∧
    (g.callUplink uplink messages).shardManager = g.shardManager := by
  obtain ⟨_, _, _, hframe⟩ := g.callUplink_frame uplink messages
  rw [hframe]
  exact ⟨rfl, rfl, rfl⟩

theorem Settles.emit (uplink : Uplink) (translated : Message) {task : Task} (f : Metrics → Metrics)
    (hload : load task' < load task) :
    Settles g ((g.count f).sendToAsts uplink translated) task task' := by
  obtain ⟨hbatcher, htransmission, hmanager⟩ := callUplink_queues (g.count f) uplink [translated]
  exact .quiet hbatcher htransmission (congrArg (fun m => shelved m.channel) hmanager) hload

theorem processEmergency_settles {pc : Emergency}
    (h : processEmergency libs env g pc = some (task', g')) : Settles g g' (.emergency pc) task' := by
  cases pc with
  | push msg =>
    cases h
    exact .quiet rfl rfl (shelved_deadzone g.shardManager msg) (Nat.lt_succ_self 3)
  | translate msg =>
    rw [processEmergency] at h
    split at h
    · cases h
      exact .quiet rfl rfl rfl (Nat.lt_succ_self 1)
    · cases h
      exact .quiet rfl rfl rfl (Nat.zero_lt_succ 1)
    · cases h
  | emit translated =>
    cases h
    exact .emit env.uplink translated id (Nat.zero_lt_succ 0)
  | _ =>
    cases h
    exact .quiet rfl rfl rfl (Nat.lt_succ_self _)

theorem processIncomingBatch_settles (hg : g.Configured) {pc : Incoming}
    (h : processIncomingBatch env g pc = some (task', g')) : Settles g g' (.incoming pc) task' := by
  cases pc with
  | reconcile batch =>
    cases h
    have hcounted : ∀ g' : Gateway, g' = batch.foldl (fun g msg =>
        g.count (·.recordProtocol msg.protocol)) g →
        g'.batcher = g.batcher ∧ g'.transmission = g.transmission ∧ g'.shardManager = g.shardManager := by
      rintro g' rfl
      exact List.foldlRecOn (motive := fun x : Gateway => x.batcher = g.batcher ∧
        x.transmission = g.transmission ∧ x.shardManager = g.shardManager) batch _ ⟨rfl, rfl, rfl⟩
        fun _ hx _ _ => hx
    obtain ⟨hbatcher, htransmission, hmanager⟩ := hcounted _ rfl
    refine .quiet hbatcher htransmission (congrArg (fun m => shelved m.channel) hmanager) ?_
    rw [load, load, List.length_mapIdx]
    exact Nat.lt_succ_self _
  | store reconciled =>
    cases h
    exact .quiet rfl rfl rfl (Nat.lt_succ_self _)
  | partition reconciled =>
    cases h
    have hlength := length_partition_le hg env.instant reconciled
    refine .quiet rfl rfl rfl ?_
    rw [load, load]
    omega
  | pushSpread spread normal =>
    cases spread with
    | nil =>
      cases h
      refine .quiet rfl rfl rfl ?_
      split <;> simp only [load, List.length_nil] <;> omega
    | cons msg spread =>
      cases h
      refine .push (.spread msg) rfl rfl rfl ?_
      rw [load, load, List.length_cons]
      omega
  | lookup normal =>
    cases h
    refine .quiet rfl rfl rfl ?_
    rw [load, load, List.length_zip]
    omega
  | route routed =>
    rcases routed with _ | ⟨⟨msg, _ | translated⟩, routed⟩
    · cases h
      exact .quiet rfl rfl rfl (Nat.zero_lt_succ 0)
    · have hload : load (.incoming (.route routed)) + 13 <
          load (.incoming (.route ((msg, none) :: routed))) := by
        rw [load, load, List.length_cons]
        omega
      rw [processIncomingBatch] at h
      rcases hresult : g.shardManager.perform (.regular msg) with ⟨id | e | _, m'⟩
      · rw [Manager.perform] at hresult
        rw [hresult] at h
        cases h
        exact .push (.regular msg) rfl rfl (by rw [Manager.perform, hresult]) hload
      · rw [Manager.perform] at hresult
        rw [hresult] at h
        cases h
        exact .push (.regular msg) rfl rfl (by rw [Manager.perform, hresult]) hload
      · rw [Manager.perform] at hresult
        rw [hresult] at h
        cases h
    · cases h
      refine .emit env.uplink translated .recordCacheHit ?_
      rw [load, load, List.length_cons]
      omega

/-- A receive takes a message off a shard; what it adds to the load is less than its place there. -/
theorem Settles.receive {task : Task} {id : Nat} (hid : id ∈ Finset.Icc 1 8) {msg : Message}
    {rest : List Message} (hq : g.shardManager.channel id = msg :: rest)
    (hload : load task' < load task + 13) :
    Settles g { g with shardManager := { g.shardManager with
      channel := Function.update g.shardManager.channel id rest } } task task' := by
  have hsum := shelved_update g.shardManager.channel hid rest
  rw [hq, List.length_cons] at hsum
  refine ⟨rfl, Nat.le_succ _, ?_⟩
  show load task' + 13 * shelved (Function.update g.shardManager.channel id rest) +
    5 * g.transmission.length < _
  omega

/-- A worker receives. -/
theorem gather_settles {id : Nat} {batch : List Message} (hid : 1 ≤ id ∧ id < 8)
    (h : gather g id batch = some (task', g')) :
    Settles g g' (.translated (.gather id batch)) task' := by
  have hstart : batch ≠ [] → load (.translated (.translate batch [] false)) <
      load (.translated (.gather id batch)) := by
    intro hne
    rw [load, load, if_neg hne, List.length_nil]
    omega
  rw [gather] at h
  split at h
  · rcases hq : g.shardManager.channel id with _ | ⟨msg, rest⟩
    · rw [hq] at h
      dsimp only at h
      split at h
      · cases h
      · rename_i hne
        cases h
        exact .quiet rfl rfl rfl (hstart hne)
    · rw [hq] at h
      cases h
      refine .receive (Finset.mem_Icc.mpr ⟨hid.1, hid.2.le⟩) hq ?_
      have hne : batch ++ [msg] ≠ [] := List.append_ne_nil_of_right_ne_nil _ (List.cons_ne_nil _ _)
      rw [load, load, if_neg hne, List.length_append, List.length_singleton]
      split
      · rename_i hempty
        rw [hempty, List.length_nil]
        omega
      · omega
  · rename_i hfull
    cases h
    refine .quiet rfl rfl rfl (hstart ?_)
    rintro rfl
    exact hfull (Nat.zero_lt_succ 19)

/-- The drain receives. -/
theorem collect_settles (hg : g.Configured) {messages : List Message}
    (h : collect g messages = some (task', g')) :
    Settles g g' (.translated (.collect messages)) task' := by
  rw [collect, hg.spreadShardId] at h
  rcases hq : g.shardManager.channel 8 with _ | ⟨msg, rest⟩
  · rw [hq] at h
    cases h
    refine .quiet rfl rfl rfl ?_
    split <;> simp only [load, List.length_nil] <;> omega
  · rw [hq] at h
    cases h
    refine .receive (by decide) hq ?_
    rw [load, load, List.length_append, List.length_singleton]
    omega

theorem processTranslatedBatch_settles (hg : g.Configured) {pc : Translated}
    (hpc : Posted (.translated pc)) (h : processTranslatedBatch libs env g pc = some (task', g')) :
    Settles g g' (.translated pc) task' := by
  cases pc with
  | gather id batch => exact gather_settles hpc h
  | collect messages => exact collect_settles hg h
  | translate todo pairs drain =>
    cases todo with
    | nil =>
      cases h
      refine .quiet rfl rfl rfl ?_
      split <;> simp only [load, List.length_nil] <;> omega
    | cons msg todo =>
      rw [processTranslatedBatch] at h
      split at h
      · cases h
        refine .quiet rfl rfl rfl ?_
        rw [load, load, List.length_append, List.length_singleton, List.length_cons]
        omega
      · cases h
        refine .quiet rfl rfl rfl ?_
        rw [load, load, List.length_cons]
        omega
      · cases h
  | cacheAll pairs drain =>
    cases h
    exact .quiet rfl rfl rfl (Nat.lt_succ_self _)
  | snapshotAll pairs drain =>
    cases h
    refine .quiet rfl rfl rfl ?_
    rw [load, load, List.length_map]
    exact Nat.lt_succ_self _
  | enqueue translated drain =>
    cases translated with
    | nil =>
      cases h
      exact .quiet rfl rfl rfl (Nat.zero_lt_succ 0)
    | cons translated rest =>
      have hlength : (g.transmission ++ [translated]).length = g.transmission.length + 1 :=
        List.length_append
      rw [processTranslatedBatch] at h
      split at h
      · cases h
        cases drain with
        | false =>
          refine ⟨rfl, hlength.le, ?_⟩
          show load _ + 13 * shelved g.shardManager.channel + 5 * (g.transmission ++ [translated]).length < _
          rw [load, load, hlength, List.length_cons]
          omega
        | true =>
          refine ⟨rfl, hlength.le, ?_⟩
          show load _ + 13 * shelved g.shardManager.channel + 5 * (g.transmission ++ [translated]).length < _
          rw [load, load, hlength, List.length_cons]
          omega
      · cases h
        refine .quiet rfl rfl rfl ?_
        rw [load, load, List.length_cons]
        omega

theorem advance_settles (hg : g.Configured) {task : Task} (htask : Posted task)
    (h : advance libs env g task = some (task', g')) : Settles g g' task task' := by
  cases task with
  | idle => cases h
  | emergency pc => exact processEmergency_settles h
  | incoming pc => exact processIncomingBatch_settles hg h
  | translated pc => exact processTranslatedBatch_settles hg htask h

end Gateway

end FloatProtocols
