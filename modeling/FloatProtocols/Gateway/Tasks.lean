/-
  `gateway.rs`: the gateway as tasks over shared components.

  1. **Components** — cache, shards, snapshots, bi-temporal store, cadence rules, clock offsets, EWMA
     trackers and counters, each with its own lock, plus the two batchers as queues that are cut into
     batches at any time.

  2. **Tasks** — the emergency path, the incoming batch, and the translated batch of a shard worker or
     of the spread drainer.  A task moves from one critical section to the next (`advance`), and
     between any two of them every other task may move.  A call of the shard manager is one section
     here; inside, it is the business of `Sharding.Interleaving`.

  3. **The outside (`Env`)** — what a step reads from the clocks, and how the uplink and the
     transmission queue answered.

  Which pooled translator translates makes no difference: all of them run `translateSync`.
-/
import FloatProtocols.Gateway.Cadence
import FloatProtocols.Gateway.Clock
import FloatProtocols.Gateway.Ewma
import FloatProtocols.Lib.Trace
import FloatProtocols.Sharding.Manager
import FloatProtocols.Storage.BiTemporal
import FloatProtocols.Storage.Cache
import FloatProtocols.Storage.Snapshot
import FloatProtocols.Translator

namespace FloatProtocols

open Wire

/-! ## Counters -/

/-- `Metrics`, without the latencies, and without `messages_batched`, which nothing increments.  The
    source counts in `AtomicU64`: these are its counters up to their wrap at `2 ^ 64`. -/
structure Metrics where
  messagesTranslated : Nat
  cacheHits : Nat
  cacheMisses : Nat
  errors : Nat
  spreadShardedMessages : Nat
  transmissionBatchesSent : Nat
  transmissionBatchMessages : Nat
  protocolMessages : Protocol → Nat

namespace Metrics

/-- `Metrics::new`. -/
def new : Metrics := ⟨0, 0, 0, 0, 0, 0, 0, fun _ => 0⟩

/-- `increment_translated`. -/
def incrementTranslated (m : Metrics) : Metrics :=
  { m with messagesTranslated := m.messagesTranslated + 1 }

/-- `record_cache_hit`. -/
def recordCacheHit (m : Metrics) : Metrics := { m with cacheHits := m.cacheHits + 1 }

/-- `record_cache_miss`. -/
def recordCacheMiss (m : Metrics) : Metrics := { m with cacheMisses := m.cacheMisses + 1 }

/-- `record_error`. -/
def recordError (m : Metrics) : Metrics := { m with errors := m.errors + 1 }

/-- `record_spread_shard`. -/
def recordSpreadShard (m : Metrics) : Metrics :=
  { m with spreadShardedMessages := m.spreadShardedMessages + 1 }

/-- `record_transmission_batch`. -/
def recordTransmissionBatch (m : Metrics) (messageCount : Nat) : Metrics :=
  { m with transmissionBatchesSent := m.transmissionBatchesSent + 1
           transmissionBatchMessages := m.transmissionBatchMessages + messageCount }

/-- `record_protocol`. -/
def recordProtocol (m : Metrics) (p : Protocol) : Metrics :=
  { m with protocolMessages := Function.update m.protocolMessages p (m.protocolMessages p + 1) }

end Metrics

/-! ## The shared state -/

/-- How `circuit_breaker.call` came back. -/
inductive Uplink where
  | ok
  | circuitOpen
  | failed
  deriving DecidableEq, Repr

/-- What one step hears from outside: instants (ns) and Unix times (ms) for its successive readings,
    the uplink's answer, and whether the transmission queue still takes messages. -/
structure Env where
  instant : Nat → Nat
  nowMs : Nat → UInt64
  uplink : Uplink
  enqueued : Bool

/-- `Gateway`.  `batcher` and `transmission` are what the two batchers hold.  `uplinked` lists what went
    out to ASTS in a request, `withheld` what came to the uplink and went into none. -/
structure Gateway where
  cache : AsyncCache
  metrics : Metrics
  shardManager : Sharding.Manager
  snapshotManager : SnapshotManager
  bitemporalStore : BiTemporalStore
  cadenceTranslator : CadenceTranslator
  clockReconciler : ClockReconciler
  ewmaState : EwmaMap
  hasCredentials : Bool
  batcher : List Message
  transmission : List Message
  uplinked : List Message
  withheld : List Message

namespace Gateway

/-- `Gateway::new`; the workers' receivers leave the shard manager. -/
def new (cacheTtl : Nat) (hasCredentials : Bool) (now : Nat) : Gateway where
  cache := .new 1000 cacheTtl
  metrics := .new
  shardManager := (List.range' 1 7).foldl (fun m id => (m.getReceiver id).2) (.new 8 1000 now)
  snapshotManager := .new 100 300000
  bitemporalStore := .new 10000
  cadenceTranslator := CadenceTranslator.defaultIridiumToAstsRules.foldl .addRule .new
  clockReconciler := .new 1000 300000
  ewmaState := .empty
  hasCredentials := hasCredentials
  batcher := []
  transmission := []
  uplinked := []
  withheld := []

/-- A counter update. -/
def count (g : Gateway) (f : Metrics → Metrics) : Gateway := { g with metrics := f g.metrics }

/-- The request to ASTS, behind the circuit breaker.  Without credentials there is none, and an open
    breaker drops it unsent. -/
def callUplink (g : Gateway) (uplink : Uplink) (messages : List Message) : Gateway :=
  if g.hasCredentials then
    match uplink with
    | .ok =>
      { g.count (·.recordProtocol .astSpaceMobile) with uplinked := g.uplinked ++ messages }
    | .circuitOpen => { g.count .recordError with withheld := g.withheld ++ messages }
    | .failed => { g.count .recordError with uplinked := g.uplinked ++ messages }
  else { g with withheld := g.withheld ++ messages }

/-- Everything but the counters and the two lists is as it was. -/
theorem callUplink_frame (g : Gateway) (uplink : Uplink) (messages : List Message) :
    ∃ metrics uplinked withheld,
      g.callUplink uplink messages = { g with metrics, uplinked, withheld } := by
  unfold callUplink
  split
  · cases uplink <;> exact ⟨_, _, _, rfl⟩
  · exact ⟨_, _, _, rfl⟩

/-- What comes to the uplink goes out, or is withheld. -/
theorem callUplink_cases (g : Gateway) (uplink : Uplink) (messages : List Message) :
    ((g.callUplink uplink messages).uplinked = g.uplinked ++ messages ∧
      (g.callUplink uplink messages).withheld = g.withheld) ∨
    ((g.callUplink uplink messages).uplinked = g.uplinked ∧
      (g.callUplink uplink messages).withheld = g.withheld ++ messages) := by
  unfold callUplink
  split
  · cases uplink with
    | circuitOpen => exact .inr ⟨rfl, rfl⟩
    | _ => exact .inl ⟨rfl, rfl⟩
  · exact .inr ⟨rfl, rfl⟩

/-- `send_to_asts`. -/
def sendToAsts (g : Gateway) (uplink : Uplink) (message : Message) : Gateway :=
  g.callUplink uplink [message]

/-- `send_batch_to_asts`. -/
def sendBatchToAsts (g : Gateway) (uplink : Uplink) (messages : List Message) : Gateway :=
  (g.count (·.recordTransmissionBatch messages.length)).callUplink uplink messages

/-! ## Partition of an incoming batch -/

/-- The two halves of a batch and the trackers, as the loop builds them. -/
structure Partition where
  spread : List Message
  normal : List Message
  ewmaState : EwmaMap
  cadenceTranslator : CadenceTranslator

/-- What the cadence rules make of a message; only non-emergency Iridium traffic has any. -/
def cadenceCopies (ct : CadenceTranslator) (now : Int) (msg : Message) :
    List Message × CadenceTranslator :=
  if msg.protocol = .iridiumSBD ∧ msg.priority ≠ .emergency then
    let (action, ct) := ct.translateMessage now "telemetry" .iridiumSBD msg.priority
    match action with
    | .drop => ([], ct)
    | .duplicate count => (List.replicate count msg, ct)
    | .send => ([msg], ct)
    | .buffer _ => ([msg], ct)  -- buffering is not implemented, treated as send
  else ([msg], ct)

/-- One turn of the loop. -/
def Partition.add (p : Partition) (now : Int) (msg : Message) : Partition :=
  let (burst, ewmaState) := p.ewmaState.route msg
  if burst then { p with spread := p.spread ++ [msg], ewmaState }
  else
    let (copies, cadenceTranslator) := cadenceCopies p.cadenceTranslator now msg
    { p with normal := p.normal ++ copies, ewmaState, cadenceTranslator }

/-- The loop over the batch. -/
def partition (g : Gateway) (instant : Nat → Nat) (reconciled : List Message) : Partition :=
  reconciled.zipIdx.foldl (fun p x => p.add (instant x.2) x.1)
    ⟨[], [], g.ewmaState, g.cadenceTranslator⟩

theorem mem_cadenceCopies {ct : CadenceTranslator} {now : Int} {msg x : Message}
    (h : x ∈ (cadenceCopies ct now msg).1) : x = msg := by
  rw [cadenceCopies] at h
  split at h
  · simp only at h
    split at h
    · cases h
    · exact List.eq_of_mem_replicate h
    · exact List.mem_singleton.mp h
    · exact List.mem_singleton.mp h
  · exact List.mem_singleton.mp h

/-- The loop sorts and copies, it makes up no message. -/
theorem mem_partition {g : Gateway} {instant : Nat → Nat} {reconciled : List Message} {x : Message}
    (h : x ∈ (g.partition instant reconciled).spread ∨ x ∈ (g.partition instant reconciled).normal) :
    x ∈ reconciled := by
  revert h
  refine List.foldlRecOn (motive := fun p : Partition => x ∈ p.spread ∨ x ∈ p.normal → x ∈ reconciled)
    reconciled.zipIdx _ (by simp) fun p ih y hy => ?_
  have hy : y.1 ∈ reconciled := List.fst_mem_of_mem_zipIdx hy
  simp only [Partition.add]
  split
  · simp only [List.mem_append, List.mem_singleton]
    rintro ((hx | rfl) | hx)
    · exact ih (.inl hx)
    · exact hy
    · exact ih (.inr hx)
  · simp only [List.mem_append]
    rintro (hx | hx | hx)
    · exact ih (.inl hx)
    · exact ih (.inr hx)
    · rw [mem_cadenceCopies hx]
      exact hy

/-- The spread half is what the trackers of `Gateway.Ewma` divert. -/
theorem partition_spread (g : Gateway) (instant : Nat → Nat) (reconciled : List Message) :
    (g.partition instant reconciled).spread =
      ((g.ewmaState.routeAll reconciled).filter Prod.snd).map Prod.fst := by
  suffices hloop : ∀ (msgs : List Message) (k : Nat) (p : Partition),
      ((msgs.zipIdx k).foldl (fun p x => p.add (instant x.2) x.1) p).spread =
        p.spread ++ ((p.ewmaState.routeAll msgs).filter Prod.snd).map Prod.fst by
    rw [partition, hloop]
    rfl
  intro msgs
  induction msgs with
  | nil =>
    intro k p
    simp [EwmaMap.routeAll]
  | cons msg msgs ih =>
    intro k p
    rw [List.zipIdx_cons, List.foldl_cons, ih, EwmaMap.routeAll]
    rcases hroute : p.ewmaState.route msg with ⟨_ | _, ewma⟩ <;>
      simp [Partition.add, hroute]

end Gateway

/-! ## Tasks -/

/-- Where `process_emergency` stands. -/
inductive Emergency where
  | reconcile (msg : Message)
  | store (msg : Message)
  | push (msg : Message)
  | snapshot (msg : Message)
  | translate (msg : Message)
  | emit (translated : Message)
  deriving DecidableEq

/-- Where `process_incoming_batch` stands. -/
inductive Incoming where
  | reconcile (batch : List Message)
  | store (reconciled : List Message)
  | partition (reconciled : List Message)
  | pushSpread (spread normal : List Message)
  | lookup (normal : List Message)
  | route (routed : List (Message × Option Message))
  deriving DecidableEq

/-- Where `run_batched` and its `process_translated_batch` stand; `drain_spread_shard_once` (`drain`)
    has its own receives (`collect`) and joins at the translation. -/
inductive Translated where
  | gather (id : Nat) (batch : List Message)
  | collect (messages : List Message)
  | translate (todo : List Message) (pairs : List (Message × Message)) (drain : Bool)
  | cacheAll (pairs : List (Message × Message)) (drain : Bool)
  | snapshotAll (pairs : List (Message × Message)) (drain : Bool)
  | enqueue (translated : List Message) (drain : Bool)
  deriving DecidableEq

/-- A task: its next critical section and the data it carries there. -/
inductive Task where
  | idle
  | emergency (pc : Emergency)
  | incoming (pc : Incoming)
  | translated (pc : Translated)
  deriving DecidableEq

section

open Translator

variable (libs : Libs) (env : Env) (g : Gateway)

/-- `process_emergency`. -/
def processEmergency : Emergency → Option (Task × Gateway)
  | .reconcile msg =>
    some (.emergency (.store (g.clockReconciler.correct (env.nowMs 0) msg)), g)
  | .store msg =>
    some (.emergency (.push msg), { g with bitemporalStore := g.bitemporalStore.store msg })
  | .push msg =>
    some (.emergency (.snapshot msg), { g.count (·.recordProtocol msg.protocol) with
      shardManager := (g.shardManager.pushDeadzone msg).2 })
  | .snapshot msg =>
    some (.emergency (.translate msg), { g with
      snapshotManager := (g.snapshotManager.createSnapshot (env.nowMs 0) [msg] msg.protocol
        (AsyncCache.hashData msg.data)).2 })
  | .translate msg =>
    match translateSync libs (env.nowMs 0) msg with
    | .ok translated =>
      some (.emergency (.emit translated), { g with
        cache := g.cache.set (env.instant 0) msg.protocol msg.data translated })
    | .err _ => some (.idle, g.count .recordError)
    | .panic => none
  | .emit translated => some (.idle, g.sendToAsts env.uplink translated)

/-- Behind the push of a cache miss: a refused message counts as an error. -/
def afterPush (routed : List (Message × Option Message)) :
    Exec Sharding.ShardError Nat × Sharding.Manager → Option (Task × Gateway)
  | (.ok _, shardManager) => some (.incoming (.route routed), { g with shardManager })
  | (.err _, shardManager) =>
    some (.incoming (.route routed), { g.count .recordError with shardManager })
  | (.panic, _) => none

/-- `process_incoming_batch`. -/
def processIncomingBatch : Incoming → Option (Task × Gateway)
  | .reconcile batch =>
    some (.incoming (.store
        (batch.mapIdx fun i msg => g.clockReconciler.correct (env.nowMs i) msg)),
      batch.foldl (fun g msg => g.count (·.recordProtocol msg.protocol)) g)
  | .store reconciled =>
    some (.incoming (.partition reconciled),
      { g with bitemporalStore := g.bitemporalStore.storeBatch reconciled })
  | .partition reconciled =>
    let p := g.partition env.instant reconciled
    some (.incoming (.pushSpread p.spread p.normal),
      { g with ewmaState := p.ewmaState, cadenceTranslator := p.cadenceTranslator })
  | .pushSpread (msg :: spread) normal =>
    -- a refused spread message is logged, and not counted as an error
    some (.incoming (.pushSpread spread normal), { g.count .recordSpreadShard with
      shardManager := (g.shardManager.pushSpread msg).2 })
  | .pushSpread [] normal => some (if normal = [] then .idle else .incoming (.lookup normal), g)
  | .lookup normal =>
    some (.incoming (.route (normal.zip (g.cache.getBatch env.instant
      (normal.map fun m => (m.protocol, m.data))))), g)
  | .route ((_, some translated) :: routed) =>
    some (.incoming (.route routed), (g.count .recordCacheHit).sendToAsts env.uplink translated)
  | .route ((msg, none) :: routed) =>
    afterPush (g.count .recordCacheMiss) routed (g.shardManager.push msg)
  | .route [] => some (.idle, g)

/-- The receives of `run_batched`: the first one blocks, the later ones give up. -/
def gather (id : Nat) (batch : List Message) : Option (Task × Gateway) :=
  if batch.length < 20 then
    match g.shardManager.channel id with
    | msg :: rest =>
      some (.translated (.gather id (batch ++ [msg])), { g with
        shardManager := { g.shardManager with
          channel := Function.update g.shardManager.channel id rest } })
    | [] => if batch = [] then none else some (.translated (.translate batch [] false), g)
  else some (.translated (.translate batch [] false), g)

/-- The receives of `drain_shard` on the spread shard: as long as there is anything, pushed in the
    meantime or not. -/
def collect (messages : List Message) : Option (Task × Gateway) :=
  match g.shardManager.channel g.shardManager.spreadShardId with
  | msg :: rest =>
    some (.translated (.collect (messages ++ [msg])), { g with
      shardManager := { g.shardManager with
        channel := Function.update g.shardManager.channel g.shardManager.spreadShardId rest } })
  | [] => some (if messages = [] then .idle else .translated (.translate messages [] true), g)

/-- `process_translated_batch`, behind the receives; and `drain_spread_shard_once`. -/
def processTranslatedBatch : Translated → Option (Task × Gateway)
  | .gather id batch => gather g id batch
  | .collect messages => collect g messages
  | .translate (msg :: todo) pairs drain =>
    match translateSync libs (env.nowMs 0) msg with
    | .ok translated => some (.translated (.translate todo (pairs ++ [(msg, translated)]) drain), g)
    | .err _ => some (.translated (.translate todo pairs drain), g.count .recordError)
    | .panic => none
  | .translate [] pairs drain =>
    some (if pairs = [] then .idle else .translated (.cacheAll pairs drain), g)
  | .cacheAll pairs drain =>
    some (.translated (.snapshotAll pairs drain), { g with
      cache := g.cache.setBatch env.instant (pairs.map fun x => (x.1.protocol, x.1.data, x.2)) })
  | .snapshotAll pairs drain =>
    let deviceId := ((pairs.map fun x => AsyncCache.hashData x.1.data).head?).getD 0
    some (.translated (.enqueue (pairs.map Prod.snd) drain), { g with
      snapshotManager := (g.snapshotManager.createSnapshot (env.nowMs 0) (pairs.map Prod.snd)
        .astSpaceMobile deviceId).2 })
  | .enqueue (translated :: rest) drain =>
    if env.enqueued then
      let g := if drain then g.count .incrementTranslated else g
      some (.translated (.enqueue rest drain),
        { g with transmission := g.transmission ++ [translated] })
    else some (.translated (.enqueue rest drain), g.count .recordError)
  | .enqueue [] _ => some (.idle, g)

/-- One critical section of a task; `none` when it has to wait, or when a panic ends the process. -/
def advance : Task → Option (Task × Gateway)
  | .idle => none
  | .emergency pc => processEmergency libs env g pc
  | .incoming pc => processIncomingBatch env g pc
  | .translated pc => processTranslatedBatch libs env g pc

end

/-! ## The whole gateway -/

namespace Gateway

/-- The shared state and `n` task slots. -/
structure Sys (n : Nat) where
  gateway : Gateway
  task : Fin n → Task

/-- What can happen next. -/
inductive Act (n : Nat) where
  | send (i : Fin n) (msg : Message)
  | takeBatch (i : Fin n) (size : Nat)
  | startWorker (i : Fin n) (id : Nat)
  | drainSpread (i : Fin n)
  | advance (i : Fin n) (env : Env)
  | transmit (size : Nat) (uplink : Uplink)

/-- A slot that is free starts a task. -/
def Sys.start {n : Nat} (s : Sys n) (i : Fin n) (g : Gateway) (t : Task) : Option (Sys n) :=
  match s.task i with
  | .idle => some { gateway := g, task := Function.update s.task i t }
  | _ => none

/-- One step. -/
def step {n : Nat} (libs : Translator.Libs) (s : Sys n) : Act n → Option (Sys n)
  | .send i msg =>
    let g := s.gateway.count .incrementTranslated
    if msg.isEmergency then s.start i g (.emergency (.reconcile msg))
    else some { s with gateway := { g with batcher := g.batcher ++ [msg] } }
  -- a batch is cut off when it is full, when the time is up, or early for urgent messages
  | .takeBatch i size =>
    if 1 ≤ size ∧ size ≤ 10 ∧ size ≤ s.gateway.batcher.length then
      s.start i { s.gateway with batcher := s.gateway.batcher.drop size }
        (.incoming (.reconcile (s.gateway.batcher.take size)))
    else none
  | .startWorker i id =>
    if 1 ≤ id ∧ id < s.gateway.shardManager.numShards then s.start i s.gateway (.translated (.gather id []))
    else none
  | .drainSpread i =>
    s.start i s.gateway
      (if s.gateway.shardManager.receivers s.gateway.shardManager.spreadShardId
       then .translated (.collect []) else .idle)
  | .advance i env =>
    (FloatProtocols.advance libs env s.gateway (s.task i)).map fun x =>
      { gateway := x.2, task := Function.update s.task i x.1 }
  | .transmit size uplink =>
    if 1 ≤ size ∧ size ≤ 20 ∧ size ≤ s.gateway.transmission.length then
      some { s with gateway :=
        { s.gateway.sendBatchToAsts uplink (s.gateway.transmission.take size) with
          transmission := s.gateway.transmission.drop size } }
    else none

/-- A new gateway with all slots free. -/
def Sys.init (n cacheTtl : Nat) (hasCredentials : Bool) (now : Nat) : Sys n where
  gateway := .new cacheTtl hasCredentials now
  task _ := .idle

end Gateway

end FloatProtocols
