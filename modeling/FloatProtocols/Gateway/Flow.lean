/-
  The gateway as queues and counters: what an operator sees of it.

  1. **Events** — what happens to messages: received, cut off in a batch, copied by the cadence rules,
     pushed, taken, translated, enqueued, handed to ASTS.  `log` reads the events off a step.

  2. **The abstract gateway (`Flow`)** — an intake queue, nine shard queues, a transmission queue, what
     went out and what was withheld, and the counters.  `Flow.step` is what one event does to them; it
     refuses an event that takes something from a queue which is not at its head.

  3. **Refinement (`run_refines`)** — the log of any run of the tasks of `Gateway.Tasks`, in whatever
     order they take turns, is a run of the abstract gateway.  Tasks, caches, snapshots, clocks and
     trackers are gone; what is proved about events holds of the gateway.

  The configuration of `Gateway::new` never changes (`Configured`): nothing registers a clock offset,
  so no timestamp is ever corrected, and no rule is added.
-/
import FloatProtocols.Gateway.Accounts

namespace FloatProtocols

open Wire

/-! ## What a push does to the channels -/

namespace Sharding.Manager

/-- A push reports an error and changes no channel, or places its message at the end of one. -/
theorem perform_outcome (m : Manager) (p : Push) :
    ((∃ e, (m.perform p).1 = .err e) ∧ (m.perform p).2.channel = m.channel ∧
      (m.perform p).2.totalRegularMessages = m.totalRegularMessages) ∨
    (m.GateOpen p ∧ (m.perform p).1 = .ok (m.target p) ∧
      (m.perform p).2.channel =
        Function.update m.channel (m.target p) (m.channel (m.target p) ++ [p.message]) ∧
      (m.perform p).2.totalRegularMessages = m.totalRegularMessages + if p.counted then 1 else 0) := by
  by_cases hgate : m.GateOpen p
  · have hpicked : (m.picked p).channel = m.channel ∧
        (m.picked p).totalRegularMessages = m.totalRegularMessages := by
      cases p <;> exact ⟨rfl, rfl⟩
    rcases perform_cases hgate with ⟨-, hrun⟩ | ⟨-, -, -, hrun⟩ | ⟨-, -, -, hrun⟩
    · rw [hrun]
      exact .inl ⟨⟨_, rfl⟩, hpicked⟩
    · rw [hrun]
      exact .inl ⟨⟨_, rfl⟩, hpicked⟩
    · rw [hrun]
      refine .inr ⟨hgate, rfl, ?_, rfl⟩
      show Function.update (m.picked p).channel _ ((m.picked p).channel _ ++ _) = _
      rw [hpicked.1]
  · obtain ⟨-, -, hrun⟩ := perform_refused hgate
    rw [hrun]
    exact .inl ⟨⟨_, rfl⟩, rfl, rfl⟩

theorem receivers_perform (m : Manager) (p : Push) :
    (m.perform p).2.receivers = m.receivers ∧ (m.perform p).2.closed = m.closed := by
  by_cases hgate : m.GateOpen p
  · have hpicked : (m.picked p).receivers = m.receivers ∧ (m.picked p).closed = m.closed := by
      cases p <;> exact ⟨rfl, rfl⟩
    rcases perform_cases hgate with ⟨-, hrun⟩ | ⟨-, -, -, hrun⟩ | ⟨-, -, -, hrun⟩ <;>
      (rw [hrun]; exact hpicked)
  · obtain ⟨-, -, hrun⟩ := perform_refused hgate
    rw [hrun]
    exact ⟨rfl, rfl⟩

end Sharding.Manager

namespace Gateway

open Translator Sharding

/-! ## Events -/

/-- What happens to messages. -/
inductive Event where
  | received (msg : Message)
  | batched (msgs : List Message)
  | accepted (msg : Message)
  | parted (msg : Message) (copies : Nat)
  | pushed (p : Push) (shard : Option Nat)
  | hit (msg translated : Message)
  | taken (id : Nat) (msg : Message)
  | translated (msg : Message) (result : Option Message)
  | enqueued (translated : Message) (drain : Bool)
  | unqueued (translated : Message)
  | emitted (translated : Message) (uplink : Uplink)
  | transmitted (batch : List Message) (uplink : Uplink)

/-- The events of a section. -/
def sectionLog (libs : Libs) (env : Env) (g : Gateway) : Task → List Event
  | .emergency (.push msg) =>
    [.accepted msg, .pushed (.deadzone msg) (g.shardManager.perform (.deadzone msg)).1.toOption]
  | .emergency (.translate msg) =>
    [.translated msg (translateSync libs (env.nowMs 0) msg).toOption]
  | .emergency (.emit translated) => [.emitted translated env.uplink]
  | .incoming (.reconcile batch) => batch.map .accepted
  | .incoming (.partition reconciled) =>
    (shares env.instant 0 g.ewmaState g.cadenceTranslator reconciled).map fun x =>
      .parted x.1 x.2.length
  | .incoming (.pushSpread (msg :: _) _) =>
    [.pushed (.spread msg) (g.shardManager.perform (.spread msg)).1.toOption]
  | .incoming (.route ((msg, some translated) :: _)) =>
    [.hit msg translated, .emitted translated env.uplink]
  | .incoming (.route ((msg, none) :: _)) =>
    [.pushed (.regular msg) (g.shardManager.perform (.regular msg)).1.toOption]
  | .translated (.gather id batch) =>
    if batch.length < 20 then (g.shardManager.channel id).head?.toList.map (.taken id) else []
  | .translated (.collect _) =>
    (g.shardManager.channel g.shardManager.spreadShardId).head?.toList.map
      (.taken g.shardManager.spreadShardId)
  | .translated (.translate (msg :: _) _ _) =>
    [.translated msg (translateSync libs (env.nowMs 0) msg).toOption]
  | .translated (.enqueue (translated :: _) drain) =>
    [if env.enqueued then .enqueued translated drain else .unqueued translated]
  | _ => []

variable {n : Nat}

/-- The events of a step. -/
def log (libs : Libs) (s : Sys n) : Act n → List Event
  | .send _ msg => [.received msg]
  | .takeBatch _ size => [.batched (s.gateway.batcher.take size)]
  | .startWorker _ _ => []
  | .drainSpread _ => []
  | .advance i env => sectionLog libs env s.gateway (s.task i)
  | .transmit size uplink => [.transmitted (s.gateway.transmission.take size) uplink]

/-! ## The abstract gateway -/

/-- How a push shows in the counters. -/
def notePush (m : Metrics) : Push → Option Nat → Metrics
  | .regular _, some _ => m.recordCacheMiss
  | .regular _, none => m.recordCacheMiss.recordError
  | .spread _, _ => m.recordSpreadShard
  | .deadzone _, _ => m

/-- A request goes out. -/
def requested (hasCredentials : Bool) (uplink : Uplink) : Bool :=
  hasCredentials && uplink ≠ .circuitOpen

/-- How it shows in the counters. -/
def noteUplink (hasCredentials : Bool) (uplink : Uplink) (m : Metrics) : Metrics :=
  if hasCredentials then
    if uplink = .ok then m.recordProtocol .astSpaceMobile else m.recordError
  else m

/-- Queues and counters; `placed` is how many messages the regular shards have taken, `turn` whose turn
    it is among them. -/
structure Flow where
  hasCredentials : Bool
  metrics : Metrics
  batcher : List Message
  channel : Nat → List Message
  placed : Nat
  turn : Nat
  transmission : List Message
  uplinked : List Message
  withheld : List Message

namespace Flow

/-- The gate of the regular shards closes for good behind 5600 messages. -/
def Open (v : Flow) : Push → Prop
  | .regular _ => v.placed < 5600
  | _ => True

instance decidableOpen (v : Flow) (p : Push) : Decidable (v.Open p) := by
  cases p <;> unfold Open <;> infer_instance

/-- The shard a push asks for: the seven regular ones take turns. -/
def target (v : Flow) : Push → Nat
  | .regular _ => 1 + v.turn % 7
  | .spread _ => 8
  | .deadzone _ => 0

/-- The shard that takes the message, if one does; a shard holds 1000. -/
def dest (v : Flow) (p : Push) : Option Nat :=
  if v.Open p ∧ (v.channel (v.target p)).length < 1000 then some (v.target p) else none

/-- A message placed at the end of a shard's queue. -/
def post (channel : Nat → List Message) (msg : Message) : Option Nat → Nat → List Message
  | none => channel
  | some id => Function.update channel id (channel id ++ [msg])

/-- What comes to the uplink. -/
def deliver (v : Flow) (uplink : Uplink) (batch : List Message) : Flow :=
  { v with
    metrics := noteUplink v.hasCredentials uplink v.metrics
    uplinked := if requested v.hasCredentials uplink then v.uplinked ++ batch else v.uplinked
    withheld := if requested v.hasCredentials uplink then v.withheld else v.withheld ++ batch }

/-- What an event does. -/
def step (v : Flow) : Event → Option Flow
  | .received msg => some { v with
      metrics := v.metrics.incrementTranslated
      batcher := if msg.isEmergency then v.batcher else v.batcher ++ [msg] }
  | .batched msgs =>
    if msgs <+: v.batcher then some { v with batcher := v.batcher.drop msgs.length } else none
  | .accepted msg => some { v with metrics := v.metrics.recordProtocol msg.protocol }
  | .parted _ _ => some v
  | .pushed p shard =>
    if shard = v.dest p then some { v with
      metrics := notePush v.metrics p shard
      channel := post v.channel p.message shard
      placed := v.placed + if p.counted ∧ shard.isSome then 1 else 0
      turn := if p.counted ∧ v.Open p then (v.turn + 1) % 2 ^ 64 else v.turn }
    else none
  | .hit _ _ => some { v with metrics := v.metrics.recordCacheHit }
  | .taken id msg =>
    if 1 ≤ id ∧ id ≤ 8 ∧ (v.channel id).head? = some msg then
      some { v with channel := Function.update v.channel id (v.channel id).tail }
    else none
  | .translated _ result =>
    some { v with metrics := if result.isSome then v.metrics else v.metrics.recordError }
  | .enqueued translated drain => some { v with
      metrics := if drain then v.metrics.incrementTranslated else v.metrics
      transmission := v.transmission ++ [translated] }
  | .unqueued _ => some { v with metrics := v.metrics.recordError }
  | .emitted translated uplink => some (v.deliver uplink [translated])
  | .transmitted batch uplink =>
    if batch <+: v.transmission then some (deliver { v with
      metrics := v.metrics.recordTransmissionBatch batch.length
      transmission := v.transmission.drop batch.length } uplink batch)
    else none

/-- The gateway at the start. -/
def start (hasCredentials : Bool) : Flow := ⟨hasCredentials, .new, [], fun _ => [], 0, 0, [], [], []⟩

end Flow

/-- What the abstract gateway keeps of the gateway. -/
def view (g : Gateway) : Flow where
  hasCredentials := g.hasCredentials
  metrics := g.metrics
  batcher := g.batcher
  channel := g.shardManager.channel
  placed := g.shardManager.totalRegularMessages
  turn := g.shardManager.roundRobin
  transmission := g.transmission
  uplinked := g.uplinked
  withheld := g.withheld

@[simp] theorem view_count (g : Gateway) (f : Metrics → Metrics) :
    (g.count f).view = { g.view with metrics := f g.metrics } := rfl

theorem view_callUplink (g : Gateway) (uplink : Uplink) (messages : List Message) :
    (g.callUplink uplink messages).view = g.view.deliver uplink messages := by
  unfold callUplink
  split
  · rename_i hcredentials
    cases uplink <;> simp [Flow.deliver, view, requested, noteUplink, hcredentials, count]
  · rename_i hcredentials
    simp [Flow.deliver, view, requested, noteUplink, hcredentials]

/-! ## The configuration -/

/-- The rules a gateway runs with. -/
def defaultCadence : CadenceTranslator :=
  CadenceTranslator.defaultIridiumToAstsRules.foldl .addRule .new

/-- The parts of a gateway that its tasks read and never change. -/
structure Config where
  clockReconciler : ClockReconciler
  cadenceTranslator : CadenceTranslator
  numShards : Nat
  shardSize : Nat
  shards : Nat → Option MemoryShard
  receivers : Nat → Bool
  closed : Nat → Bool

def config (g : Gateway) : Config where
  clockReconciler := g.clockReconciler
  cadenceTranslator := g.cadenceTranslator
  numShards := g.shardManager.numShards
  shardSize := g.shardManager.shardSize
  shards := g.shardManager.shards
  receivers := g.shardManager.receivers
  closed := g.shardManager.closed

/-- What `Gateway::new` sets up. -/
def Configured (g : Gateway) : Prop := ∃ now, g.config = (Gateway.new 0 false now).config

theorem configured_new (cacheTtl : Nat) (hasCredentials : Bool) (now : Nat) :
    (Gateway.new cacheTtl hasCredentials now).Configured := ⟨now, rfl⟩

section Configured

variable {g : Gateway} (hg : g.Configured)
include hg

theorem Configured.of_config_eq {g' : Gateway} (h : g'.config = g.config) : g'.Configured := by
  obtain ⟨now, hnow⟩ := hg
  exact ⟨now, h.trans hnow⟩

theorem Configured.clockReconciler : g.clockReconciler = .new 1000 300000 := by
  obtain ⟨now, hnow⟩ := hg
  exact congrArg Config.clockReconciler hnow

theorem Configured.cadenceTranslator : g.cadenceTranslator = defaultCadence := by
  obtain ⟨now, hnow⟩ := hg
  exact congrArg Config.cadenceTranslator hnow

theorem Configured.numShards : g.shardManager.numShards = 8 := by
  obtain ⟨now, hnow⟩ := hg
  exact congrArg Config.numShards hnow

theorem Configured.shardSize : g.shardManager.shardSize = 1000 := by
  obtain ⟨now, hnow⟩ := hg
  exact congrArg Config.shardSize hnow

theorem Configured.shards {id : Nat} (hid : id ≤ 8) :
    ∃ shard, g.shardManager.shards id = some shard ∧ shard.maxSize = 1000 := by
  obtain ⟨now, hnow⟩ := hg
  have hshards : g.shardManager.shards = (Manager.new 8 1000 now).shards :=
    congrArg Config.shards hnow
  rw [hshards]
  exact (Manager.dealt_new now (by decide) (by decide)).shards id hid

theorem Configured.receivers_spread : g.shardManager.receivers 8 = true := by
  obtain ⟨now, hnow⟩ := hg
  exact congrFun (congrArg Config.receivers hnow) 8

theorem Configured.connected (id : Nat) : g.shardManager.closed id = false := by
  obtain ⟨now, hnow⟩ := hg
  exact congrFun (congrArg Config.closed hnow) id

theorem Configured.spreadShardId : g.shardManager.spreadShardId = 8 := hg.numShards

/-- No device has a clock offset, so messages keep their event times. -/
theorem Configured.correct (now : UInt64) (msg : Message) : g.clockReconciler.correct now msg = msg := by
  rw [hg.clockReconciler]
  rfl

end Configured

/-! ### The cadence rules -/

/-- What the rules make of a message outside a burst: 60 of each Iridium reading. -/
def copies (msg : Message) : List Message :=
  if msg.protocol = .iridiumSBD ∧ msg.priority ≠ .emergency then List.replicate 60 msg else [msg]

theorem translateMessage_default (now : Int) {priority : Priority} (h : priority ≠ .emergency) :
    defaultCadence.translateMessage now "telemetry" .iridiumSBD priority =
      (.duplicate 60, defaultCadence) := by
  rw [CadenceTranslator.translateMessage, if_neg h]
  rfl

theorem cadenceCopies_default (now : Int) (msg : Message) :
    cadenceCopies defaultCadence now msg = (copies msg, defaultCadence) := by
  rw [cadenceCopies, copies]
  split
  · rename_i h
    rw [translateMessage_default now h.2]
  · rfl

/-- With the default rules, the loop over a batch drops nothing and touches no limiter. -/
theorem partition_default {g : Gateway} (hcadence : g.cadenceTranslator = defaultCadence) (instant : Nat → Nat)
    (reconciled : List Message) :
    (g.partition instant reconciled).normal =
        ((g.ewmaState.routeAll reconciled).filter fun x => !x.2).flatMap (fun x => copies x.1) ∧
      (g.partition instant reconciled).cadenceTranslator = defaultCadence := by
  suffices hloop : ∀ (msgs : List Message) (k : Nat) (p : Partition),
      p.cadenceTranslator = defaultCadence →
      let q := (msgs.zipIdx k).foldl (fun p x => p.add (instant x.2) x.1) p
      q.normal = p.normal ++
        ((p.ewmaState.routeAll msgs).filter fun x => !x.2).flatMap (fun x => copies x.1) ∧
      q.cadenceTranslator = defaultCadence from
    hloop reconciled 0 ⟨[], [], g.ewmaState, g.cadenceTranslator⟩ hcadence
  intro msgs
  induction msgs with
  | nil =>
    intro k p hp
    exact ⟨(List.append_nil _).symm, hp⟩
  | cons msg msgs ih =>
    intro k p hp
    have hadd : (p.add (instant k) msg).cadenceTranslator = defaultCadence ∧
        (p.add (instant k) msg).normal =
          p.normal ++ (if (p.ewmaState.route msg).1 then [] else copies msg) ∧
        (p.add (instant k) msg).ewmaState = (p.ewmaState.route msg).2 := by
      rw [Partition.add, hp, cadenceCopies_default]
      rcases p.ewmaState.route msg with ⟨_ | _, ewma⟩
      · exact ⟨rfl, rfl, rfl⟩
      · exact ⟨rfl, (List.append_nil _).symm, rfl⟩
    obtain ⟨hcadence, hnormal, hewma⟩ := hadd
    obtain ⟨hrest, hend⟩ := ih (k + 1) _ hcadence
    refine ⟨hrest.trans ?_, hend⟩
    rw [hnormal, hewma, EwmaMap.routeAll, List.append_assoc]
    cases (p.ewmaState.route msg).1 <;> rfl

/-! ## One section -/

/-- A worker serves one of the regular shards. -/
def Posted : Task → Prop
  | .translated (.gather id _) => 1 ≤ id ∧ id < 8
  | _ => True

/-- A section is the run of the abstract gateway that its log says, and leaves the configuration. -/
structure Refines (libs : Libs) (env : Env) (g g' : Gateway) (task task' : Task) : Prop where
  run : Trace.run Flow.step g.view (sectionLog libs env g task) = some g'.view
  config : g'.config = g.config
  posted : Posted task'

theorem config_callUplink (g : Gateway) (uplink : Uplink) (messages : List Message) :
    (g.callUplink uplink messages).config = g.config := by
  obtain ⟨_, _, _, hframe⟩ := g.callUplink_frame uplink messages
  rw [hframe]
  rfl

theorem config_perform (g : Gateway) (p : Push) :
    config { g with shardManager := (g.shardManager.perform p).2 } = g.config := by
  obtain ⟨hshards, hnum, hsize⟩ := g.shardManager.shards_perform p
  obtain ⟨hreceivers, hclosed⟩ := g.shardManager.receivers_perform p
  simp only [config, hshards, hnum, hsize, hreceivers, hclosed]

theorem regularCount_eq_seven {m : Manager} (hnum : m.numShards = 8) : m.regularCount = 7 := by
  rw [Manager.regularCount_eq (by omega), hnum]
  rfl

theorem backpressureLimit_eq {m : Manager} (hnum : m.numShards = 8) (hsize : m.shardSize = 1000) :
    m.backpressureLimit = 5600 := by
  rw [Manager.backpressureLimit, regularCount_eq_seven hnum, hsize]
  norm_num

/-- The abstract gateway asks for the same shard, -/
theorem target_eq {g : Gateway} (hg : g.Configured) (p : Push) :
    g.shardManager.target p = g.view.target p := by
  cases p with
  | regular msg =>
    rw [Manager.target, regularCount_eq_seven hg.numShards]
    rfl
  | spread msg => exact hg.numShards
  | deadzone msg => rfl

/-- and has the same gate. -/
theorem gateOpen_iff {g : Gateway} (hg : g.Configured) (p : Push) :
    g.shardManager.GateOpen p ↔ g.view.Open p := by
  cases p with
  | regular msg =>
    rw [Manager.GateOpen, backpressureLimit_eq hg.numShards hg.shardSize]
    rfl
  | spread msg => exact Iff.rfl
  | deadzone msg => exact Iff.rfl

theorem target_le (v : Flow) (p : Push) : v.target p ≤ 8 := by
  cases p with
  | regular msg =>
    have hmod := Nat.mod_lt v.turn (show 7 > 0 by decide)
    show 1 + v.turn % 7 ≤ 8
    omega
  | spread msg => exact Nat.le_refl 8
  | deadzone msg => exact Nat.zero_le 8

/-- Where a push goes, the abstract gateway says. -/
theorem toOption_perform {g : Gateway} (hg : g.Configured) (p : Push) :
    (g.shardManager.perform p).1.toOption = g.view.dest p := by
  by_cases hgate : g.shardManager.GateOpen p
  · have hopen := (gateOpen_iff hg p).mp hgate
    obtain ⟨shard, hshard, hmax⟩ := hg.shards (target_le g.view p)
    rw [← target_eq hg] at hshard
    have hroom : g.shardManager.hasRoom (g.shardManager.target p) shard =
        decide ((g.view.channel (g.view.target p)).length < 1000) := by
      rw [Manager.hasRoom, hg.connected, hmax, target_eq hg]
      exact decide_eq_decide.mpr ⟨And.right, fun h => ⟨rfl, h⟩⟩
    rcases Manager.perform_cases hgate with ⟨hnone, -⟩ | ⟨_, hfound, hfull, hrun⟩ | ⟨_, hfound, hfree, hrun⟩
    · cases hnone.symm.trans hshard
    · cases hfound.symm.trans hshard
      rw [hroom, decide_eq_false_iff_not] at hfull
      have hdest : g.view.dest p = none := if_neg fun h => hfull h.2
      rw [hdest, hrun]
      rfl
    · cases hfound.symm.trans hshard
      rw [hroom, decide_eq_true_iff] at hfree
      have hdest : g.view.dest p = some (g.view.target p) := if_pos ⟨hopen, hfree⟩
      rw [hdest, ← target_eq hg, hrun]
      rfl
  · have hclosed : ¬ g.view.Open p := fun h => hgate ((gateOpen_iff hg p).mpr h)
    obtain ⟨-, -, hrun⟩ := Manager.perform_refused hgate
    have hdest : g.view.dest p = none := if_neg fun h => hclosed h.1
    rw [hdest, hrun]
    rfl

/-- Only a `push` that passes the gate moves the turn on. -/
theorem roundRobin_perform {g : Gateway} (hg : g.Configured) (p : Push) :
    (g.shardManager.perform p).2.roundRobin =
      if p.counted ∧ g.view.Open p then (g.view.turn + 1) % 2 ^ 64 else g.view.turn := by
  by_cases hgate : g.shardManager.GateOpen p
  · have hpicked : (g.shardManager.picked p).roundRobin =
        if p.counted ∧ g.view.Open p then (g.view.turn + 1) % 2 ^ 64 else g.view.turn := by
      have hopen := (gateOpen_iff hg p).mp hgate
      cases p with
      | regular msg => exact (if_pos ⟨rfl, hopen⟩).symm
      | spread msg => exact (if_neg fun h => by cases h.1).symm
      | deadzone msg => exact (if_neg fun h => by cases h.1).symm
    rcases Manager.perform_cases hgate with ⟨-, hrun⟩ | ⟨-, -, -, hrun⟩ | ⟨-, -, -, hrun⟩ <;>
      (rw [hrun]; exact hpicked)
  · have hclosed : ¬ g.view.Open p := fun h => hgate ((gateOpen_iff hg p).mpr h)
    obtain ⟨-, -, hrun⟩ := Manager.perform_refused hgate
    rw [hrun, if_neg fun h => hclosed h.2]
    rfl

/-- A push is an event of the abstract gateway. -/
theorem view_perform {g : Gateway} (hg : g.Configured) (p : Push) :
    g.view.step (.pushed p (g.shardManager.perform p).1.toOption) = some { g.view with
      metrics := notePush g.metrics p (g.shardManager.perform p).1.toOption
      channel := (g.shardManager.perform p).2.channel
      placed := (g.shardManager.perform p).2.totalRegularMessages
      turn := (g.shardManager.perform p).2.roundRobin } := by
  rw [Flow.step, if_pos (toOption_perform hg p), roundRobin_perform hg p]
  rcases g.shardManager.perform_outcome p with
    ⟨⟨e, he⟩, hchannel, htotal⟩ | ⟨-, hok, hchannel, htotal⟩
  · rw [he, hchannel, htotal]
    cases p <;> rfl
  · rw [hok, hchannel, htotal]
    cases p <;> rfl

/-- A push goes to a shard of its kind. -/
def Fits : Push → Nat → Prop
  | .regular _, id => 1 ≤ id ∧ id < 8
  | .spread _, id => id = 8
  | .deadzone _, id => id = 0

theorem fits_of_dest {v : Flow} {p : Push} {id : Nat} (h : some id = v.dest p) : Fits p id := by
  rw [Flow.dest] at h
  split at h
  · cases h
    cases p with
    | regular msg =>
      have hmod := Nat.mod_lt v.turn (show 7 > 0 by decide)
      show 1 ≤ 1 + v.turn % 7 ∧ 1 + v.turn % 7 < 8
      omega
    | spread msg => rfl
    | deadzone msg => rfl
  · cases h

theorem run_accepted (batch : List Message) : ∀ g : Gateway,
    Trace.run Flow.step g.view (batch.map .accepted) =
      some (batch.foldl (fun g msg => g.count (·.recordProtocol msg.protocol)) g).view := by
  induction batch with
  | nil => exact fun _ => rfl
  | cons msg batch ih => exact fun g => ih (g.count (·.recordProtocol msg.protocol))

theorem run_parted (parts : List (Message × List Message)) (v : Flow) :
    Trace.run Flow.step v (parts.map fun x => .parted x.1 x.2.length) = some v := by
  induction parts with
  | nil => rfl
  | cons x parts ih => exact ih

variable {libs : Libs} {env : Env} {g g' : Gateway} {task' : Task}

theorem processEmergency_refines (hg : g.Configured) {pc : Emergency}
    (h : processEmergency libs env g pc = some (task', g')) :
    Refines libs env g g' (.emergency pc) task' := by
  cases pc with
  | reconcile msg =>
    cases h
    exact ⟨rfl, rfl, trivial⟩
  | store msg =>
    cases h
    exact ⟨rfl, rfl, trivial⟩
  | push msg =>
    cases h
    refine ⟨?_, config_perform _ (.deadzone msg), trivial⟩
    have hcount : (g.count (·.recordProtocol msg.protocol)).Configured := hg.of_config_eq rfl
    have hpush := view_perform hcount (.deadzone msg)
    rw [sectionLog, Trace.run_cons (t := (g.count (·.recordProtocol msg.protocol)).view) rfl,
      Trace.run_singleton]
    exact hpush
  | snapshot msg =>
    cases h
    exact ⟨rfl, rfl, trivial⟩
  | translate msg =>
    rw [processEmergency] at h
    rcases hresult : translateSync libs (env.nowMs 0) msg with translated | e | _
    · rw [hresult] at h
      cases h
      refine ⟨?_, rfl, trivial⟩
      rw [sectionLog, hresult]
      rfl
    · rw [hresult] at h
      cases h
      refine ⟨?_, rfl, trivial⟩
      rw [sectionLog, hresult]
      rfl
    · rw [hresult] at h
      cases h
  | emit translated =>
    cases h
    refine ⟨?_, config_callUplink g env.uplink [translated], trivial⟩
    rw [sectionLog, Trace.run_singleton, sendToAsts, view_callUplink]
    rfl

/-- The push of a cache miss. -/
theorem afterPush_refines (hg : g.Configured) {msg : Message} {routed : List (Message × Option Message)}
    (h : afterPush (g.count .recordCacheMiss) routed (g.shardManager.perform (.regular msg)) =
      some (task', g')) :
    Refines libs env g g' (.incoming (.route ((msg, none) :: routed))) task' := by
  have hpush := view_perform hg (.regular msg)
  have hconfig := config_perform g (.regular msg)
  rw [← Trace.run_singleton Flow.step] at hpush
  rcases hresult : g.shardManager.perform (.regular msg) with ⟨id | e | _, m'⟩
  · rw [hresult] at h hpush hconfig
    cases h
    refine ⟨?_, hconfig, trivial⟩
    rw [sectionLog, hresult]
    exact hpush
  · rw [hresult] at h hpush hconfig
    cases h
    refine ⟨?_, hconfig, trivial⟩
    rw [sectionLog, hresult]
    exact hpush
  · rw [hresult] at h
    cases h

theorem processIncomingBatch_refines (hg : g.Configured) {pc : Incoming}
    (h : processIncomingBatch env g pc = some (task', g')) :
    Refines libs env g g' (.incoming pc) task' := by
  cases pc with
  | reconcile batch =>
    cases h
    refine ⟨run_accepted batch g, ?_, trivial⟩
    exact List.foldlRecOn (motive := fun x : Gateway => x.config = g.config) batch _ rfl
      fun _ hx _ _ => hx
  | store reconciled =>
    cases h
    exact ⟨rfl, rfl, trivial⟩
  | partition reconciled =>
    cases h
    refine ⟨run_parted _ _, ?_, trivial⟩
    have hcadence := (partition_default hg.cadenceTranslator env.instant reconciled).2
    rw [config, config, hg.cadenceTranslator, ← hcadence]
  | pushSpread spread normal =>
    cases spread with
    | nil =>
      cases h
      refine ⟨rfl, rfl, ?_⟩
      split <;> trivial
    | cons msg spread =>
      cases h
      refine ⟨?_, config_perform _ (.spread msg), trivial⟩
      rw [sectionLog, Trace.run_singleton]
      exact view_perform hg (.spread msg)
  | lookup normal =>
    cases h
    exact ⟨rfl, rfl, trivial⟩
  | route routed =>
    rcases routed with _ | ⟨⟨msg, _ | translated⟩, routed⟩
    · cases h
      exact ⟨rfl, rfl, trivial⟩
    · exact afterPush_refines hg h
    · cases h
      refine ⟨?_, config_callUplink _ env.uplink [translated], trivial⟩
      rw [sectionLog, Trace.run_cons (t := (g.count .recordCacheHit).view) rfl, Trace.run_singleton,
        sendToAsts, view_callUplink]
      rfl

/-- A receive takes the first message of a shard. -/
theorem step_taken {id : Nat} (hid : 1 ≤ id ∧ id ≤ 8) {msg : Message} {rest : List Message}
    (h : g.shardManager.channel id = msg :: rest) :
    g.view.step (.taken id msg) =
      some { g.view with channel := Function.update g.shardManager.channel id rest } := by
  have hhead : (g.view.channel id).head? = some msg := congrArg List.head? h
  have htail : (g.view.channel id).tail = rest := congrArg List.tail h
  rw [Flow.step, if_pos ⟨hid.1, hid.2, hhead⟩, htail]
  rfl

theorem gather_refines {id : Nat} {batch : List Message} (hid : 1 ≤ id ∧ id < 8)
    (h : gather g id batch = some (task', g')) :
    Refines libs env g g' (.translated (.gather id batch)) task' := by
  rw [gather] at h
  split at h
  · rename_i hroom
    rcases hq : g.shardManager.channel id with _ | ⟨msg, rest⟩
    · rw [hq] at h
      dsimp only at h
      split at h
      · cases h
      · cases h
        refine ⟨?_, rfl, trivial⟩
        rw [sectionLog, if_pos hroom, hq]
        rfl
    · rw [hq] at h
      cases h
      refine ⟨?_, rfl, hid⟩
      rw [sectionLog, if_pos hroom, hq]
      exact (Trace.run_singleton _ _ _).trans (step_taken ⟨hid.1, hid.2.le⟩ hq)
  · rename_i hfull
    cases h
    refine ⟨?_, rfl, trivial⟩
    rw [sectionLog, if_neg hfull]
    rfl

theorem collect_refines (hg : g.Configured) {messages : List Message}
    (h : collect g messages = some (task', g')) :
    Refines libs env g g' (.translated (.collect messages)) task' := by
  rw [collect, hg.spreadShardId] at h
  rcases hq : g.shardManager.channel 8 with _ | ⟨msg, rest⟩
  · rw [hq] at h
    cases h
    refine ⟨?_, rfl, by split <;> trivial⟩
    rw [sectionLog, hg.spreadShardId, hq]
    rfl
  · rw [hq] at h
    cases h
    refine ⟨?_, rfl, trivial⟩
    rw [sectionLog, hg.spreadShardId, hq]
    exact (Trace.run_singleton _ _ _).trans (step_taken ⟨by decide, Nat.le_refl 8⟩ hq)

theorem processTranslatedBatch_refines (hg : g.Configured) {pc : Translated}
    (hpc : Posted (.translated pc)) (h : processTranslatedBatch libs env g pc = some (task', g')) :
    Refines libs env g g' (.translated pc) task' := by
  cases pc with
  | gather id batch => exact gather_refines hpc h
  | collect messages => exact collect_refines hg h
  | translate todo pairs drain =>
    cases todo with
    | nil =>
      cases h
      refine ⟨rfl, rfl, ?_⟩
      split <;> trivial
    | cons msg todo =>
      rw [processTranslatedBatch] at h
      rcases hresult : translateSync libs (env.nowMs 0) msg with translated | e | _
      · rw [hresult] at h
        cases h
        refine ⟨?_, rfl, trivial⟩
        rw [sectionLog, hresult]
        rfl
      · rw [hresult] at h
        cases h
        refine ⟨?_, rfl, trivial⟩
        rw [sectionLog, hresult]
        rfl
      · rw [hresult] at h
        cases h
  | cacheAll pairs drain =>
    cases h
    exact ⟨rfl, rfl, trivial⟩
  | snapshotAll pairs drain =>
    cases h
    exact ⟨rfl, rfl, trivial⟩
  | enqueue translated drain =>
    cases translated with
    | nil =>
      cases h
      exact ⟨rfl, rfl, trivial⟩
    | cons translated rest =>
      rw [processTranslatedBatch] at h
      split at h
      · rename_i hqueued
        cases h
        refine ⟨?_, ?_, trivial⟩
        · rw [sectionLog, if_pos hqueued]
          cases drain <;> rfl
        · cases drain <;> rfl
      · rename_i hqueued
        cases h
        refine ⟨?_, rfl, trivial⟩
        rw [sectionLog, if_neg hqueued]
        rfl

theorem advance_refines (hg : g.Configured) {task : Task} (htask : Posted task)
    (h : advance libs env g task = some (task', g')) : Refines libs env g g' task task' := by
  cases task with
  | idle => cases h
  | emergency pc => exact processEmergency_refines hg h
  | incoming pc => exact processIncomingBatch_refines hg h
  | translated pc => exact processTranslatedBatch_refines hg htask h

/-! ## Whole runs -/

/-- The configuration is that of `Gateway::new`, and the workers are at their shards. -/
structure Sound (s : Sys n) : Prop where
  configured : s.gateway.Configured
  posted : ∀ i, Posted (s.task i)

theorem sound_init (n cacheTtl : Nat) (hasCredentials : Bool) (now : Nat) :
    Sound (Sys.init n cacheTtl hasCredentials now) :=
  ⟨configured_new cacheTtl hasCredentials now, fun _ => trivial⟩

theorem Sound.update {s : Sys n} (hs : Sound s) {g : Gateway} (hg : g.config = s.gateway.config)
    (i : Fin n) {t : Task} (ht : Posted t) :
    Sound { gateway := g, task := Function.update s.task i t } :=
  ⟨hs.configured.of_config_eq hg, Trace.forall_update (P := fun _ t => Posted t) ht hs.posted⟩

/-- A slot that starts a task: it was free, and the rest is as given. -/
theorem start_eq_some {s s' : Sys n} {i : Fin n} {g : Gateway} {t : Task} :
    s.start i g t = some s' ↔
      s.task i = .idle ∧ s' = { gateway := g, task := Function.update s.task i t } := by
  rw [Sys.start]
  split
  · rename_i hidle
    exact ⟨fun h => ⟨hidle, (Option.some.inj h).symm⟩, fun h => congrArg some h.2.symm⟩
  · rename_i hbusy
    exact iff_of_false (fun h => by cases h) fun h => hbusy h.1

/-- The step is a section of slot `i`. -/
def Act.isTurnOf (i : Fin n) : Act n → Bool
  | .advance j _ => j = i
  | _ => false

/-- However a push went, the next message is routed. -/
theorem afterPush_task {g g' : Gateway} {task' : Task} {routed : List (Message × Option Message)}
    {result : Exec ShardError Nat × Manager} (h : afterPush g routed result = some (task', g')) :
    task' = .incoming (.route routed) := by
  rcases result with ⟨_ | _ | _, m'⟩ <;> cases h <;> rfl

/-- The start of another task is no affair of a busy one. -/
theorem task_start {s s' : Sys n} {i j : Fin n} {g : Gateway} {task : Task} (hbusy : s.task i ≠ .idle)
    (h : s.start j g task = some s') : s'.task i = s.task i := by
  obtain ⟨hidle, rfl⟩ := start_eq_some.mp h
  refine Function.update_of_ne ?_ _ _
  rintro rfl
  exact hbusy hidle

/-- The other tasks leave a busy slot alone. -/
theorem task_of_step {s s' : Sys n} {a : Act n} (h : step libs s a = some s') {i : Fin n}
    (hbusy : s.task i ≠ .idle) :
    (a.isTurnOf i = false ∧ s'.task i = s.task i) ∨
    ∃ env g', a = .advance i env ∧ advance libs env s.gateway (s.task i) = some (s'.task i, g') := by
  cases a with
  | send j msg =>
    rw [step] at h
    split at h
    · exact .inl ⟨rfl, task_start hbusy h⟩
    · cases h
      exact .inl ⟨rfl, rfl⟩
  | takeBatch j size =>
    rw [step, Option.ite_none_right_eq_some] at h
    exact .inl ⟨rfl, task_start hbusy h.2⟩
  | startWorker j id =>
    rw [step, Option.ite_none_right_eq_some] at h
    exact .inl ⟨rfl, task_start hbusy h.2⟩
  | drainSpread j => exact .inl ⟨rfl, task_start hbusy h⟩
  | advance j env =>
    obtain ⟨⟨task', g'⟩, hadvance, rfl⟩ := Option.map_eq_some_iff.mp h
    by_cases hj : j = i
    · subst hj
      have htask : Function.update s.task j task' j = task' := Function.update_self ..
      exact .inr ⟨env, g', rfl, hadvance.trans (congrArg (fun task => some (task, g')) htask.symm)⟩
    · exact .inl ⟨decide_eq_false hj, Function.update_of_ne (Ne.symm hj) _ _⟩
  | transmit size uplink =>
    rw [step, Option.ite_none_right_eq_some] at h
    obtain ⟨-, h⟩ := h
    cases h
    exact .inl ⟨rfl, rfl⟩

theorem Sound.start {s s' : Sys n} (hs : Sound s) {i : Fin n} {g : Gateway} {t : Task}
    (h : s.start i g t = some s') (hg : g.config = s.gateway.config) (ht : Posted t) :
    Sound s' ∧ s'.gateway = g := by
  obtain ⟨-, rfl⟩ := start_eq_some.mp h
  exact ⟨hs.update hg i ht, rfl⟩

/-- The spread shard keeps its receiver, so a drain starts with its first receive. -/
theorem step_drainSpread {s : Sys n} (hg : s.gateway.Configured) (i : Fin n) :
    Gateway.step libs s (.drainSpread i) = s.start i s.gateway (.translated (.collect [])) := by
  rw [Gateway.step, hg.spreadShardId, if_pos hg.receivers_spread]

/-- **A step of the gateway is the run of the abstract gateway that its log says.** -/
theorem Sound.step {s s' : Sys n} {a : Act n} (hs : Sound s) (h : step libs s a = some s') :
    Sound s' ∧ Trace.run Flow.step s.gateway.view (log libs s a) = some s'.gateway.view := by
  cases a with
  | send i msg =>
    rw [Gateway.step] at h
    split at h
    · rename_i hemergency
      obtain ⟨hs', hgateway⟩ := hs.start h rfl trivial
      refine ⟨hs', ?_⟩
      rw [hgateway, log, Trace.run_singleton, Flow.step, if_pos hemergency]
      rfl
    · rename_i hordinary
      cases h
      refine ⟨⟨hs.configured.of_config_eq rfl, hs.posted⟩, ?_⟩
      rw [log, Trace.run_singleton, Flow.step, if_neg hordinary]
      rfl
  | takeBatch i size =>
    rw [Gateway.step] at h
    split at h
    · rename_i hsize
      have hlength : (s.gateway.batcher.take size).length = size :=
        List.length_take_of_le hsize.2.2
      have hfront : s.gateway.batcher.take size <+: s.gateway.view.batcher := List.take_prefix _ _
      obtain ⟨hs', hgateway⟩ := hs.start h rfl trivial
      refine ⟨hs', ?_⟩
      rw [hgateway, log, Trace.run_singleton, Flow.step, if_pos hfront, hlength]
      rfl
    · cases h
  | startWorker i id =>
    rw [Gateway.step] at h
    split at h
    · rename_i hid
      rw [hs.configured.numShards] at hid
      obtain ⟨hs', hgateway⟩ := hs.start h rfl hid
      refine ⟨hs', ?_⟩
      rw [hgateway]
      rfl
    · cases h
  | drainSpread i =>
    rw [step_drainSpread hs.configured] at h
    obtain ⟨hs', hgateway⟩ := hs.start h rfl trivial
    refine ⟨hs', ?_⟩
    rw [hgateway]
    rfl
  | advance i env =>
    obtain ⟨⟨t, g⟩, hadvance, rfl⟩ := Option.map_eq_some_iff.mp h
    have hrefines := advance_refines hs.configured (hs.posted i) hadvance
    exact ⟨hs.update hrefines.config i hrefines.posted, hrefines.run⟩
  | transmit size uplink =>
    rw [Gateway.step] at h
    split at h
    · rename_i hsize
      cases h
      have hlength : (s.gateway.transmission.take size).length = size :=
        List.length_take_of_le hsize.2.2
      have hfront : s.gateway.transmission.take size <+: s.gateway.view.transmission :=
        List.take_prefix _ _
      refine ⟨⟨hs.configured.of_config_eq (config_callUplink _ uplink _), hs.posted⟩, ?_⟩
      have hview := view_callUplink
        (s.gateway.count (·.recordTransmissionBatch (s.gateway.transmission.take size).length)) uplink
        (s.gateway.transmission.take size)
      have hout : view { s.gateway.sendBatchToAsts uplink (s.gateway.transmission.take size) with
            transmission := s.gateway.transmission.drop size } =
          { (s.gateway.sendBatchToAsts uplink (s.gateway.transmission.take size)).view with
            transmission := s.gateway.transmission.drop size } := rfl
      rw [log, Trace.run_singleton, Flow.step, if_pos hfront, hout, sendBatchToAsts, hview, hlength]
      rfl
    · cases h

theorem Sound.run {s t : Sys n} {as : List (Act n)} (hs : Sound s)
    (hrun : Trace.run (Gateway.step libs) s as = some t) : Sound t :=
  Trace.invariant (fun _ _ _ hstep hs => (hs.step hstep).1) as s t hrun hs

/-- Every state of the run is sound. -/
theorem Sound.along {s : Sys n} (hs : Sound s) (as : List (Act n)) :
    Trace.Along (Gateway.step libs) (fun s _ => Sound s) s as :=
  Trace.along_of_invariant (fun _ _ _ hstep hs => (hs.step hstep).1) as s hs

/-- The log of a run from a new gateway. -/
def history (libs : Libs) (n cacheTtl : Nat) (hasCredentials : Bool) (now : Nat) (as : List (Act n)) :
    List Event :=
  Trace.collect (step libs) (log libs) (Sys.init n cacheTtl hasCredentials now) as

/-- **Refinement.**  The log of any run of the gateway is a run of queues and counters. -/
theorem run_refines {cacheTtl now : Nat} {hasCredentials : Bool} {as : List (Act n)} {t : Sys n}
    (hrun : Trace.run (step libs) (Sys.init n cacheTtl hasCredentials now) as = some t) :
    Trace.run Flow.step (Flow.start hasCredentials) (history libs n cacheTtl hasCredentials now as) =
      some t.gateway.view :=
  Trace.Along.refines (fun s : Sys n => s.gateway.view)
    (fun _ _ _ hs hstep => (hs.step hstep).2) as _ t
    ((sound_init n cacheTtl hasCredentials now).along as) hrun

/-- A reading on its way: received, batched, pushed, translated by the worker of shard 1, transmitted. -/
def oneReading : List (Act 1) :=
  let i : Fin 1 := .last 0
  let turn := Act.advance i ⟨fun _ => 0, fun _ => 0, .ok, true⟩
  .send i (delayed 1000) :: .takeBatch i 1 :: List.replicate 7 turn ++
    .startWorker i 1 :: List.replicate 8 turn ++ [.transmit 1 .ok]

theorem oneReading_runs : (Trace.run (step frameLibs) (Sys.init 1 60000000000 true 0)
    oneReading).isSome = true := by
  decide +kernel

example : (Trace.run (step frameLibs) (Sys.init 1 60000000000 true 0) oneReading).map (fun s =>
    (s.task 0, s.gateway.uplinked.map Message.data)) = some (.idle, [[1]]) := by
  decide +kernel

end Gateway

end FloatProtocols
