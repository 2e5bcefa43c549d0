/-
  The gateway with its two batchers in place: bounded channels, batching tasks, dedicated consumers.

  `Gateway.Tasks` has a queue where `batcher.rs` and `transmission_batcher.rs` have a task between two
  bounded channels, and lets any free slot take any work.  Here both batchers of `Gateway::new` run
  (`Lib.Batching`), and every task of the gateway has its own slot: the consumer of the batcher, seven
  shard workers, the drainer of the spread shard, the consumer of the transmission batcher, and the
  callers of `send`.  Whoever sends waits for room: a caller with its message, a section with its
  translation, a batching task with the batch it has cut.

  1. **View** — waiting callers, channel, buffer, batch in hand and finished batches of a batcher, read
     from the back, are ONE queue.  No emergency is in it (`send` sends those past the batcher), so the
     batcher's bypass is dead and batches leave in order.

  2. **The crux (`Piped.step`)** — a move of the pipeline is a step of `Gateway.Tasks` on the view, or
     two (the first receive of a worker or of a drain), or none (the batchers' own moves).

  3. **Refinement** — so every run of the pipeline is a run of `Gateway.Tasks`, and what is proved
     about those holds of it.
-/
import FloatProtocols.Gateway.Batchers
import FloatProtocols.Gateway.Load

namespace FloatProtocols

open Wire Batching

namespace Gateway

open Translator Sharding

/-! ## A batcher in its place -/

/-- What wakes a batching task.  The gateway is alive as long as its tasks are, so no channel closes. -/
inductive Tick where
  | recv (now later : Nat)
  | timer (now later : Nat)

def Tick.act : Tick → Batching.Act Message
  | .recv now later => .recv now later
  | .timer now later => .timer now later

/-- A batching task with its channel, the batch it has in hand while it waits for room, and the channel
    of its batches. -/
structure Stage where
  task : Batcher Message
  held : Option (List Message)
  batches : List (List Message)

namespace Stage

/-- A task just started. -/
def start (now : Nat) : Stage := ⟨.start now, none, []⟩

/-- What the stage holds, from the front. -/
def content (s : Stage) : List Message :=
  s.batches.flatten ++ (s.held.getD [] ++ (s.task.buffer ++ s.task.queue))

/-- The timer of an empty buffer does nothing. -/
def Finds (s : Stage) : Tick → Prop
  | .recv _ _ => True
  | .timer _ _ => s.task.buffer ≠ []

section

variable (p : Policy Message) (s : Stage)

/-- A sender waits for room. -/
def send (msg : Message) : Option Stage := (s.task.step p (.send msg)).map fun task => { s with task }

/-- The task takes its turn, unless it waits.  The batch it cuts is in its hand first. -/
def turn (tick : Tick) : Option Stage :=
  if s.held = none then
    (s.task.step p tick.act).map fun task =>
      { s with task, held := (task.emitted.drop s.task.emitted.length).head? }
  else none

/-- The batch in hand goes into the channel, once there is room. -/
def pass : Option Stage :=
  match s.held with
  | none => none
  | some batch =>
    if s.batches.length < p.bufferSize then
      some { s with held := none, batches := s.batches ++ [batch] }
    else none

/-- The consumer takes the first batch. -/
def recv : Option (List Message × Stage) :=
  match s.batches with
  | [] => none
  | batch :: batches => some (batch, { s with batches })

end

/-- What holds of a stage between two moves: the accounts of its task, nothing in it that bypasses the
    buffer, an open channel, and no batch behind it that the task has not cut. -/
structure Orderly (p : Policy Message) (s : Stage) : Prop extends Batcher.Inv p s.task where
  plainQueue : ∀ m ∈ s.task.queue, p.bypass m = false
  isOpen : s.task.closed = false
  behind : s.batches ++ s.held.toList <:+ s.task.emitted

theorem orderly_start {p : Policy Message} (hurgent : p.urgent [] = false) (now : Nat) :
    Orderly p (start now) where
  toInv := .start hurgent now
  plainQueue := fun m hm => by cases hm
  isOpen := rfl
  behind := List.suffix_refl _

variable {p : Policy Message} {s s' : Stage}

/-- A message enters at the back. -/
theorem Orderly.send (hs : Orderly p s) (hurgent : p.urgent [] = false) {msg : Message}
    (hmsg : p.bypass msg = false) (h : s.send p msg = some s') :
    Orderly p s' ∧ s'.content = s.content ++ [msg] := by
  obtain ⟨task, hstep, rfl⟩ := Option.map_eq_some_iff.mp h
  have hinv := Batcher.Inv.step hurgent hstep hs.toInv
  rw [Batcher.step, Option.ite_none_right_eq_some] at hstep
  obtain ⟨-, hstep⟩ := hstep
  cases hstep
  refine ⟨⟨hinv, ?_, hs.isOpen, hs.behind⟩, ?_⟩
  · intro m hm
    rcases List.mem_append.mp hm with hm | hm
    · exact hs.plainQueue m hm
    · rw [List.mem_singleton.mp hm]
      exact hmsg
  · simp only [content, List.append_assoc]

/-- A turn receives at most one message.  The buffer keeps it, or leaves with it into the task's hand. -/
theorem turn_cases (hplain : ∀ m ∈ s.task.queue, p.bypass m = false) {tick : Tick}
    (h : s.turn p tick = some s') :
    s.held = none ∧ s'.batches = s.batches ∧ s.task.step p tick.act = some s'.task ∧
    ∃ got, s.task.queue = got ++ s'.task.queue ∧ s'.task.closed = s.task.closed ∧
      ((s'.held = none ∧ s'.task.emitted = s.task.emitted ∧ s'.task.buffer = s.task.buffer ++ got ∧
          (s.Finds tick → got ≠ [])) ∨
        (s'.held = some (s.task.buffer ++ got) ∧
          s'.task.emitted = s.task.emitted ++ [s.task.buffer ++ got] ∧ s'.task.buffer = [])) := by
  rw [turn, Option.ite_none_right_eq_some] at h
  obtain ⟨hfree, h⟩ := h
  obtain ⟨task, hstep, rfl⟩ := Option.map_eq_some_iff.mp h
  have hkept : task.emitted = s.task.emitted →
      (task.emitted.drop s.task.emitted.length).head? = none := by
    intro hemitted
    rw [hemitted, List.drop_length]
    rfl
  have hcut : ∀ batch, task.emitted = s.task.emitted ++ [batch] →
      (task.emitted.drop s.task.emitted.length).head? = some batch := by
    intro batch hemitted
    rw [hemitted, List.drop_left]
    rfl
  refine ⟨hfree, rfl, hstep, ?_⟩
  cases tick with
  | recv now later =>
    obtain ⟨x, hqueue, hclosed, ⟨hemitted, hbuffer⟩ | ⟨hemitted, hbuffer⟩⟩ :=
      Batcher.step_recv_cases hplain hstep
    · exact ⟨[x], hqueue, hclosed, .inl ⟨hkept hemitted, hemitted, hbuffer,
        fun _ => List.cons_ne_nil _ _⟩⟩
    · exact ⟨[x], hqueue, hclosed, .inr ⟨hcut _ hemitted, hemitted, hbuffer⟩⟩
  | timer now later =>
    obtain ⟨hqueue, hclosed, ⟨hemitted, hbuffer, hempty⟩ | ⟨hemitted, hbuffer⟩⟩ :=
      Batcher.step_timer_cases hstep
    · exact ⟨[], hqueue.symm, hclosed, .inl ⟨hkept hemitted, hemitted,
        hbuffer.trans (List.append_nil _).symm, fun hfinds => absurd hempty hfinds⟩⟩
    · rw [← List.append_nil s.task.buffer] at hemitted
      exact ⟨[], hqueue.symm, hclosed, .inr ⟨hcut _ hemitted, hemitted, hbuffer⟩⟩

/-- **The batching task moves messages on, and neither loses nor overtakes one.** -/
theorem Orderly.turn (hs : Orderly p s) (hurgent : p.urgent [] = false) {tick : Tick}
    (h : s.turn p tick = some s') : Orderly p s' ∧ s'.content = s.content := by
  obtain ⟨hfree, hbatches, hstep, got, hqueue, hclosed, hcases⟩ := turn_cases hs.plainQueue h
  have hinv := Batcher.Inv.step hurgent hstep hs.toInv
  have hplain : ∀ m ∈ s'.task.queue, p.bypass m = false := by
    intro m hm
    refine hs.plainQueue m ?_
    rw [hqueue]
    exact List.mem_append_right got hm
  have hbehind := hs.behind
  rw [hfree, Option.toList_none, List.append_nil, ← hbatches] at hbehind
  rcases hcases with ⟨hheld, hemitted, hbuffer, -⟩ | ⟨hheld, hemitted, hbuffer⟩
  · refine ⟨⟨hinv, hplain, hclosed.trans hs.isOpen, ?_⟩, ?_⟩
    · rw [hheld, hemitted, Option.toList_none, List.append_nil]
      exact hbehind
    · rw [content, content, hbatches, hheld, hfree, hbuffer, hqueue, List.append_assoc]
  · refine ⟨⟨hinv, hplain, hclosed.trans hs.isOpen, ?_⟩, ?_⟩
    · obtain ⟨front, hfront⟩ := hbehind
      refine ⟨front, ?_⟩
      rw [hheld, hemitted, Option.toList_some, ← List.append_assoc, hfront]
    · rw [content, content, hbatches, hheld, hfree, hbuffer, hqueue]
      simp only [Option.getD_some, Option.getD_none, List.nil_append, List.append_assoc]

/-- The batch in hand is next. -/
theorem Orderly.pass (hs : Orderly p s) (h : s.pass p = some s') :
    Orderly p s' ∧ s'.content = s.content := by
  rw [Stage.pass] at h
  split at h
  · cases h
  · rename_i batch hheld
    rw [Option.ite_none_right_eq_some] at h
    obtain ⟨-, h⟩ := h
    cases h
    have hbehind := hs.behind
    rw [hheld, Option.toList_some] at hbehind
    refine ⟨⟨hs.toInv, hs.plainQueue, hs.isOpen, ?_⟩, ?_⟩
    · show s.batches ++ [batch] ++ [] <:+ _
      rw [List.append_nil]
      exact hbehind
    · simp only [content, hheld, Option.getD_some, Option.getD_none, List.flatten_append,
        List.flatten_singleton, List.nil_append, List.append_assoc]

/-- The front batch is taken. -/
theorem Orderly.recv (hs : Orderly p s) {batch : List Message} (h : s.recv = some (batch, s')) :
    Orderly p s' ∧ s.content = batch ++ s'.content ∧
      1 ≤ batch.length ∧ batch.length ≤ max 1 p.maxBatchSize := by
  rw [Stage.recv] at h
  split at h
  · cases h
  · rename_i batch batches hfront
    cases h
    have hbehind := hs.behind
    rw [hfront, List.cons_append] at hbehind
    obtain ⟨hne, hle⟩ := hs.sized batch (hbehind.subset List.mem_cons_self)
    refine ⟨⟨hs.toInv, hs.plainQueue, hs.isOpen, ?_⟩, ?_, List.length_pos_iff.mpr hne, hle⟩
    · exact (List.suffix_cons _ _).trans hbehind
    · rw [content, content, hfront, List.flatten_cons, List.append_assoc]

end Stage

/-! ## The pipeline -/

/-- The gateway between its batchers. -/
structure Pipeline (k : Nat) where
  sys : Sys (9 + k)
  /-- Callers of `send` that wait for room in the channel of the batcher. -/
  waiting : List Message
  incoming : Stage
  outgoing : Stage
  /-- The batch that the consumer of the transmission batcher is sending. -/
  sending : Option (List Message)

namespace Pipeline

variable {k : Nat}

/-! ### Slots -/

/-- The consumer of the batcher. -/
def consumer : Fin (9 + k) := ⟨0, by omega⟩

/-- The worker of a regular shard. -/
def worker (id : Fin 7) : Fin (9 + k) := ⟨1 + id, by omega⟩

/-- The drainer of the spread shard. -/
def drainer : Fin (9 + k) := ⟨8, by omega⟩

/-- A caller of `send`. -/
def caller (c : Fin k) : Fin (9 + k) := ⟨9 + c, by omega⟩

/-! ### Moves -/

/-- The batcher of `Gateway::new`. -/
def batcherPolicy (bufferSize : Nat) : Policy Message := AsyncBatcher.new 10 25 bufferSize

/-- The transmission batcher of `Gateway::new`. -/
def transmissionPolicy (bufferSize : Nat) : Policy Message := TransmissionBatcher.new 20 50 bufferSize

/-- What can happen next. -/
inductive Move (k : Nat) where
  | send (c : Fin k) (msg : Message)
  | enter
  | batch (tick : Tick)
  | passBatch
  | take
  | work (id : Fin 7) (env : Env)
  | drain (env : Env)
  | advance (i : Fin (9 + k)) (env : Env)
  | coalesce (tick : Tick)
  | passCoalesced
  | fetch
  | transmit (uplink : Uplink)

/-- The channel of the transmission batcher never closes. -/
def live (env : Env) : Env := { env with enqueued := true }

/-- A translation that a section has enqueued goes into the channel of the transmission batcher; the
    section waits for room. -/
def handOver (bufferSize : Nat) (s : Pipeline k) (sys : Sys (9 + k)) : Option (Pipeline k) :=
  match sys.gateway.transmission with
  | [] => some { s with sys }
  | translated :: _ =>
    (s.outgoing.send (transmissionPolicy bufferSize) translated).map fun outgoing =>
      { s with sys := { sys with gateway := { sys.gateway with transmission := [] } }, outgoing }

variable (libs : Libs) (bufferSize : Nat)

/-- A section of the task in slot `i`. -/
def advanceSlot (s : Pipeline k) (sys : Sys (9 + k)) (i : Fin (9 + k)) (env : Env) :
    Option (Pipeline k) :=
  (Gateway.step libs sys (.advance i (live env))).bind (handOver bufferSize s)

/-- One move. -/
def step (s : Pipeline k) : Move k → Option (Pipeline k)
  | .send c msg =>
    if msg.isEmergency then (Gateway.step libs s.sys (.send (caller c) msg)).map fun sys => { s with sys }
    else some { s with
      sys := { s.sys with gateway := s.sys.gateway.count .incrementTranslated }
      waiting := s.waiting ++ [msg] }
  | .enter =>
    match s.waiting with
    | [] => none
    | msg :: waiting =>
      (s.incoming.send (batcherPolicy bufferSize) msg).map fun incoming => { s with waiting, incoming }
  | .batch tick =>
    (s.incoming.turn (batcherPolicy bufferSize) tick).map fun incoming => { s with incoming }
  | .passBatch => (s.incoming.pass (batcherPolicy bufferSize)).map fun incoming => { s with incoming }
  | .take =>
    s.incoming.recv.bind fun (batch, incoming) =>
      (s.sys.start consumer s.sys.gateway (.incoming (.reconcile batch))).map fun sys =>
        { s with sys, incoming }
  -- a worker is parked at its first receive, and a drain starts with one
  | .work id env =>
    (Gateway.step libs s.sys (.startWorker (worker id) (1 + id))).bind fun sys =>
      advanceSlot libs bufferSize s sys (worker id) env
  | .drain env =>
    (Gateway.step libs s.sys (.drainSpread drainer)).bind fun sys =>
      advanceSlot libs bufferSize s sys drainer env
  | .advance i env => advanceSlot libs bufferSize s s.sys i env
  | .coalesce tick =>
    (s.outgoing.turn (transmissionPolicy bufferSize) tick).map fun outgoing => { s with outgoing }
  | .passCoalesced =>
    (s.outgoing.pass (transmissionPolicy bufferSize)).map fun outgoing => { s with outgoing }
  | .fetch =>
    if s.sending = none then
      s.outgoing.recv.map fun (batch, outgoing) => { s with outgoing, sending := some batch }
    else none
  | .transmit uplink =>
    s.sending.map fun batch => { s with
      sys := { s.sys with gateway := s.sys.gateway.sendBatchToAsts uplink batch }
      sending := none }

/-- A new gateway: its batchers start at their own clock readings. -/
def init (k cacheTtl : Nat) (hasCredentials : Bool) (now start : Nat) : Pipeline k where
  sys := Sys.init (9 + k) cacheTtl hasCredentials now
  waiting := []
  incoming := .start start
  outgoing := .start start
  sending := none

/-! ## The view -/

/-- What is in front of the tasks, -/
def upstream (s : Pipeline k) : List Message := s.incoming.content ++ s.waiting

/-- and what is behind them. -/
def downstream (s : Pipeline k) : List Message := s.sending.getD [] ++ s.outgoing.content

/-- The gateway with these messages in front of its two queues. -/
def behind (g : Gateway) (batcher transmission : List Message) : Gateway :=
  { g with batcher := batcher ++ g.batcher, transmission := transmission ++ g.transmission }

def sysBehind {n : Nat} (s : Sys n) (batcher transmission : List Message) : Sys n where
  gateway := behind s.gateway batcher transmission
  task := s.task

/-- The gateway of `Gateway.Tasks`. -/
def view (s : Pipeline k) : Sys (9 + k) := sysBehind s.sys s.upstream s.downstream

/-- The steps a move is. -/
def erase (s : Pipeline k) : Move k → List (Act (9 + k))
  | .send c msg => [.send (caller c) msg]
  | .take => [.takeBatch consumer (s.incoming.batches.headD []).length]
  | .work id env => [.startWorker (worker id) (1 + id), .advance (worker id) (live env)]
  | .drain env => [.drainSpread drainer, .advance drainer (live env)]
  | .advance i env => [.advance i (live env)]
  | .transmit uplink => [.transmit (s.sending.getD []).length uplink]
  | _ => []

/-! ## The sections -/

theorem callUplink_behind (g : Gateway) (q o : List Message) (uplink : Uplink)
    (messages : List Message) :
    (behind g q o).callUplink uplink messages = behind (g.callUplink uplink messages) q o := by
  have hcredentials : (behind g q o).hasCredentials = g.hasCredentials := rfl
  unfold callUplink
  rw [hcredentials]
  by_cases h : g.hasCredentials = true
  · rw [if_pos h, if_pos h]
    cases uplink <;> rfl
  · rw [if_neg h, if_neg h]
    rfl

/-- The tasks read neither queue, and write at most to the end of the second. -/
theorem advance_behind (env : Env) (g : Gateway) (q o : List Message) (task : Task) :
    advance libs env (behind g q o) task =
      (advance libs env g task).map fun x => (x.1, behind x.2 q o) := by
  cases task with
  | idle => rfl
  | emergency pc =>
    cases pc with
    | translate msg =>
      simp only [advance, processEmergency]
      cases translateSync libs (env.nowMs 0) msg <;> rfl
    | emit translated =>
      exact congrArg (fun g => some (Task.idle, g)) (callUplink_behind g q o env.uplink [translated])
    | _ => rfl
  | incoming pc =>
    cases pc with
    | reconcile batch =>
      have hcount : batch.foldl (fun g msg => g.count (·.recordProtocol msg.protocol)) (behind g q o) =
          behind (batch.foldl (fun g msg => g.count (·.recordProtocol msg.protocol)) g) q o :=
        List.foldl_hom (fun g => behind g q o) fun _ _ => rfl
      exact congrArg (fun g => some (_, g)) hcount
    | pushSpread spread normal => cases spread <;> rfl
    | route routed =>
      rcases routed with _ | ⟨⟨msg, _ | translated⟩, routed⟩
      · rfl
      · have hmanager : (behind g q o).shardManager = g.shardManager := rfl
        simp only [advance, processIncomingBatch]
        rw [hmanager]
        rcases g.shardManager.push msg with ⟨id | e | _, m⟩ <;> rfl
      · exact congrArg (fun g => some (Task.incoming (.route routed), g))
          (callUplink_behind (g.count .recordCacheHit) q o env.uplink [translated])
    | _ => rfl
  | translated pc =>
    cases pc with
    | gather id batch =>
      have hmanager : (behind g q o).shardManager = g.shardManager := rfl
      simp only [advance, processTranslatedBatch, gather]
      rw [hmanager]
      by_cases hroom : batch.length < 20
      · rw [if_pos hroom, if_pos hroom]
        rcases g.shardManager.channel id with _ | ⟨msg, rest⟩
        · by_cases hempty : batch = []
          · simp only [if_pos hempty, Option.map_none]
          · simp only [if_neg hempty, Option.map_some]
        · rfl
      · rw [if_neg hroom, if_neg hroom]
        rfl
    | collect messages =>
      have hmanager : (behind g q o).shardManager = g.shardManager := rfl
      simp only [advance, processTranslatedBatch, collect]
      rw [hmanager]
      rcases g.shardManager.channel g.shardManager.spreadShardId with _ | ⟨msg, rest⟩ <;> rfl
    | translate todo pairs drain =>
      cases todo with
      | nil => rfl
      | cons msg todo =>
        simp only [advance, processTranslatedBatch]
        cases translateSync libs (env.nowMs 0) msg <;> rfl
    | enqueue translated drain =>
      cases translated with
      | nil => rfl
      | cons translated rest =>
        have hqueued : ∀ g : Gateway, { behind g q o with
              transmission := (behind g q o).transmission ++ [translated] } =
            behind { g with transmission := g.transmission ++ [translated] } q o := by
          intro g
          simp only [behind, List.append_assoc]
        simp only [advance, processTranslatedBatch]
        split
        · cases drain with
          | false => exact congrArg (fun g => some (Task.translated (.enqueue rest false), g)) (hqueued g)
          | true =>
            exact congrArg (fun g => some (Task.translated (.enqueue rest true), g))
              (hqueued (g.count .incrementTranslated))
        · rfl
    | _ => rfl

/-! ## Refinement -/

/-- What holds between two moves: both batchers are orderly, no emergency waits in front of the first,
    what is being sent is a batch, and the queues that the batchers stand for are empty. -/
structure Piped (bufferSize : Nat) (s : Pipeline k) : Prop where
  sound : Sound s.sys
  incoming : s.incoming.Orderly (batcherPolicy bufferSize)
  outgoing : s.outgoing.Orderly (transmissionPolicy bufferSize)
  sending : ∀ batch, s.sending = some batch → 1 ≤ batch.length ∧ batch.length ≤ 20
  waiting : ∀ m ∈ s.waiting, m.isEmergency = false
  batcher : s.sys.gateway.batcher = []
  transmission : s.sys.gateway.transmission = []

variable {libs : Libs} {bufferSize : Nat}

theorem piped_init (bufferSize k cacheTtl : Nat) (hasCredentials : Bool) (now start : Nat) :
    Piped bufferSize (init k cacheTtl hasCredentials now start) where
  sound := sound_init (9 + k) cacheTtl hasCredentials now
  incoming := Stage.orderly_start rfl start
  outgoing := Stage.orderly_start rfl start
  sending := fun batch h => by cases h
  waiting := fun m hm => by cases hm
  batcher := rfl
  transmission := rfl

section Behind

variable {n : Nat} {s t : Sys n} {i : Fin n} (q o : List Message)

theorem start_behind {g : Gateway} {task : Task} (h : s.start i g task = some t) :
    (sysBehind s q o).start i (behind g q o) task = some (sysBehind t q o) := by
  obtain ⟨hidle, rfl⟩ := start_eq_some.mp h
  exact start_eq_some.mpr ⟨hidle, rfl⟩

theorem startWorker_behind {id : Nat} (h : Gateway.step libs s (.startWorker i id) = some t) :
    Gateway.step libs (sysBehind s q o) (.startWorker i id) = some (sysBehind t q o) := by
  rw [Gateway.step, Option.ite_none_right_eq_some] at h
  rw [Gateway.step]
  exact (if_pos h.1).trans (start_behind q o h.2)

theorem drainSpread_behind (h : Gateway.step libs s (.drainSpread i) = some t) :
    Gateway.step libs (sysBehind s q o) (.drainSpread i) = some (sysBehind t q o) :=
  start_behind q o h

theorem step_advance_behind {env : Env} (h : Gateway.step libs s (.advance i env) = some t) :
    Gateway.step libs (sysBehind s q o) (.advance i env) = some (sysBehind t q o) := by
  obtain ⟨x, hx, rfl⟩ := Option.map_eq_some_iff.mp h
  have hadvance := advance_behind libs env s.gateway q o (s.task i)
  rw [hx] at hadvance
  rw [Gateway.step]
  show (advance libs env (behind s.gateway q o) (s.task i)).map _ = _
  rw [hadvance]
  rfl

end Behind

/-- The start of a task leaves the gateway alone. -/
theorem gateway_startWorker {n : Nat} {s t : Sys n} {i : Fin n} {id : Nat}
    (h : Gateway.step libs s (.startWorker i id) = some t) : t.gateway = s.gateway := by
  rw [Gateway.step, Option.ite_none_right_eq_some] at h
  obtain ⟨-, rfl⟩ := start_eq_some.mp h.2
  rfl

theorem gateway_drainSpread {n : Nat} {s t : Sys n} {i : Fin n}
    (h : Gateway.step libs s (.drainSpread i) = some t) : t.gateway = s.gateway := by
  obtain ⟨-, rfl⟩ := start_eq_some.mp h
  rfl

/-- What a section hands on goes to the back of the second queue. -/
theorem Piped.handOver {s s' : Pipeline k} (hs : Piped bufferSize s) {sys : Sys (9 + k)}
    (hsound : Sound sys) (hbatcher : sys.gateway.batcher = [])
    (hshort : sys.gateway.transmission.length ≤ 1) (h : handOver bufferSize s sys = some s') :
    Piped bufferSize s' ∧ s'.view = sysBehind sys s.upstream s.downstream := by
  rw [Pipeline.handOver] at h
  split at h
  · rename_i htransmission
    cases h
    exact ⟨⟨hsound, hs.incoming, hs.outgoing, hs.sending, hs.waiting, hbatcher, htransmission⟩, rfl⟩
  · rename_i translated rest htransmission
    obtain ⟨outgoing, hsend, rfl⟩ := Option.map_eq_some_iff.mp h
    have hrest : rest = [] := by
      rw [htransmission, List.length_cons] at hshort
      exact List.length_eq_zero_iff.mp (by omega)
    -- the queue of `Gateway.Tasks` is emptied into the channel, so the view does not change
    have hsound' : Sound { sys with gateway := { sys.gateway with transmission := [] } } :=
      ⟨hsound.configured.of_config_eq rfl, hsound.posted⟩
    obtain ⟨hout, hcontent⟩ := hs.outgoing.send rfl rfl hsend
    refine ⟨⟨hsound', hs.incoming, hout, hs.sending, hs.waiting, hbatcher, rfl⟩, ?_⟩
    simp only [view, upstream, downstream, sysBehind, behind, hcontent, htransmission, hrest,
      List.append_nil, List.append_assoc]

/-- A section is a step of `Gateway.Tasks`. -/
theorem Piped.advanceSlot {s s' : Pipeline k} (hs : Piped bufferSize s) {sys : Sys (9 + k)}
    (hsound : Sound sys) (hgateway : sys.gateway = s.sys.gateway) {i : Fin (9 + k)} {env : Env}
    (h : advanceSlot libs bufferSize s sys i env = some s') :
    Piped bufferSize s' ∧
      Gateway.step libs (sysBehind sys s.upstream s.downstream) (.advance i (live env)) = some s'.view := by
  obtain ⟨sys', hstep, hover⟩ := Option.bind_eq_some_iff.mp h
  obtain ⟨⟨task', g'⟩, hadvance, rfl⟩ := Option.map_eq_some_iff.mp hstep
  have hsettles := advance_settles hsound.configured (hsound.posted i) hadvance
  have hshort : g'.transmission.length ≤ 1 := by
    have := hsettles.short
    rw [hgateway, hs.transmission] at this
    exact this
  have hbatcher : g'.batcher = [] := by
    rw [hsettles.batcher, hgateway]
    exact hs.batcher
  obtain ⟨hpiped, hview⟩ := hs.handOver (hsound.step hstep).1 hbatcher hshort hover
  refine ⟨hpiped, ?_⟩
  rw [hview]
  exact step_advance_behind _ _ hstep

section Moves

variable {s s' : Pipeline k}

/-- An emergency starts its task; any other message waits behind the batcher's callers. -/
theorem Piped.send (hs : Piped bufferSize s) {c : Fin k} {msg : Message}
    (h : step libs bufferSize s (.send c msg) = some s') :
    Piped bufferSize s' ∧ Gateway.step libs s.view (.send (caller c) msg) = some s'.view := by
  rw [Gateway.step]
  rw [Pipeline.step] at h
  split at h
  · rename_i hemergency
    obtain ⟨sys, hstep, rfl⟩ := Option.map_eq_some_iff.mp h
    have hsound := (hs.sound.step hstep).1
    rw [Gateway.step, if_pos hemergency] at hstep
    obtain ⟨-, rfl⟩ := start_eq_some.mp hstep
    refine ⟨⟨hsound, hs.incoming, hs.outgoing, hs.sending, hs.waiting, hs.batcher,
      hs.transmission⟩, ?_⟩
    rw [if_pos hemergency]
    exact start_behind _ _ hstep
  · rename_i hemergency
    cases h
    have hsound : Sound { s.sys with gateway := s.sys.gateway.count .incrementTranslated } :=
      ⟨hs.sound.configured.of_config_eq rfl, hs.sound.posted⟩
    refine ⟨⟨hsound, hs.incoming, hs.outgoing, hs.sending, ?_, hs.batcher, hs.transmission⟩, ?_⟩
    · intro m hm
      rcases List.mem_append.mp hm with hm | hm
      · exact hs.waiting m hm
      · rw [List.mem_singleton.mp hm]
        exact Bool.not_eq_true _ ▸ hemergency
    · rw [if_neg hemergency]
      simp only [view, upstream, downstream, sysBehind, behind, count, hs.batcher, List.append_nil,
        List.append_assoc]

/-- The first waiting caller finds room: its message only goes on in the queue. -/
theorem Piped.enter (hs : Piped bufferSize s) (h : step libs bufferSize s .enter = some s') :
    Piped bufferSize s' ∧ s'.view = s.view := by
  rw [Pipeline.step] at h
  split at h
  · cases h
  · rename_i msg rest hwaiting
    obtain ⟨incoming, hsend, rfl⟩ := Option.map_eq_some_iff.mp h
    have hplain : ∀ m ∈ msg :: rest, m.isEmergency = false := hwaiting ▸ hs.waiting
    obtain ⟨hin, hcontent⟩ := hs.incoming.send rfl (hplain msg List.mem_cons_self) hsend
    refine ⟨⟨hs.sound, hin, hs.outgoing, hs.sending, fun m hm => hplain m (List.mem_cons_of_mem msg hm),
      hs.batcher, hs.transmission⟩, ?_⟩
    simp only [view, upstream, downstream, hcontent, hwaiting, List.append_assoc, List.singleton_append]

/-- What a batching task does on its own is not in the view. -/
theorem Piped.restage (hs : Piped bufferSize s) {incoming outgoing : Stage}
    (hin : incoming.Orderly (batcherPolicy bufferSize) ∧ incoming.content = s.incoming.content)
    (hout : outgoing.Orderly (transmissionPolicy bufferSize) ∧ outgoing.content = s.outgoing.content) :
    Piped bufferSize { s with incoming, outgoing } ∧ { s with incoming, outgoing }.view = s.view := by
  refine ⟨{ hs with incoming := hin.1, outgoing := hout.1 }, ?_⟩
  simp only [view, upstream, downstream, hin.2, hout.2]

/-- The batch that the consumer takes is the front of the queue. -/
theorem Piped.take (hs : Piped bufferSize s) (h : step libs bufferSize s .take = some s') :
    Piped bufferSize s' ∧
      Gateway.step libs s.view (.takeBatch consumer (s.incoming.batches.headD []).length) =
        some s'.view := by
  obtain ⟨⟨batch, incoming⟩, hrecv, h⟩ := Option.bind_eq_some_iff.mp h
  obtain ⟨sys, hstart, rfl⟩ := Option.map_eq_some_iff.mp h
  obtain ⟨hin, hcontent, hpos, hle⟩ := hs.incoming.recv hrecv
  obtain ⟨hidle, rfl⟩ := start_eq_some.mp hstart
  refine ⟨⟨hs.sound.update rfl consumer trivial, hin, hs.outgoing, hs.sending, hs.waiting, hs.batcher,
    hs.transmission⟩, ?_⟩
  have hfront : s.incoming.batches.headD [] = batch := by
    rw [Stage.recv] at hrecv
    split at hrecv
    · cases hrecv
    · rename_i hfront
      cases hrecv
      rw [hfront, List.headD_cons]
  have hqueue : s.view.gateway.batcher =
      batch ++ (incoming.content ++ s.waiting ++ s.sys.gateway.batcher) := by
    show s.incoming.content ++ s.waiting ++ s.sys.gateway.batcher = _
    rw [hcontent, List.append_assoc, List.append_assoc, List.append_assoc]
  have hsize : 1 ≤ batch.length ∧ batch.length ≤ 10 ∧
      batch.length ≤ s.view.gateway.batcher.length := by
    rw [hqueue, List.length_append]
    exact ⟨hpos, hle, Nat.le_add_right _ _⟩
  rw [hfront, Gateway.step, if_pos hsize, hqueue, List.take_left, List.drop_left]
  exact start_eq_some.mpr ⟨hidle, rfl⟩

/-- The batch that the consumer fetches stays at the front of the queue until it is sent. -/
theorem Piped.fetch (hs : Piped bufferSize s) (h : step libs bufferSize s .fetch = some s') :
    Piped bufferSize s' ∧ s'.view = s.view := by
  rw [Pipeline.step, Option.ite_none_right_eq_some] at h
  obtain ⟨hfree, h⟩ := h
  obtain ⟨⟨batch, outgoing⟩, hrecv, rfl⟩ := Option.map_eq_some_iff.mp h
  obtain ⟨hout, hcontent, hpos, hle⟩ := hs.outgoing.recv hrecv
  refine ⟨{ hs with outgoing := hout, sending := ?_ }, ?_⟩
  · rintro _ ⟨⟩
    exact ⟨hpos, hle⟩
  · simp only [view, upstream, downstream, hcontent, hfree, Option.getD_none, Option.getD_some,
      List.nil_append]

theorem Piped.transmit (hs : Piped bufferSize s) {uplink : Uplink}
    (h : step libs bufferSize s (.transmit uplink) = some s') :
    Piped bufferSize s' ∧
      Gateway.step libs s.view (.transmit (s.sending.getD []).length uplink) = some s'.view := by
  obtain ⟨batch, hsending, rfl⟩ := Option.map_eq_some_iff.mp h
  obtain ⟨hpos, hle⟩ := hs.sending batch hsending
  obtain ⟨hbatcher, htransmission, -⟩ := callUplink_queues
    (s.sys.gateway.count (·.recordTransmissionBatch batch.length)) uplink batch
  have hsound : Sound { s.sys with gateway := s.sys.gateway.sendBatchToAsts uplink batch } :=
    ⟨hs.sound.configured.of_config_eq (config_callUplink _ uplink batch), hs.sound.posted⟩
  refine ⟨⟨hsound, hs.incoming, hs.outgoing, fun _ h => (by cases h), hs.waiting,
    hbatcher.trans hs.batcher, htransmission.trans hs.transmission⟩, ?_⟩
  have hqueue : s.view.gateway.transmission =
      batch ++ (s.outgoing.content ++ s.sys.gateway.transmission) := by
    show s.sending.getD [] ++ s.outgoing.content ++ s.sys.gateway.transmission = _
    rw [hsending, Option.getD_some, List.append_assoc]
  have hsize : 1 ≤ batch.length ∧ batch.length ≤ 20 ∧
      batch.length ≤ s.view.gateway.transmission.length := by
    rw [hqueue, List.length_append]
    exact ⟨hpos, hle, Nat.le_add_right _ _⟩
  have hsent : s.view.gateway.sendBatchToAsts uplink batch =
      behind (s.sys.gateway.sendBatchToAsts uplink batch) _ _ :=
    callUplink_behind (s.sys.gateway.count (·.recordTransmissionBatch batch.length)) _ _ uplink batch
  have hkept : (s.sys.gateway.sendBatchToAsts uplink batch).transmission =
      s.sys.gateway.transmission := htransmission
  rw [hsending, Option.getD_some, Gateway.step, if_pos hsize, hqueue, List.take_left, List.drop_left,
    hsent, ← hkept]
  rfl

/-- **A move is the steps it erases to.** -/
theorem Piped.step {a : Move k} (hs : Piped bufferSize s) (h : step libs bufferSize s a = some s') :
    Piped bufferSize s' ∧ Trace.run (Gateway.step libs) s.view (s.erase a) = some s'.view := by
  -- the moves that are not in the view
  have hsilent : Piped bufferSize s' ∧ s'.view = s.view →
      Piped bufferSize s' ∧ Trace.run (Gateway.step libs) s.view [] = some s'.view := by
    rintro ⟨hpiped, hview⟩
    rw [hview]
    exact ⟨hpiped, rfl⟩
  cases a with
  | send c msg =>
    rw [erase, Trace.run_singleton]
    exact hs.send h
  | enter => exact hsilent (hs.enter h)
  | batch tick =>
    obtain ⟨incoming, hturn, rfl⟩ := Option.map_eq_some_iff.mp h
    exact hsilent (hs.restage (hs.incoming.turn rfl hturn) ⟨hs.outgoing, rfl⟩)
  | passBatch =>
    obtain ⟨incoming, hpass, rfl⟩ := Option.map_eq_some_iff.mp h
    exact hsilent (hs.restage (hs.incoming.pass hpass) ⟨hs.outgoing, rfl⟩)
  | take =>
    rw [erase, Trace.run_singleton]
    exact hs.take h
  | work id env =>
    obtain ⟨sys, hstart, h⟩ := Option.bind_eq_some_iff.mp h
    obtain ⟨hpiped, hadvance⟩ := hs.advanceSlot (hs.sound.step hstart).1 (gateway_startWorker hstart) h
    refine ⟨hpiped, ?_⟩
    rw [erase, view, Trace.run_cons (startWorker_behind _ _ hstart), Trace.run_singleton]
    exact hadvance
  | drain env =>
    obtain ⟨sys, hstart, h⟩ := Option.bind_eq_some_iff.mp h
    obtain ⟨hpiped, hadvance⟩ := hs.advanceSlot (hs.sound.step hstart).1 (gateway_drainSpread hstart) h
    refine ⟨hpiped, ?_⟩
    rw [erase, view, Trace.run_cons (drainSpread_behind _ _ hstart), Trace.run_singleton]
    exact hadvance
  | advance i env =>
    obtain ⟨hpiped, hadvance⟩ := hs.advanceSlot hs.sound rfl h
    refine ⟨hpiped, ?_⟩
    rw [erase, Trace.run_singleton]
    exact hadvance
  | coalesce tick =>
    obtain ⟨outgoing, hturn, rfl⟩ := Option.map_eq_some_iff.mp h
    exact hsilent (hs.restage ⟨hs.incoming, rfl⟩ (hs.outgoing.turn rfl hturn))
  | passCoalesced =>
    obtain ⟨outgoing, hpass, rfl⟩ := Option.map_eq_some_iff.mp h
    exact hsilent (hs.restage ⟨hs.incoming, rfl⟩ (hs.outgoing.pass hpass))
  | fetch => exact hsilent (hs.fetch h)
  | transmit uplink =>
    rw [erase, Trace.run_singleton]
    exact hs.transmit h

end Moves

theorem Piped.along {s : Pipeline k} (hs : Piped bufferSize s) (as : List (Move k)) :
    Trace.Along (Pipeline.step libs bufferSize) (fun s _ => Piped bufferSize s) s as :=
  Trace.along_of_invariant (fun _ _ _ hstep hs => (hs.step hstep).1) as s hs

theorem Piped.run {s t : Pipeline k} (hs : Piped bufferSize s) {as : List (Move k)}
    (hrun : Trace.run (Pipeline.step libs bufferSize) s as = some t) :
    Trace.run (Gateway.step libs) s.view (Trace.collect (Pipeline.step libs bufferSize) erase s as) =
      some t.view :=
  Trace.Along.refines view (fun _ _ _ hs hstep => (Piped.step hs hstep).2) as s t (hs.along as) hrun

/-- **Refinement.**  Every run of the pipeline is a run of `Gateway.Tasks`: the same gateway, with two
    queues in place of the two batchers. -/
theorem pipeline_refines {cacheTtl now start : Nat} {hasCredentials : Bool} {as : List (Move k)}
    {s : Pipeline k}
    (hrun : Trace.run (step libs bufferSize) (init k cacheTtl hasCredentials now start) as = some s) :
    Trace.run (Gateway.step libs) (Sys.init (9 + k) cacheTtl hasCredentials now)
      (Trace.collect (step libs bufferSize) erase (init k cacheTtl hasCredentials now start) as) =
      some s.view :=
  (piped_init bufferSize k cacheTtl hasCredentials now start).run hrun

/-- A reading enters, leaves with the timer, and is taken. -/
def oneBatch (msg : Message) : List (Move 1) :=
  [.send (.last 0) msg, .enter, .batch (.recv 1 1), .batch (.timer 25 25), .passBatch, .take]

/-- The worker of shard 1, where the round robin begins. -/
def firstWorker : Fin 7 := 0

/-- What comes behind: through the tasks, to the uplink. -/
def oneTransmission : List (Move 1) :=
  let env : Env := ⟨fun _ => 0, fun _ => 0, .ok, true⟩
  List.replicate 7 (.advance consumer env) ++
    .work firstWorker env :: List.replicate 7 (.advance (worker firstWorker) env) ++
    [.coalesce (.recv 30 30), .coalesce (.timer 80 80), .passCoalesced, .fetch, .transmit .ok]

theorem oneTransmission_runs :
    (Trace.run (step frameLibs 8) (init 1 60000000000 true 0 0)
      (oneBatch (delayed 1000) ++ oneTransmission)).map (·.view.gateway.uplinked.length) = some 1 := by
  decide +kernel

/-- The reading goes out in either. -/
theorem pipeline_refines_oneTransmission :
    ∃ s, Trace.run (step frameLibs 8) (init 1 60000000000 true 0 0)
        (oneBatch (delayed 1000) ++ oneTransmission) = some s ∧
      s.view.gateway.uplinked.length = 1 ∧
      Trace.run (Gateway.step frameLibs) (Sys.init (9 + 1) 60000000000 true 0)
        (Trace.collect (step frameLibs 8) erase (init 1 60000000000 true 0 0)
          (oneBatch (delayed 1000) ++ oneTransmission)) = some s.view := by
  obtain ⟨s, hs, hsent⟩ := Option.map_eq_some_iff.mp oneTransmission_runs
  exact ⟨s, hs, hsent, pipeline_refines hs⟩

end Pipeline

end Gateway

end FloatProtocols
