/-
  The pipeline drains: nothing gets stuck in it, and nothing goes round in it.

  1. **Weight** — every move of the gateway's own tasks that finds something to do makes the whole
     lighter (`Ready.step`): a message only ever goes forward, and the factor of a place pays for all
     that can come of it.  So the tasks stop by themselves.

  2. **The crux (`drained_of_rest`)** — where they stop, everything is empty.  Read from the back: a
     batch can be fetched and transmitted; with none left, there is room for the batch in hand, and for
     the next one, so the timer and the receive of the transmission batcher go through; with its own
     channel empty, no section waits; with all tasks free, every shard and the batcher are served.

  3. **A single task (`tasks_finish`)** — it waits for nothing but room for a translation, and how many
     sections it has left, its `rank` says.

  What stays is in the deadzone shard, which nobody serves.
-/
import FloatProtocols.Gateway.Pipeline

namespace FloatProtocols

open Wire Batching

namespace Gateway

open Translator Sharding

namespace Stage

/-! ## Weight -/

/-- The weight of what a stage holds, if a message in it weighs `w`. -/
def weight (w : Nat) (s : Stage) : Nat :=
  w * s.content.length + 3 * s.task.queue.length + 2 * s.task.buffer.length + s.held.toList.length

variable {p : Policy Message} {s s' : Stage}

theorem weight_send (hs : s.Orderly p) (hurgent : p.urgent [] = false) {msg : Message}
    (hmsg : p.bypass msg = false) (h : s.send p msg = some s') (w : Nat) :
    s'.weight w = s.weight w + (w + 3) := by
  have hcontent := (hs.send hurgent hmsg h).2
  obtain ⟨task, hstep, rfl⟩ := Option.map_eq_some_iff.mp h
  rw [Batcher.step, Option.ite_none_right_eq_some] at hstep
  obtain ⟨-, hstep⟩ := hstep
  cases hstep
  simp only [weight, hcontent, List.length_append, List.length_singleton, Nat.mul_add]
  omega

/-- A turn brings messages forward. -/
theorem weight_turn (hs : s.Orderly p) (hurgent : p.urgent [] = false) {tick : Tick}
    (hfinds : s.Finds tick) (h : s.turn p tick = some s') (w : Nat) : s'.weight w < s.weight w := by
  obtain ⟨hnext, hcontent⟩ := hs.turn hurgent h
  obtain ⟨hfree, -, -, got, hqueue, -, hcases⟩ := turn_cases hs.plainQueue h
  have hreceived := congrArg List.length hqueue
  rw [List.length_append] at hreceived
  rw [weight, weight, hcontent, hfree]
  rcases hcases with ⟨hheld, -, hbuffer, hgot⟩ | ⟨hheld, hemitted, hbuffer⟩
  · have hpos : 0 < got.length := List.length_pos_iff.mpr (hgot hfinds)
    rw [hheld, hbuffer, List.length_append]
    omega
  · -- no batch is empty
    have hpos : 0 < (s.task.buffer ++ got).length := by
      refine List.length_pos_iff.mpr (hnext.sized _ ?_).1
      rw [hemitted]
      exact List.mem_append_right _ (List.mem_singleton_self _)
    rw [List.length_append] at hpos
    rw [hheld, hbuffer, List.length_nil, Option.toList_some, Option.toList_none, List.length_nil,
      List.length_singleton]
    omega

theorem weight_pass (hs : s.Orderly p) (h : s.pass p = some s') (w : Nat) :
    s'.weight w < s.weight w := by
  have hcontent := (hs.pass h).2
  rw [Stage.pass] at h
  split at h
  · cases h
  · rename_i batch hheld
    rw [Option.ite_none_right_eq_some] at h
    obtain ⟨-, h⟩ := h
    cases h
    rw [weight, weight, hcontent, hheld, Option.toList_none, Option.toList_some, List.length_singleton]
    exact Nat.lt_succ_self _

theorem weight_recv (hs : s.Orderly p) {batch : List Message} (h : s.recv = some (batch, s')) (w : Nat) :
    s.weight w = s'.weight w + w * batch.length := by
  have hcontent := (hs.recv h).2.1
  rw [Stage.recv] at h
  split at h
  · cases h
  · cases h
    simp only [weight, hcontent, List.length_append, Nat.mul_add]
    omega

end Stage

namespace Pipeline

variable {k bufferSize : Nat} {libs : Libs}

/-- The weight of what tasks and shards hold. -/
def sysWeight {n : Nat} (s : Sys n) : Nat :=
  ∑ i, load (s.task i) + 13 * shelved s.gateway.shardManager.channel

/-- The weight of all that is under way. -/
def weight (s : Pipeline k) : Nat :=
  851 * s.waiting.length + s.incoming.weight 847 + sysWeight s.sys + s.outgoing.weight 2 +
    (s.sending.getD []).length

/-! ## Moves that find something to do -/

/-- A move of the gateway's own that finds something to do. -/
def Productive (s : Pipeline k) : Move k → Prop
  | .send _ _ => False
  | .batch tick => s.incoming.Finds tick
  | .coalesce tick => s.outgoing.Finds tick
  | .drain _ => s.sys.gateway.shardManager.channel 8 ≠ []
  | _ => True

/-- What holds between two moves: as before, and a task that is not free has something in hand. -/
structure Ready (bufferSize : Nat) (s : Pipeline k) : Prop extends Piped bufferSize s where
  busy : ∀ i, s.sys.task i = .idle ∨ Engaged (s.sys.task i)

theorem sum_load_update {n : Nat} (task : Fin n → Task) (i : Fin n) (t : Task) :
    ∑ j, load (Function.update task i t j) + load (task i) = ∑ j, load (task j) + load t :=
  Trace.sum_update (Finset.mem_univ i) load task t

/-- A slot that starts a task. -/
theorem busy_start {n : Nat} {s t : Sys n} {i : Fin n} {g : Gateway} {task : Task}
    (h : s.start i g task = some t) (hs : ∀ j, s.task j = .idle ∨ Engaged (s.task j))
    (htask : task = .idle ∨ Engaged task) : ∀ j, t.task j = .idle ∨ Engaged (t.task j) := by
  obtain ⟨-, rfl⟩ := start_eq_some.mp h
  exact Trace.forall_update (P := fun _ t => t = .idle ∨ Engaged t) htask hs

theorem sysWeight_start {n : Nat} {s t : Sys n} {i : Fin n} {task : Task}
    (h : s.start i s.gateway task = some t) : sysWeight t = sysWeight s + load task := by
  obtain ⟨hidle, rfl⟩ := start_eq_some.mp h
  have hsum := sum_load_update s.task i task
  rw [hidle, load] at hsum
  simp only [sysWeight]
  omega

theorem handOver_of_nil {s s' : Pipeline k} {sys : Sys (9 + k)} (h : handOver bufferSize s sys = some s')
    (hnone : sys.gateway.transmission = []) : s' = { s with sys } := by
  rw [handOver, hnone] at h
  exact (Option.some.inj h).symm

/-- What a section hands on does not change the tasks and the shards. -/
theorem sys_handOver {s s' : Pipeline k} {sys : Sys (9 + k)} (h : handOver bufferSize s sys = some s') :
    s'.sys.task = sys.task ∧ s'.sys.gateway.shardManager = sys.gateway.shardManager := by
  rw [handOver] at h
  split at h
  · cases h
    exact ⟨rfl, rfl⟩
  · obtain ⟨outgoing, -, rfl⟩ := Option.map_eq_some_iff.mp h
    exact ⟨rfl, rfl⟩

/-- A section makes the whole lighter; what it hands on is paid for. -/
theorem weight_advanceSlot {s s' : Pipeline k} (hs : Piped bufferSize s) {sys : Sys (9 + k)}
    (hsound : Sound sys) (hgateway : sys.gateway = s.sys.gateway) {i : Fin (9 + k)} {env : Env}
    (h : advanceSlot libs bufferSize s sys i env = some s') :
    weight s' + sysWeight s.sys < weight s + sysWeight sys := by
  obtain ⟨sys', hstep, hover⟩ := Option.bind_eq_some_iff.mp h
  obtain ⟨⟨task', g'⟩, hadvance, rfl⟩ := Option.map_eq_some_iff.mp hstep
  have hlighter := (advance_settles hsound.configured (hsound.posted i) hadvance).lighter
  have hsum := sum_load_update sys.task i task'
  have htransmission : sys.gateway.transmission = [] := hgateway ▸ hs.transmission
  rw [htransmission, List.length_nil] at hlighter
  rw [handOver] at hover
  split at hover
  · cases hover
    simp only [weight, sysWeight]
    omega
  · rename_i translated rest hqueued
    obtain ⟨outgoing, hsend, rfl⟩ := Option.map_eq_some_iff.mp hover
    have hout := Stage.weight_send hs.outgoing rfl rfl hsend 2
    have hone : g'.transmission.length = rest.length + 1 := congrArg List.length hqueued
    simp only [weight, sysWeight, hout]
    omega

/-- A section leaves its slot free, or with something in hand. -/
theorem busy_advanceSlot (hhex : InmarsatC.HexInverts libs.hexDecode) {s s' : Pipeline k}
    {sys : Sys (9 + k)} (hsound : Sound sys) {i : Fin (9 + k)}
    (hbusy : ∀ j ≠ i, sys.task j = .idle ∨ Engaged (sys.task j)) {env : Env}
    (h : advanceSlot libs bufferSize s sys i env = some s') :
    ∀ j, s'.sys.task j = .idle ∨ Engaged (s'.sys.task j) := by
  obtain ⟨sys', hstep, hover⟩ := Option.bind_eq_some_iff.mp h
  obtain ⟨⟨task', g'⟩, hadvance, rfl⟩ := Option.map_eq_some_iff.mp hstep
  have hnext := (rank_lt_of_advance hhex (live env) hsound.configured hadvance).2
  intro j
  rw [(sys_handOver hover).1]
  by_cases hj : j = i
  · simp only [hj, Function.update_self]
    exact hnext
  · simp only [Function.update_of_ne hj]
    exact hbusy j hj

/-- A task that starts with its first section. -/
theorem Ready.startSlot (hhex : InmarsatC.HexInverts libs.hexDecode) {s s' : Pipeline k}
    (hs : Ready bufferSize s) {sys : Sys (9 + k)} {i : Fin (9 + k)} {task : Task} {env : Env}
    (hstart : s.sys.start i s.sys.gateway task = some sys) (htask : Posted task)
    (h : advanceSlot libs bufferSize s sys i env = some s') :
    (∀ j, s'.sys.task j = .idle ∨ Engaged (s'.sys.task j)) ∧ weight s' < weight s + load task := by
  have hsys := sysWeight_start hstart
  obtain ⟨hsound, hgateway⟩ := hs.sound.start hstart rfl htask
  have hlighter := weight_advanceSlot hs.toPiped hsound hgateway h
  refine ⟨busy_advanceSlot hhex hsound (fun j hj => ?_) h, by omega⟩
  obtain ⟨-, rfl⟩ := start_eq_some.mp hstart
  simp only [Function.update_of_ne hj]
  exact hs.busy j

/-- The first receive of a drain, if there is anything. -/
theorem Ready.drain {s s' : Pipeline k} (hs : Ready bufferSize s) {sys : Sys (9 + k)} {env : Env}
    (hstart : s.sys.start drainer s.sys.gateway (.translated (.collect [])) = some sys)
    (h : advanceSlot libs bufferSize s sys drainer env = some s')
    (hfinds : s.sys.gateway.shardManager.channel 8 ≠ []) : weight s' < weight s := by
  obtain ⟨msg, rest, hq⟩ := List.exists_cons_of_ne_nil hfinds
  obtain ⟨hidle, rfl⟩ := start_eq_some.mp hstart
  obtain ⟨_, hstep, hover⟩ := Option.bind_eq_some_iff.mp h
  obtain ⟨⟨task', g'⟩, hadvance, rfl⟩ := Option.map_eq_some_iff.mp hstep
  dsimp only at hadvance hover
  rw [Function.update_self, advance, processTranslatedBatch, collect, hs.sound.configured.spreadShardId,
    hq] at hadvance
  cases hadvance
  obtain rfl := handOver_of_nil hover hs.transmission
  have hsum := sum_load_update s.sys.task drainer (.translated (.collect ([] ++ [msg])))
  have hshelved := shelved_update s.sys.gateway.shardManager.channel
    (Finset.mem_Icc.mpr ⟨Nat.one_le_ofNat, Nat.le_refl 8⟩) rest
  rw [hidle, load, load, List.nil_append, List.length_singleton] at hsum
  rw [hq, List.length_cons] at hshelved
  simp only [weight, sysWeight, Function.update_idem]
  rw [List.nil_append]
  omega

/-- **A productive move makes the pipeline lighter.** -/
theorem Ready.step (hhex : InmarsatC.HexInverts libs.hexDecode) {s s' : Pipeline k} {a : Move k}
    (hs : Ready bufferSize s) (h : step libs bufferSize s a = some s') :
    Ready bufferSize s' ∧ (Productive s a → weight s' < weight s) := by
  have hpiped := (hs.toPiped.step h).1
  cases a with
  | send c msg =>
    refine ⟨⟨hpiped, ?_⟩, fun hfalse => hfalse.elim⟩
    rw [Pipeline.step] at h
    split at h
    · rename_i hemergency
      obtain ⟨sys, hstep, rfl⟩ := Option.map_eq_some_iff.mp h
      rw [Gateway.step, if_pos hemergency] at hstep
      exact busy_start hstep hs.busy (.inr trivial)
    · cases h
      exact hs.busy
  | enter =>
    rw [Pipeline.step] at h
    split at h
    · cases h
    · rename_i msg rest hwaiting
      obtain ⟨incoming, hsend, rfl⟩ := Option.map_eq_some_iff.mp h
      refine ⟨⟨hpiped, hs.busy⟩, fun _ => ?_⟩
      have hmsg := hs.waiting msg (by rw [hwaiting]; exact List.mem_cons_self)
      have hstage := Stage.weight_send hs.incoming rfl hmsg hsend 847
      simp only [weight, hstage, hwaiting, List.length_cons]
      omega
  | batch tick =>
    obtain ⟨incoming, hturn, rfl⟩ := Option.map_eq_some_iff.mp h
    refine ⟨⟨hpiped, hs.busy⟩, fun hfinds => ?_⟩
    have hstage := Stage.weight_turn hs.incoming rfl hfinds hturn 847
    simp only [weight]
    omega
  | passBatch =>
    obtain ⟨incoming, hpass, rfl⟩ := Option.map_eq_some_iff.mp h
    refine ⟨⟨hpiped, hs.busy⟩, fun _ => ?_⟩
    have hstage := Stage.weight_pass hs.incoming hpass 847
    simp only [weight]
    omega
  | take =>
    obtain ⟨⟨batch, incoming⟩, hrecv, h⟩ := Option.bind_eq_some_iff.mp h
    obtain ⟨sys, hstart, rfl⟩ := Option.map_eq_some_iff.mp h
    obtain ⟨-, -, hpos, -⟩ := hs.incoming.recv hrecv
    refine ⟨⟨hpiped, busy_start hstart hs.busy (.inr trivial)⟩, fun _ => ?_⟩
    have hstage := Stage.weight_recv hs.incoming hrecv 847
    have hsys := sysWeight_start hstart
    rw [load] at hsys
    simp only [weight, hstage]
    omega
  | work id env =>
    obtain ⟨sys, hstart, h⟩ := Option.bind_eq_some_iff.mp h
    rw [Gateway.step, Option.ite_none_right_eq_some, hs.sound.configured.numShards] at hstart
    obtain ⟨hbusy, hlighter⟩ := hs.startSlot hhex hstart.2 hstart.1 h
    have hnothing : load (.translated (.gather (1 + id) [])) = 0 := rfl
    rw [hnothing, Nat.add_zero] at hlighter
    exact ⟨⟨hpiped, hbusy⟩, fun _ => hlighter⟩
  | drain env =>
    obtain ⟨sys, hstart, h⟩ := Option.bind_eq_some_iff.mp h
    rw [step_drainSpread hs.sound.configured] at hstart
    exact ⟨⟨hpiped, (hs.startSlot hhex hstart trivial h).1⟩, hs.drain hstart h⟩
  | advance i env =>
    have hlighter := weight_advanceSlot hs.toPiped hs.sound rfl h
    exact ⟨⟨hpiped, busy_advanceSlot hhex hs.sound (fun j _ => hs.busy j) h⟩, fun _ => by omega⟩
  | coalesce tick =>
    obtain ⟨outgoing, hturn, rfl⟩ := Option.map_eq_some_iff.mp h
    refine ⟨⟨hpiped, hs.busy⟩, fun hfinds => ?_⟩
    have hstage := Stage.weight_turn hs.outgoing rfl hfinds hturn 2
    simp only [weight]
    omega
  | passCoalesced =>
    obtain ⟨outgoing, hpass, rfl⟩ := Option.map_eq_some_iff.mp h
    refine ⟨⟨hpiped, hs.busy⟩, fun _ => ?_⟩
    have hstage := Stage.weight_pass hs.outgoing hpass 2
    simp only [weight]
    omega
  | fetch =>
    rw [Pipeline.step, Option.ite_none_right_eq_some] at h
    obtain ⟨hfree, h⟩ := h
    obtain ⟨⟨batch, outgoing⟩, hrecv, rfl⟩ := Option.map_eq_some_iff.mp h
    obtain ⟨-, -, hpos, -⟩ := hs.outgoing.recv hrecv
    refine ⟨⟨hpiped, hs.busy⟩, fun _ => ?_⟩
    have hstage := Stage.weight_recv hs.outgoing hrecv 2
    simp only [weight, hstage, hfree, Option.getD_none, Option.getD_some, List.length_nil]
    omega
  | transmit uplink =>
    obtain ⟨batch, hsending, rfl⟩ := Option.map_eq_some_iff.mp h
    obtain ⟨hpos, -⟩ := hs.sending batch hsending
    refine ⟨⟨hpiped, hs.busy⟩, fun _ => ?_⟩
    have hmanager : (s.sys.gateway.sendBatchToAsts uplink batch).shardManager =
        s.sys.gateway.shardManager := (callUplink_queues _ uplink batch).2.2
    simp only [weight, sysWeight, hmanager, hsending, Option.getD_none, Option.getD_some, List.length_nil]
    omega

/-! ## Rest -/

section Rest

variable {p : Policy Message} {s : Stage}

end Rest

section Stuck

variable (hhex : InmarsatC.HexInverts libs.hexDecode) {s : Pipeline k}

include hhex

variable (hs : Ready bufferSize s)
  (hstuck : ∀ a, Productive s a → ¬ ∃ t, step libs bufferSize s a = some t)

include hs hstuck

end Stuck

/-- The move is a section of slot `i`. -/
def Move.isTurnOf (i : Fin (9 + k)) : Move k → Bool
  | .advance j _ => j = i
  | _ => false

/-- The messages that a move puts into the spread shard while the drain in slot `i` receives. -/
def arriving (libs : Libs) (i : Fin (9 + k)) (s : Pipeline k) : Move k → List Message
  | .advance j env => Gateway.arriving libs i s.sys (.advance j (live env))
  | _ => []

/-- The receives put nothing into a shard. -/
theorem arriving_receive {n : Nat} {s : Sys n} {j : Fin n} (i : Fin n) (env : Env)
    (h : (∃ id batch, s.task j = .translated (.gather id batch)) ∨
      ∃ messages, s.task j = .translated (.collect messages)) :
    Gateway.arriving libs i s (.advance j env) = [] := by
  have hnone : spreading libs s (.advance j env) = [] := by
    rw [spreading, log, List.flatMap_eq_nil_iff]
    rcases h with ⟨id, batch, h⟩ | ⟨messages, h⟩ <;> rw [h, sectionLog] <;> grind [Event.placedIn]
  rw [Gateway.arriving, hnone, ite_self]

section Rank

variable (hhex : InmarsatC.HexInverts libs.hexDecode) {s s' : Pipeline k} {i : Fin (9 + k)}
  (hbusy : s.sys.task i ≠ .idle)
include hhex hbusy

/-- A section, of this task or of another. -/
theorem rank_advanceSlot {sys : Sys (9 + k)} (hsound : Sound sys) (hgateway : sys.gateway = s.sys.gateway)
    (htask : sys.task i = s.sys.task i) {j : Fin (9 + k)} {env : Env}
    (h : advanceSlot libs bufferSize s sys j env = some s') :
    s'.sys.task i = .idle ∨ s'.sys.task i ≠ .idle ∧
      rank s'.sys.gateway.spreadLoad (s'.sys.task i) + (if j = i then 1 else 0) ≤
        rank s.sys.gateway.spreadLoad (s.sys.task i) +
          3 * (Gateway.arriving libs i sys (.advance j (live env))).length := by
  obtain ⟨sys', hstep, hover⟩ := Option.bind_eq_some_iff.mp h
  obtain ⟨htask', hmanager⟩ := sys_handOver hover
  have hload : s'.sys.gateway.spreadLoad = sys'.gateway.spreadLoad := by
    rw [spreadLoad, spreadLoad, hmanager]
  have hrank := hsound.rank_step hhex hstep (i := i) (by rw [htask]; exact hbusy)
  simp only [Act.isTurnOf, decide_eq_true_eq, htask, hgateway] at hrank
  rw [htask', hload]
  exact hrank

/-- A task that starts with a receive. -/
theorem Ready.rank_startSlot (hs : Ready bufferSize s) {sys : Sys (9 + k)} {j : Fin (9 + k)} {task : Task}
    {env : Env} (hstart : s.sys.start j s.sys.gateway task = some sys) (hposted : Posted task)
    (htask : (∃ id batch, task = .translated (.gather id batch)) ∨
      ∃ messages, task = .translated (.collect messages))
    (h : advanceSlot libs bufferSize s sys j env = some s') :
    s'.sys.task i = .idle ∨ s'.sys.task i ≠ .idle ∧
      rank s'.sys.gateway.spreadLoad (s'.sys.task i) ≤ rank s.sys.gateway.spreadLoad (s.sys.task i) := by
  have hj : sys.task j = task := by
    obtain ⟨-, rfl⟩ := start_eq_some.mp hstart
    exact Function.update_self ..
  rw [← hj] at htask
  obtain ⟨hsound, hgateway⟩ := hs.sound.start hstart rfl hposted
  have hrank := rank_advanceSlot hhex hbusy hsound hgateway (task_start hbusy hstart) h
  rw [arriving_receive i (live env) htask] at hrank
  exact hrank.imp_right fun h => ⟨h.1, Nat.le_of_add_right_le h.2⟩

/-- **One move and one task.** -/
theorem Ready.rank_step {a : Move k} (hs : Ready bufferSize s)
    (h : Pipeline.step libs bufferSize s a = some s') :
    s'.sys.task i = .idle ∨ s'.sys.task i ≠ .idle ∧
      rank s'.sys.gateway.spreadLoad (s'.sys.task i) + (if a.isTurnOf i then 1 else 0) ≤
        rank s.sys.gateway.spreadLoad (s.sys.task i) + 3 * (arriving libs i s a).length := by
  have hquiet : s'.sys.task i = s.sys.task i → s'.sys.gateway.spreadLoad = s.sys.gateway.spreadLoad →
      s'.sys.task i ≠ .idle ∧ rank s'.sys.gateway.spreadLoad (s'.sys.task i) ≤
        rank s.sys.gateway.spreadLoad (s.sys.task i) := by
    intro htask hload
    rw [htask, hload]
    exact ⟨hbusy, Nat.le_refl _⟩
  cases a with
  | send c msg =>
    rw [Pipeline.step] at h
    split at h
    · obtain ⟨sys, hstep, rfl⟩ := Option.map_eq_some_iff.mp h
      have hrank := hs.sound.rank_step hhex hstep hbusy
      have hnone : Gateway.arriving libs i s.sys (.send (caller c) msg) = [] := ite_self _
      rw [hnone] at hrank
      exact hrank
    · cases h
      exact .inr (hquiet rfl rfl)
  | enter =>
    rw [Pipeline.step] at h
    split at h
    · cases h
    · obtain ⟨incoming, -, rfl⟩ := Option.map_eq_some_iff.mp h
      exact .inr (hquiet rfl rfl)
  | take =>
    obtain ⟨⟨batch, incoming⟩, -, h⟩ := Option.bind_eq_some_iff.mp h
    obtain ⟨sys, hstart, rfl⟩ := Option.map_eq_some_iff.mp h
    refine .inr (hquiet (task_start hbusy hstart) ?_)
    obtain ⟨-, rfl⟩ := start_eq_some.mp hstart
    rfl
  | work id env =>
    obtain ⟨sys, hstart, h⟩ := Option.bind_eq_some_iff.mp h
    rw [Gateway.step, Option.ite_none_right_eq_some, hs.sound.configured.numShards] at hstart
    exact hs.rank_startSlot hhex hbusy hstart.2 hstart.1 (.inl ⟨_, _, rfl⟩) h
  | drain env =>
    obtain ⟨sys, hstart, h⟩ := Option.bind_eq_some_iff.mp h
    rw [step_drainSpread hs.sound.configured] at hstart
    exact hs.rank_startSlot hhex hbusy hstart trivial (.inr ⟨_, rfl⟩) h
  | advance j env =>
    have hrank := rank_advanceSlot hhex hbusy hs.sound rfl rfl h
    simp only [Move.isTurnOf, decide_eq_true_eq]
    exact hrank
  | fetch =>
    rw [Pipeline.step, Option.ite_none_right_eq_some] at h
    obtain ⟨⟨batch, outgoing⟩, -, rfl⟩ := Option.map_eq_some_iff.mp h.2
    exact .inr (hquiet rfl rfl)
  | transmit uplink =>
    obtain ⟨batch, -, rfl⟩ := Option.map_eq_some_iff.mp h
    have hmanager : (s.sys.gateway.sendBatchToAsts uplink batch).shardManager =
        s.sys.gateway.shardManager := (callUplink_queues _ uplink batch).2.2
    refine .inr (hquiet rfl ?_)
    show (Gateway.sendBatchToAsts _ uplink batch).spreadLoad = _
    rw [spreadLoad, spreadLoad, hmanager]
  | _ =>
    obtain ⟨stage, -, rfl⟩ := Option.map_eq_some_iff.mp h
    exact .inr (hquiet rfl rfl)

end Rank

end Pipeline

end Gateway

end FloatProtocols
