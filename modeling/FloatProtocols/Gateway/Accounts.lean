/-
  What becomes of the messages of an incoming batch.

  1. **A call and its surroundings** — `Runs found k pc sections`: from its `k`-th section on, the call
     of `process_incoming_batch` makes `sections`, and `found k` is what the `k`-th section hears from
     outside and finds in the shared state.  `found` is arbitrary, so that the other tasks may do
     anything in between.

  2. **The account** — the loop of the batch gives each message its copies (`shares`; none, if the
     cadence rules drop it).  Each copy is disposed of in one later section, which has to emit it, to
     place it in a regular or in the spread shard, or to count an error (`Section.Accounts`).

  3. **The gap** — a section accounts for its copy unless it pushes into a spread shard without room
     (`accounts_iff`): that push is refused, and only logged.
-/
import FloatProtocols.Gateway.Tasks
import FloatProtocols.Sharding.Pushes

namespace FloatProtocols

open Wire

/-! ## What a push leaves behind -/

namespace Sharding.Manager

/-- The spread shard takes one more message. -/
def SpreadRoom (m : Manager) : Prop :=
  ∃ shard, m.shards m.spreadShardId = some shard ∧ m.hasRoom m.spreadShardId shard = true

/-- The round robin never points at the two reserved shards. -/
theorem isRegularShard_target (m : Manager) (msg : Message)
    (h : m.totalRegularMessages < m.backpressureLimit) :
    m.isRegularShard (m.target (.regular msg)) = true := by
  have hpos : 0 < m.regularCount := Nat.pos_of_ne_zero (regularCount_ne_zero h)
  have hmod : m.roundRobin % m.regularCount < m.regularCount := Nat.mod_lt _ hpos
  have hcount : m.regularCount = (m.numShards + 2 ^ 64 - 1) % 2 ^ 64 := rfl
  rw [isRegularShard, decide_eq_true_iff, deadzoneShardId, spreadShardId, target]
  omega

/-- `push` returns an error, or has placed the message in a regular shard. -/
theorem push_cases (m : Manager) (msg : Message) :
    (∃ e m', m.push msg = (.err e, m')) ∨
    ∃ id m', m.push msg = (.ok id, m') ∧ m.isRegularShard id = true ∧
      m'.channel id = m.channel id ++ [msg] := by
  by_cases hgate : m.GateOpen (.regular msg)
  · rcases perform_cases hgate with ⟨-, hrun⟩ | ⟨-, -, -, hrun⟩ | ⟨-, -, -, hrun⟩
    · exact .inl ⟨_, _, hrun⟩
    · exact .inl ⟨_, _, hrun⟩
    · exact .inr ⟨_, _, hrun, isRegularShard_target m msg hgate, Function.update_self _ _ _⟩
  · obtain ⟨-, -, hrun⟩ := perform_refused hgate
    exact .inl ⟨_, _, hrun⟩

/-- `push_spread` places the message if there is room, and changes no channel otherwise. -/
theorem pushSpread_cases (m : Manager) (msg : Message) :
    (m.SpreadRoom ∧
      (m.pushSpread msg).2.channel m.spreadShardId = m.channel m.spreadShardId ++ [msg]) ∨
    (¬ m.SpreadRoom ∧ (m.pushSpread msg).2.channel = m.channel) := by
  rw [pushSpread]
  rcases m.offer_cases m.spreadShardId msg false with
    ⟨hnone, hoffer⟩ | ⟨shard, hshard, hfull, hoffer⟩ | ⟨shard, hshard, hroom, hoffer⟩
  · refine .inr ⟨?_, by rw [hoffer]⟩
    rintro ⟨shard, hshard, -⟩
    rw [hnone] at hshard
    cases hshard
  · refine .inr ⟨?_, by rw [hoffer]⟩
    rintro ⟨shard', hshard', hroom⟩
    obtain rfl := Option.some.inj (hshard.symm.trans hshard')
    rw [hroom] at hfull
    cases hfull
  · refine .inl ⟨⟨shard, hshard, hroom⟩, ?_⟩
    rw [hoffer]
    exact Function.update_self _ _ _

end Sharding.Manager

namespace Gateway

/-! ## The copies of a message -/

/-- What the loop makes of each message: itself for the spread shard, or its cadence copies. -/
def shares (instant : Nat → Nat) :
    Nat → EwmaMap → CadenceTranslator → List Message → List (Message × List Message)
  | _, _, _, [] => []
  | k, ewma, ct, msg :: msgs =>
    if (ewma.route msg).1 then (msg, [msg]) :: shares instant (k + 1) (ewma.route msg).2 ct msgs
    else (msg, (cadenceCopies ct (instant k) msg).1) ::
      shares instant (k + 1) (ewma.route msg).2 (cadenceCopies ct (instant k) msg).2 msgs

theorem map_fst_shares (instant : Nat → Nat) (msgs : List Message) :
    ∀ k ewma ct, (shares instant k ewma ct msgs).map Prod.fst = msgs := by
  induction msgs with
  | nil => exact fun _ _ _ => rfl
  | cons msg msgs ih =>
    intro k ewma ct
    rw [shares]
    split <;> rw [List.map_cons, ih]

/-- The two halves of the batch are the copies of its messages. -/
theorem partition_perm (g : Gateway) (instant : Nat → Nat) (reconciled : List Message) :
    ((g.partition instant reconciled).spread ++ (g.partition instant reconciled).normal).Perm
      ((shares instant 0 g.ewmaState g.cadenceTranslator reconciled).flatMap Prod.snd) := by
  suffices hloop : ∀ (msgs : List Message) (k : Nat) (p : Partition),
      let q := (msgs.zipIdx k).foldl (fun p x => p.add (instant x.2) x.1) p
      (q.spread ++ q.normal).Perm (p.spread ++ p.normal ++
        (shares instant k p.ewmaState p.cadenceTranslator msgs).flatMap Prod.snd) from
    hloop reconciled 0 ⟨[], [], g.ewmaState, g.cadenceTranslator⟩
  intro msgs
  induction msgs with
  | nil =>
    intro k p
    rw [shares, List.flatMap_nil, List.append_nil]
    exact .refl _
  | cons msg msgs ih =>
    intro k p
    refine (ih (k + 1) (p.add (instant k) msg)).trans ?_
    rw [shares]
    by_cases hburst : (p.ewmaState.route msg).1 = true
    · simp only [Partition.add, hburst, if_true, List.flatMap_cons, List.append_assoc]
      -- the message goes behind the spread half, which comes first
      exact (List.perm_append_comm_assoc [msg] p.normal _).append_left p.spread
    · simp only [Partition.add, hburst, Bool.false_eq_true, if_false, List.flatMap_cons,
        List.append_assoc]
      exact .refl _

/-! ## A call, section by section -/

/-- One section of the call: where it stands, what it hears, what it finds and what it leaves. -/
structure Section where
  pc : Incoming
  env : Env
  before : Gateway
  after : Gateway

/-- The sections of a call from its `k`-th on. -/
inductive Runs (found : Nat → Env × Gateway) : Nat → Incoming → List Section → Prop where
  | last {k : Nat} {pc : Incoming} {after : Gateway}
      (h : processIncomingBatch (found k).1 (found k).2 pc = some (.idle, after)) :
      Runs found k pc [⟨pc, (found k).1, (found k).2, after⟩]
  | next {k : Nat} {pc pc' : Incoming} {after : Gateway} {rest : List Section}
      (h : processIncomingBatch (found k).1 (found k).2 pc = some (.incoming pc', after))
      (hrest : Runs found (k + 1) pc' rest) :
      Runs found k pc (⟨pc, (found k).1, (found k).2, after⟩ :: rest)

namespace Section

/-- The copy a section disposes of. -/
def disposed (s : Section) : Option Message :=
  match s.pc with
  | .pushSpread (msg :: _) _ => some msg
  | .route ((msg, _) :: _) => some msg
  | _ => none

/-- A translation was handed to the uplink, which sends it or withholds it. -/
def Emits (s : Section) : Prop :=
  ∃ translated, s.after.uplinked = s.before.uplinked ++ [translated] ∨
    s.after.withheld = s.before.withheld ++ [translated]

/-- A regular shard has taken the message. -/
def Queues (s : Section) (msg : Message) : Prop :=
  ∃ id, s.before.shardManager.isRegularShard id = true ∧
    s.after.shardManager.channel id = s.before.shardManager.channel id ++ [msg]

/-- The spread shard has taken the message. -/
def Spreads (s : Section) (msg : Message) : Prop :=
  s.after.shardManager.channel s.before.shardManager.spreadShardId =
    s.before.shardManager.channel s.before.shardManager.spreadShardId ++ [msg]

/-- An error was counted. -/
def Errs (s : Section) : Prop := s.after.metrics.errors = s.before.metrics.errors + 1

/-- What a section disposes of is not lost without a trace. -/
def Accounts (s : Section) : Prop :=
  ∀ msg, s.disposed = some msg → s.Emits ∨ s.Queues msg ∨ s.Spreads msg ∨ s.Errs

/-- A push into the spread shard finds room there. -/
def FindsRoom (s : Section) : Prop :=
  match s.pc with
  | .pushSpread (_ :: _) _ => s.before.shardManager.SpreadRoom
  | _ => True

theorem accounts_pushSpread {env : Env} {g : Gateway} (msg : Message) (spread normal : List Message) :
    Accounts ⟨.pushSpread (msg :: spread) normal, env, g, { g.count .recordSpreadShard with
      shardManager := (g.shardManager.pushSpread msg).2 }⟩ ↔ g.shardManager.SpreadRoom := by
  rcases g.shardManager.pushSpread_cases msg with ⟨hroom, hchannel⟩ | ⟨hroom, hchannel⟩
  · refine iff_of_true ?_ hroom
    rintro _ ⟨⟩
    exact .inr (.inr (.inl hchannel))
  · refine iff_of_false (fun h => ?_) hroom
    -- nothing that is counted has grown
    rcases h msg rfl with ⟨t, ht | ht⟩ | ⟨id, -, hid⟩ | hspread | herr
    · have hlen := congrArg List.length ht
      simp [Gateway.count] at hlen
    · have hlen := congrArg List.length ht
      simp [Gateway.count] at hlen
    · have hlen := congrArg List.length hid
      simp [hchannel] at hlen
    · have hlen := congrArg List.length hspread
      simp [hchannel] at hlen
    · exact absurd herr (Nat.ne_of_lt (Nat.lt_succ_self _))

theorem accounts_hit {env : Env} {g : Gateway} (msg translated : Message)
    (routed : List (Message × Option Message)) :
    Accounts ⟨.route ((msg, some translated) :: routed), env, g,
      (g.count .recordCacheHit).sendToAsts env.uplink translated⟩ :=
  fun _ _ => .inl ⟨translated, ((g.count .recordCacheHit).callUplink_cases env.uplink
    [translated]).imp And.left And.right⟩

theorem accounts_miss {env : Env} {g g' : Gateway} {msg : Message}
    {routed : List (Message × Option Message)} {t : Task}
    (h : afterPush (g.count .recordCacheMiss) routed (g.shardManager.push msg) = some (t, g')) :
    Accounts ⟨.route ((msg, none) :: routed), env, g, g'⟩ := by
  rintro _ ⟨⟩
  rcases g.shardManager.push_cases msg with ⟨e, m', hpush⟩ | ⟨id, m', hpush, hregular, hchannel⟩
  · rw [hpush] at h
    obtain ⟨-, rfl⟩ := Prod.mk.inj (Option.some.inj h)
    exact .inr (.inr (.inr rfl))
  · rw [hpush] at h
    obtain ⟨-, rfl⟩ := Prod.mk.inj (Option.some.inj h)
    exact .inr (.inl ⟨id, hregular, hchannel⟩)

/-- A section accounts for its copy unless the copy is meant for a spread shard without room. -/
theorem accounts_iff {pc : Incoming} {env : Env} {g g' : Gateway} {t : Task}
    (h : processIncomingBatch env g pc = some (t, g')) :
    Accounts ⟨pc, env, g, g'⟩ ↔ FindsRoom ⟨pc, env, g, g'⟩ := by
  cases pc with
  | reconcile batch => exact iff_of_true (fun _ h => nomatch h) trivial
  | store reconciled => exact iff_of_true (fun _ h => nomatch h) trivial
  | partition reconciled => exact iff_of_true (fun _ h => nomatch h) trivial
  | lookup normal => exact iff_of_true (fun _ h => nomatch h) trivial
  | pushSpread spread normal =>
    cases spread with
    | nil => exact iff_of_true (fun _ h => nomatch h) trivial
    | cons msg spread =>
      obtain ⟨-, rfl⟩ := Prod.mk.inj (Option.some.inj h)
      exact accounts_pushSpread msg spread normal
  | route routed =>
    cases routed with
    | nil => exact iff_of_true (fun _ h => nomatch h) trivial
    | cons x routed =>
      obtain ⟨msg, _ | translated⟩ := x
      · exact iff_of_true (accounts_miss h) trivial
      · obtain ⟨-, rfl⟩ := Prod.mk.inj (Option.some.inj h)
        exact iff_of_true (accounts_hit msg translated routed) trivial

end Section

/-- What holds of every section that may come up holds of those of a call. -/
theorem Runs.forall_mem {found : Nat → Env × Gateway} {P : Section → Prop}
    (hP : ∀ k pc after t, processIncomingBatch (found k).1 (found k).2 pc = some (t, after) →
      P ⟨pc, (found k).1, (found k).2, after⟩)
    {k : Nat} {pc : Incoming} {sections : List Section} (h : Runs found k pc sections) :
    ∀ s ∈ sections, P s := by
  induction h with
  | last h => exact List.forall_mem_singleton.mpr (hP _ _ _ _ h)
  | next h _ ih => exact List.forall_mem_cons.mpr ⟨hP _ _ _ _ h, ih⟩

theorem Runs.accounts_iff {found : Nat → Env × Gateway} {k : Nat} {pc : Incoming}
    {sections : List Section} (h : Runs found k pc sections) :
    ∀ s ∈ sections, s.Accounts ↔ s.FindsRoom :=
  h.forall_mem fun _ _ _ _ => Section.accounts_iff

/-- While the spread shard has room, every section finds it. -/
theorem Runs.findsRoom {found : Nat → Env × Gateway} (hroom : ∀ k, (found k).2.shardManager.SpreadRoom)
    {k : Nat} {pc : Incoming} {sections : List Section} (h : Runs found k pc sections) :
    ∀ s ∈ sections, s.FindsRoom := by
  refine h.forall_mem fun k pc after _ _ => ?_
  rw [Section.FindsRoom]
  split
  · exact hroom k
  · trivial

/-- What the sections find determines the call. -/
theorem Runs.unique {found : Nat → Env × Gateway} {k : Nat} {pc : Incoming} {xs ys : List Section}
    (hx : Runs found k pc xs) (hy : Runs found k pc ys) : xs = ys := by
  induction hx generalizing ys with
  | last h =>
    cases hy with
    | last h' =>
      obtain ⟨-, rfl⟩ := Prod.mk.inj (Option.some.inj (h.symm.trans h'))
      rfl
    | next h' _ => cases h.symm.trans h'
  | next h _ ih =>
    cases hy with
    | last h' => cases h.symm.trans h'
    | next h' hrest =>
      obtain ⟨hpc, rfl⟩ := Prod.mk.inj (Option.some.inj (h.symm.trans h'))
      cases hpc
      rw [ih hrest]

/-! The call returns whatever its sections find, and disposes of every copy once.  The phases are
    followed from the last one back. -/

variable (found : Nat → Env × Gateway)

theorem exists_runs_route (routed : List (Message × Option Message)) :
    ∀ k, ∃ sections, Runs found k (.route routed) sections ∧
      sections.filterMap Section.disposed = routed.map Prod.fst := by
  induction routed with
  | nil => exact fun k => ⟨_, .last rfl, rfl⟩
  | cons x routed ih =>
    intro k
    obtain ⟨rest, hrest, hdisposed⟩ := ih (k + 1)
    -- whether the lookup was a hit, a push or a refused push, the loop goes on
    have hstep : ∃ g', processIncomingBatch (found k).1 (found k).2 (.route (x :: routed)) =
        some (.incoming (.route routed), g') := by
      obtain ⟨msg, _ | translated⟩ := x
      · rcases (found k).2.shardManager.push_cases msg with ⟨e, m', hpush⟩ | ⟨id, m', hpush, -⟩
        · exact ⟨_, by rw [processIncomingBatch, hpush, afterPush]⟩
        · exact ⟨_, by rw [processIncomingBatch, hpush, afterPush]⟩
      · exact ⟨_, rfl⟩
    obtain ⟨g', hstep⟩ := hstep
    refine ⟨_, .next hstep hrest, ?_⟩
    rw [List.filterMap_cons_some (f := Section.disposed) (b := x.1) rfl, hdisposed, List.map_cons]

theorem exists_runs_lookup (normal : List Message) (k : Nat) :
    ∃ sections, Runs found k (.lookup normal) sections ∧
      sections.filterMap Section.disposed = normal := by
  obtain ⟨rest, hrest, hdisposed⟩ := exists_runs_route found (normal.zip
    ((found k).2.cache.getBatch (found k).1.instant (normal.map fun m => (m.protocol, m.data)))) (k + 1)
  refine ⟨_, .next rfl hrest, ?_⟩
  rw [List.filterMap_cons_none rfl, hdisposed]
  refine List.map_fst_zip ?_
  rw [AsyncCache.getBatch, List.length_mapIdx, List.length_map]

theorem exists_runs_pushSpread (normal spread : List Message) :
    ∀ k, ∃ sections, Runs found k (.pushSpread spread normal) sections ∧
      sections.filterMap Section.disposed = spread ++ normal := by
  induction spread with
  | nil =>
    intro k
    have hstep : processIncomingBatch (found k).1 (found k).2 (.pushSpread [] normal) =
        some (if normal = [] then .idle else .incoming (.lookup normal), (found k).2) := rfl
    by_cases hnormal : normal = []
    · rw [if_pos hnormal] at hstep
      refine ⟨_, .last hstep, ?_⟩
      rw [hnormal]
      rfl
    · rw [if_neg hnormal] at hstep
      obtain ⟨rest, hrest, hdisposed⟩ := exists_runs_lookup found normal (k + 1)
      refine ⟨_, .next hstep hrest, ?_⟩
      rw [List.filterMap_cons_none rfl, hdisposed, List.nil_append]
  | cons msg spread ih =>
    intro k
    obtain ⟨rest, hrest, hdisposed⟩ := ih (k + 1)
    refine ⟨_, .next rfl hrest, ?_⟩
    rw [List.filterMap_cons_some (f := Section.disposed) (b := msg) rfl, hdisposed, List.cons_append]

/-- The messages of the batch as the first section corrects them. -/
def reconciledBy (batch : List Message) : List Message :=
  batch.mapIdx fun i msg => (found 0).2.clockReconciler.correct ((found 0).1.nowMs i) msg

/-- The messages with their copies, as the third section makes them. -/
def sharesBy (batch : List Message) : List (Message × List Message) :=
  shares (found 2).1.instant 0 (found 2).2.ewmaState (found 2).2.cadenceTranslator
    (reconciledBy found batch)

/-- **No silent loss but one.**  Whatever the sections of a call find, the call returns; each message of
    the batch has its copies, and each copy is disposed of in one section.  All of them are emitted,
    queued, spread or counted as an error exactly if every push into the spread shard finds room. -/
theorem incoming_accounts_iff (batch : List Message) :
    (∃ sections, Runs found 0 (.reconcile batch) sections) ∧
    ∀ sections, Runs found 0 (.reconcile batch) sections →
      (sharesBy found batch).map Prod.fst = reconciledBy found batch ∧
      (sections.filterMap Section.disposed).Perm ((sharesBy found batch).flatMap Prod.snd) ∧
      ((∀ s ∈ sections, s.Accounts) ↔ ∀ s ∈ sections, s.FindsRoom) := by
  let p := (found 2).2.partition (found 2).1.instant (reconciledBy found batch)
  obtain ⟨rest, hrest, hdisposed⟩ := exists_runs_pushSpread found p.normal p.spread 3
  have hruns : Runs found 0 (.reconcile batch) _ := .next rfl (.next rfl (.next rfl hrest))
  refine ⟨⟨_, hruns⟩, fun sections h => ?_⟩
  refine ⟨map_fst_shares _ _ _ _ _, ?_, forall₂_congr h.accounts_iff⟩
  rw [← hruns.unique h, List.filterMap_cons_none rfl, List.filterMap_cons_none rfl,
    List.filterMap_cons_none rfl, hdisposed]
  exact partition_perm _ _ _

/-- A reading that was `x` milliseconds under way. -/
def delayed (x : UInt64) : Message := .newWithTemporal .nidd [1] .operational 0 x

/-- In a new gateway nothing is lost. -/
theorem incoming_accounts_iff_new :
    let found := fun _ : Nat => ((⟨fun _ => 0, fun _ => 0, .ok, true⟩ : Env), Gateway.new 60000000000 false 0)
    ∃ sections, Runs found 0 (.reconcile [delayed 1000, delayed 20000]) sections ∧
      ∀ s ∈ sections, s.Accounts := by
  intro found
  have hroom : ∀ k, (found k).2.shardManager.SpreadRoom := fun _ => ⟨⟨1000, 0, false⟩, rfl, rfl⟩
  have haccounts := incoming_accounts_iff found [delayed 1000, delayed 20000]
  obtain ⟨sections, hruns⟩ := haccounts.1
  exact ⟨sections, hruns, (haccounts.2 sections hruns).2.2.mpr (hruns.findsRoom hroom)⟩

/-! ## A burst that outruns the drainer -/

/-- A gateway with a second of delay on record and 1000 messages of a burst in the spread shard; one
    more message of the burst waits in the batcher. -/
def burstArrived : Sys 1 where
  gateway :=
    let g := Gateway.new 60000000000 true 0
    { g with
      ewmaState := (g.ewmaState.route (delayed 1000)).2
      shardManager := { g.shardManager with
        channel := Function.update g.shardManager.channel 8 (List.replicate 1000 (delayed 20000)) }
      batcher := [delayed 20000] }
  task _ := .idle

/-- **The next message of the burst is gone.**  Its call has returned; nothing came to the uplink, no
    error was counted, and the shards hold what they held. -/
theorem burst_message_lost :
    (Trace.run (step Translator.frameLibs) burstArrived (.takeBatch (.last 0) 1 ::
      List.replicate 5 (.advance (.last 0) ⟨fun _ => 0, fun _ => 0, .ok, true⟩))).map (fun s =>
        (s.task 0, s.gateway.batcher, s.gateway.uplinked ++ s.gateway.withheld, s.gateway.metrics.errors,
          (List.range 9).map fun id => (s.gateway.shardManager.channel id).length)) =
      some (.idle, [], [], 0, [0, 0, 0, 0, 0, 0, 0, 0, 1000]) := by
  decide +kernel

end Gateway

end FloatProtocols
