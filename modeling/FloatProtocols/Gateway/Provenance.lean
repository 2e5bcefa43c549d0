/-
  What can be where in the gateway.

  Fix what messages may enter and what the audit store may make of them (`Places`), and let
  `translated` hold of whatever the stored ones translate to.  Then in every state that a run can reach,
  the deadzone shard holds stored alarms only, the intake queue readings, the other shards stored
  readings, and the cache, the transmission queue and the uplink translations (`Stocked`); the same goes
  for what tasks have in hand (`Carries`).

  1. **Provenance** — with "was sent": whatever goes out is the translation of a message that came in,
     and an emergency never waits in a shard that the readings use.

  2. **Audit** — with "was stored": every message is in the audit store before any shard or the uplink
     sees anything of it, and the store holds the last ten thousand.
-/
import FloatProtocols.Gateway.Flow

namespace FloatProtocols

open Wire

namespace Gateway

open Translator Sharding

variable {n : Nat} {libs : Libs}

/-! ## The invariant -/

/-- What messages may be: emergencies and all others, before and behind the audit store, and
    a stored one with its translation. -/
structure Places where
  alarm : Message → Prop
  reading : Message → Prop
  storedAlarm : Message → Prop
  storedReading : Message → Prop
  translation : Message → Message → Prop

/-- A translation of something. -/
def Places.translated (P : Places) (t : Message) : Prop := ∃ o, P.translation o t

variable {P : Places}

/-- What a shard may hold. -/
def InShard (P : Places) (id : Nat) (msg : Message) : Prop :=
  if id = 0 then P.storedAlarm msg else P.storedReading msg

/-- What the components hold. -/
structure Stocked (P : Places) (g : Gateway) : Prop where
  cache : g.cache.Holds fun _ t => P.translated t
  batcher : ∀ m ∈ g.batcher, P.reading m
  shards : ∀ id, ∀ m ∈ g.shardManager.channel id, InShard P id m
  transmission : ∀ t ∈ g.transmission, P.translated t
  uplink : ∀ t ∈ g.uplinked ++ g.withheld, P.translated t

/-- What a task has in hand. -/
def Carries (P : Places) : Task → Prop
  | .idle => True
  | .emergency (.reconcile msg) | .emergency (.store msg) => P.alarm msg
  | .emergency (.push msg) | .emergency (.snapshot msg) | .emergency (.translate msg) =>
    P.storedAlarm msg
  | .emergency (.emit translated) => P.translated translated
  | .incoming (.reconcile msgs) | .incoming (.store msgs) => ∀ m ∈ msgs, P.reading m
  | .incoming (.partition msgs) | .incoming (.lookup msgs) => ∀ m ∈ msgs, P.storedReading m
  | .incoming (.pushSpread spread normal) =>
    (∀ m ∈ spread, P.storedReading m) ∧ ∀ m ∈ normal, P.storedReading m
  | .incoming (.route routed) =>
    ∀ x ∈ routed, P.storedReading x.1 ∧ ∀ t, x.2 = some t → P.translated t
  | .translated (.gather _ batch) | .translated (.collect batch) => ∀ m ∈ batch, P.storedReading m
  | .translated (.translate todo pairs _) =>
    (∀ m ∈ todo, P.storedReading m) ∧ ∀ x ∈ pairs, P.translation x.1 x.2
  | .translated (.cacheAll pairs _) | .translated (.snapshotAll pairs _) =>
    ∀ x ∈ pairs, P.translation x.1 x.2
  | .translated (.enqueue translated _) => ∀ t ∈ translated, P.translated t

/-- The messages that a section puts into the audit store. -/
def storedBy : Task → List Message
  | .emergency (.store msg) => [msg]
  | .incoming (.store reconciled) => reconciled
  | _ => []

/-- What a section puts into the cache, with what it translates. -/
def cachedBy (libs : Libs) (env : Env) : Task → List (Message × Message)
  | .emergency (.translate msg) =>
    ((translateSync libs (env.nowMs 0) msg).toOption.map (Prod.mk msg)).toList
  | .translated (.cacheAll pairs _) => pairs
  | _ => []

/-- The audit store makes stored messages of these. -/
def Passes (P : Places) (msgs : List Message) : Prop :=
  ∀ m ∈ msgs, (P.alarm m → P.storedAlarm m) ∧ (P.reading m → P.storedReading m)

/-- Counters, clocks, stores and trackers are not among the components that hold messages. -/
theorem Stocked.congr {g g' : Gateway} (hg : Stocked P g) (hcache : g'.cache = g.cache)
    (hview : (g'.batcher, g'.shardManager.channel, g'.transmission, g'.uplinked, g'.withheld) =
      (g.batcher, g.shardManager.channel, g.transmission, g.uplinked, g.withheld)) : Stocked P g' := by
  simp only [Prod.mk.injEq] at hview
  obtain ⟨hbatcher, hchannel, htransmission, huplinked, hwithheld⟩ := hview
  exact ⟨hcache ▸ hg.cache, hbatcher ▸ hg.batcher, hchannel ▸ hg.shards,
    htransmission ▸ hg.transmission, huplinked ▸ hwithheld ▸ hg.uplink⟩

theorem Stocked.callUplink {g : Gateway} (hg : Stocked P g) (uplink : Uplink) {messages : List Message}
    (hmessages : ∀ t ∈ messages, P.translated t) : Stocked P (g.callUplink uplink messages) := by
  have huplink : ∀ t ∈ (g.callUplink uplink messages).uplinked ++
      (g.callUplink uplink messages).withheld, P.translated t := by
    obtain ⟨huplinked, hwithheld⟩ := List.forall_mem_append.mp hg.uplink
    rcases g.callUplink_cases uplink messages with ⟨hout, hkept⟩ | ⟨hout, hkept⟩ <;>
      simp only [hout, hkept, List.forall_mem_append] <;> tauto
  obtain ⟨_, _, _, hframe⟩ := g.callUplink_frame uplink messages
  rw [hframe] at huplink ⊢
  exact { hg with uplink := huplink }

theorem Stocked.sendToAsts {g : Gateway} (hg : Stocked P g) (uplink : Uplink) {t : Message}
    (ht : P.translated t) : Stocked P (g.sendToAsts uplink t) :=
  hg.callUplink uplink (List.forall_mem_singleton.mpr ht)

/-- The messages a push may put into a shard. -/
def Suits (P : Places) : Push → Prop
  | .deadzone msg => P.storedAlarm msg
  | .regular msg => P.storedReading msg
  | .spread msg => P.storedReading msg

theorem Suits.inShard {p : Push} {id : Nat} (hp : Suits P p) (hfits : Fits p id) :
    InShard P id p.message := by
  cases p with
  | regular msg => exact (if_neg (Nat.ne_of_gt hfits.1)).mpr hp
  | spread msg =>
    cases hfits
    exact hp
  | deadzone msg =>
    cases hfits
    exact hp

/-- A push puts its message into a shard of its kind. -/
theorem Stocked.perform {g : Gateway} (hg : Stocked P g) (hconfig : g.Configured) {p : Push}
    (hp : Suits P p) :
    Stocked P { g with shardManager := (g.shardManager.perform p).2 } := by
  rcases g.shardManager.perform_outcome p with ⟨-, hchannel, -⟩ | ⟨-, hok, hchannel, -⟩
  · exact hg.congr rfl (by rw [hchannel])
  · have hdest := toOption_perform hconfig p
    rw [hok] at hdest
    have hmsg := hp.inShard (fits_of_dest hdest)
    refine { hg with shards := ?_ }
    show ∀ id, ∀ m ∈ (g.shardManager.perform p).2.channel id, InShard P id m
    rw [hchannel]
    exact Trace.forall_update (P := fun id q => ∀ m ∈ q, InShard P id m)
      (List.forall_mem_append.mpr ⟨hg.shards _, List.forall_mem_singleton.mpr hmsg⟩) hg.shards

/-! ## One section -/

section

variable (hP : ∀ m now t, P.storedAlarm m ∨ P.storedReading m → translateSync libs now m = .ok t →
  P.translation m t)
variable {env : Env} {g g' : Gateway} {task' : Task}

include hP in
theorem processEmergency_stocked (hconfig : g.Configured) (hg : Stocked P g) {pc : Emergency}
    (hpc : Carries P (.emergency pc)) (hstored : Passes P (storedBy (.emergency pc)))
    (h : processEmergency libs env g pc = some (task', g')) :
    Stocked P g' ∧ Carries P task' := by
  cases pc with
  | reconcile msg =>
    cases h
    refine ⟨hg, ?_⟩
    rw [hconfig.correct]
    exact hpc
  | store msg =>
    cases h
    exact ⟨hg.congr rfl rfl, (hstored msg List.mem_cons_self).1 hpc⟩
  | push msg =>
    cases h
    have hcounted : Stocked P (g.count (·.recordProtocol msg.protocol)) := hg.congr rfl rfl
    exact ⟨hcounted.perform (hconfig.of_config_eq rfl) (p := .deadzone msg) hpc, hpc⟩
  | snapshot msg =>
    cases h
    exact ⟨hg.congr rfl rfl, hpc⟩
  | translate msg =>
    rw [processEmergency] at h
    split at h
    · rename_i translated hok
      cases h
      have ht := hP msg _ translated (.inl hpc) hok
      exact ⟨{ hg with cache := hg.cache.set ⟨msg, ht⟩ _ }, ⟨msg, ht⟩⟩
    · cases h
      exact ⟨hg.congr rfl rfl, trivial⟩
    · cases h
  | emit translated =>
    cases h
    exact ⟨hg.sendToAsts _ hpc, trivial⟩

theorem afterPush_stocked {routed : List (Message × Option Message)}
    {result : Exec ShardError Nat × Manager} (h : afterPush g routed result = some (task', g'))
    (hg : Stocked P { g with shardManager := result.2 })
    (hrest : Carries P (.incoming (.route routed))) :
    Stocked P g' ∧ Carries P task' := by
  rcases result with ⟨_ | _ | _, m'⟩
  · cases h
    exact ⟨hg, hrest⟩
  · cases h
    exact ⟨hg.congr rfl rfl, hrest⟩
  · cases h

theorem processIncomingBatch_stocked (hconfig : g.Configured) (hg : Stocked P g) {pc : Incoming}
    (hpc : Carries P (.incoming pc)) (hstored : Passes P (storedBy (.incoming pc)))
    (h : processIncomingBatch env g pc = some (task', g')) :
    Stocked P g' ∧ Carries P task' := by
  cases pc with
  | reconcile batch =>
    cases h
    refine ⟨List.foldlRecOn batch _ hg fun g hg msg _ => hg.congr rfl rfl, fun m hm => ?_⟩
    obtain ⟨i, hi, rfl⟩ := List.mem_mapIdx.mp hm
    rw [hconfig.correct]
    exact hpc _ (List.getElem_mem hi)
  | store reconciled =>
    cases h
    exact ⟨hg.congr rfl rfl, fun m hm => (hstored m hm).2 (hpc m hm)⟩
  | partition reconciled =>
    cases h
    exact ⟨hg.congr rfl rfl, fun m hm => hpc m (mem_partition (.inl hm)),
      fun m hm => hpc m (mem_partition (.inr hm))⟩
  | pushSpread spread normal =>
    cases spread with
    | nil =>
      cases h
      refine ⟨hg, ?_⟩
      split
      · trivial
      · exact hpc.2
    | cons msg spread =>
      cases h
      obtain ⟨hmsg, hspread⟩ := List.forall_mem_cons.mp hpc.1
      have hcounted : Stocked P (g.count .recordSpreadShard) := hg.congr rfl rfl
      exact ⟨hcounted.perform (hconfig.of_config_eq rfl) (p := .spread msg) hmsg, hspread, hpc.2⟩
  | lookup normal =>
    cases h
    refine ⟨hg, fun x hx => ⟨hpc x.1 (List.of_mem_zip hx).1, fun t ht => ?_⟩⟩
    obtain ⟨m, found⟩ := x
    cases ht
    exact hg.cache.getBatch hx
  | route routed =>
    rcases routed with _ | ⟨⟨msg, _ | t⟩, routed⟩
    · cases h
      exact ⟨hg, trivial⟩
    · obtain ⟨hmsg, hrouted⟩ := List.forall_mem_cons.mp hpc
      have hcounted : Stocked P (g.count .recordCacheMiss) := hg.congr rfl rfl
      exact afterPush_stocked h
        (hcounted.perform (hconfig.of_config_eq rfl) (p := .regular msg) hmsg.1) hrouted
    · cases h
      obtain ⟨hmsg, hrouted⟩ := List.forall_mem_cons.mp hpc
      have hcounted : Stocked P (g.count .recordCacheHit) := hg.congr rfl rfl
      exact ⟨hcounted.sendToAsts _ (hmsg.2 t rfl), hrouted⟩

/-- A receive leaves the rest of the shard. -/
theorem Stocked.receive (hg : Stocked P g) {id : Nat} (hid : 1 ≤ id) {msg : Message}
    {rest : List Message} (hq : g.shardManager.channel id = msg :: rest) :
    Stocked P { g with shardManager := { g.shardManager with
      channel := Function.update g.shardManager.channel id rest } } ∧ P.storedReading msg := by
  have hall := hg.shards id
  rw [hq] at hall
  obtain ⟨hmsg, hrest⟩ := List.forall_mem_cons.mp hall
  refine ⟨{ hg with shards := ?_ }, (if_neg (Nat.ne_of_gt hid)).mp hmsg⟩
  exact Trace.forall_update (P := fun id q => ∀ m ∈ q, InShard P id m) hrest hg.shards

theorem gather_stocked (hg : Stocked P g) {id : Nat} {batch : List Message} (hid : 1 ≤ id)
    (hbatch : ∀ m ∈ batch, P.storedReading m) (h : gather g id batch = some (task', g')) :
    Stocked P g' ∧ Carries P task' := by
  rw [gather] at h
  split at h
  · rcases hq : g.shardManager.channel id with _ | ⟨msg, rest⟩
    · rw [hq] at h
      dsimp only at h
      split at h
      · cases h
      · cases h
        exact ⟨hg, hbatch, List.forall_mem_nil _⟩
    · rw [hq] at h
      cases h
      obtain ⟨hleft, hmsg⟩ := hg.receive hid hq
      exact ⟨hleft, List.forall_mem_append.mpr ⟨hbatch, List.forall_mem_singleton.mpr hmsg⟩⟩
  · cases h
    exact ⟨hg, hbatch, List.forall_mem_nil _⟩

theorem collect_stocked (hconfig : g.Configured) (hg : Stocked P g) {messages : List Message}
    (hmessages : ∀ m ∈ messages, P.storedReading m) (h : collect g messages = some (task', g')) :
    Stocked P g' ∧ Carries P task' := by
  rw [collect, hconfig.spreadShardId] at h
  rcases hq : g.shardManager.channel 8 with _ | ⟨msg, rest⟩
  · rw [hq] at h
    cases h
    refine ⟨hg, ?_⟩
    split
    · trivial
    · exact ⟨hmessages, List.forall_mem_nil _⟩
  · rw [hq] at h
    cases h
    obtain ⟨hleft, hmsg⟩ := hg.receive (by decide) hq
    exact ⟨hleft, List.forall_mem_append.mpr ⟨hmessages, List.forall_mem_singleton.mpr hmsg⟩⟩

include hP in
theorem processTranslatedBatch_stocked (hconfig : g.Configured) (hg : Stocked P g) {pc : Translated}
    (hposted : Posted (.translated pc)) (hpc : Carries P (.translated pc))
    (h : processTranslatedBatch libs env g pc = some (task', g')) :
    Stocked P g' ∧ Carries P task' := by
  cases pc with
  | gather id batch => exact gather_stocked hg hposted.1 hpc h
  | collect messages => exact collect_stocked hconfig hg hpc h
  | translate todo pairs drain =>
    cases todo with
    | nil =>
      cases h
      refine ⟨hg, ?_⟩
      split
      · trivial
      · exact hpc.2
    | cons msg todo =>
      obtain ⟨hmsg, htodo⟩ := List.forall_mem_cons.mp hpc.1
      rw [processTranslatedBatch] at h
      split at h
      · rename_i translated hok
        cases h
        exact ⟨hg, htodo, List.forall_mem_append.mpr ⟨hpc.2, List.forall_mem_singleton.mpr
          (hP msg _ translated (.inr hmsg) hok)⟩⟩
      · cases h
        exact ⟨hg.congr rfl rfl, htodo, hpc.2⟩
      · cases h
  | cacheAll pairs drain =>
    cases h
    refine ⟨{ hg with cache := hg.cache.setBatch fun x hx => ?_ }, hpc⟩
    obtain ⟨y, hy, rfl⟩ := List.mem_map.mp hx
    exact ⟨y.1, hpc y hy⟩
  | snapshotAll pairs drain =>
    cases h
    refine ⟨hg.congr rfl rfl, fun t ht => ?_⟩
    obtain ⟨y, hy, rfl⟩ := List.mem_map.mp ht
    exact ⟨y.1, hpc y hy⟩
  | enqueue translated drain =>
    cases translated with
    | nil =>
      cases h
      exact ⟨hg, trivial⟩
    | cons t rest =>
      obtain ⟨ht, hrest⟩ := List.forall_mem_cons.mp hpc
      rw [processTranslatedBatch] at h
      split at h
      · cases h
        have hqueued : Stocked P { g with transmission := g.transmission ++ [t] } :=
          { hg with transmission :=
              List.forall_mem_append.mpr ⟨hg.transmission, List.forall_mem_singleton.mpr ht⟩ }
        refine ⟨?_, hrest⟩
        cases drain <;> exact hqueued.congr rfl rfl
      · cases h
        exact ⟨hg.congr rfl rfl, hrest⟩

include hP in
/-- **One section keeps everything in its place.** -/
theorem advance_stocked (hconfig : g.Configured) (hg : Stocked P g) {task : Task}
    (hposted : Posted task) (htask : Carries P task) (hstored : Passes P (storedBy task))
    (h : advance libs env g task = some (task', g')) :
    Stocked P g' ∧ Carries P task' := by
  cases task with
  | idle => cases h
  | emergency pc => exact processEmergency_stocked hP hconfig hg htask hstored h
  | incoming pc => exact processIncomingBatch_stocked hconfig hg htask hstored h
  | translated pc => exact processTranslatedBatch_stocked hP hconfig hg hposted htask h

end

/-! ## Whole runs -/

/-- Everything is in its place. -/
structure InPlace (P : Places) (s : Sys n) : Prop where
  sound : Sound s
  gateway : Stocked P s.gateway
  task : ∀ i, Carries P (s.task i)

/-- The messages that a step puts into the audit store. -/
def stored (s : Sys n) : Act n → List Message
  | .advance i _ => storedBy (s.task i)
  | _ => []

/-- What a step puts into the cache, with what it translates. -/
def cached (libs : Libs) (s : Sys n) : Act n → List (Message × Message)
  | .advance i env => cachedBy libs env (s.task i)
  | _ => []

/-- What enters is an alarm or a reading, and what is stored passes. -/
def Admits (P : Places) (s : Sys n) (a : Act n) : Prop :=
  Passes P (stored s a) ∧
  match a with
  | .send _ msg => if msg.isEmergency then P.alarm msg else P.reading msg
  | _ => True

theorem InPlace.start {s s' : Sys n} (hs : InPlace P s) (hsound : Sound s') {i : Fin n}
    {g : Gateway} {t : Task} (h : s.start i g t = some s') (hg : Stocked P g)
    (ht : Carries P t) : InPlace P s' := by
  obtain ⟨-, rfl⟩ := start_eq_some.mp h
  exact ⟨hsound, hg, Trace.forall_update (P := fun _ t => Carries P t) ht hs.task⟩

theorem InPlace.step (hP : ∀ m now t, P.storedAlarm m ∨ P.storedReading m →
      translateSync libs now m = .ok t → P.translation m t) {s s' : Sys n} {a : Act n} (ha : Admits P s a)
    (h : Gateway.step libs s a = some s') (hs : InPlace P s) :
    InPlace P s' := by
  have hsound := (hs.sound.step h).1
  have hg := hs.gateway
  cases a with
  | send i msg =>
    rw [Gateway.step] at h
    split at h
    · rename_i hemergency
      exact hs.start hsound h (hg.congr rfl rfl) ((if_pos hemergency).mp ha.2)
    · rename_i hordinary
      cases h
      have hmsg : P.reading msg := (if_neg hordinary).mp ha.2
      have hreceived : Stocked P { s.gateway with batcher := s.gateway.batcher ++ [msg] } :=
        { hg with batcher :=
            List.forall_mem_append.mpr ⟨hg.batcher, List.forall_mem_singleton.mpr hmsg⟩ }
      exact ⟨hsound, hreceived.congr rfl rfl, hs.task⟩
  | takeBatch i size =>
    rw [Gateway.step] at h
    split at h
    · refine hs.start hsound h { hg with batcher := fun m hm => ?_ } fun m hm => ?_
      · exact hg.batcher m (List.mem_of_mem_drop hm)
      · exact hg.batcher m (List.mem_of_mem_take hm)
    · cases h
  | startWorker i id =>
    rw [Gateway.step] at h
    split at h
    · exact hs.start hsound h hg (List.forall_mem_nil _)
    · cases h
  | drainSpread i =>
    rw [step_drainSpread hs.sound.configured] at h
    exact hs.start hsound h hg (List.forall_mem_nil _)
  | advance i env =>
    obtain ⟨⟨t, g⟩, hadvance, rfl⟩ := Option.map_eq_some_iff.mp h
    obtain ⟨hg', ht⟩ := advance_stocked hP hs.sound.configured hg (hs.sound.posted i) (hs.task i)
      ha.1 hadvance
    exact ⟨hsound, hg', Trace.forall_update (P := fun _ t => Carries P t) ht hs.task⟩
  | transmit size uplink =>
    rw [Gateway.step] at h
    split at h
    · cases h
      have hcounted : Stocked P (s.gateway.count
          (·.recordTransmissionBatch (s.gateway.transmission.take size).length)) := hg.congr rfl rfl
      have hbatch : ∀ t ∈ s.gateway.transmission.take size, P.translated t :=
        fun t ht => hg.transmission t (List.mem_of_mem_take ht)
      exact ⟨hsound, { hcounted.callUplink uplink hbatch with
        transmission := fun t ht => hg.transmission t (List.mem_of_mem_drop ht) }, hs.task⟩
    · cases h

theorem inPlace_init (n cacheTtl : Nat) (hasCredentials : Bool) (now : Nat) :
    InPlace P (Sys.init n cacheTtl hasCredentials now) where
  sound := sound_init n cacheTtl hasCredentials now
  gateway := ⟨AsyncCache.holds_new _ _, List.forall_mem_nil _, fun _ => List.forall_mem_nil _,
    List.forall_mem_nil _, List.forall_mem_nil _⟩
  task _ := trivial

/-- A message that was sent in a run. -/
def Sent (as : List (Act n)) (m : Message) : Prop := ∃ i, .send i m ∈ as

section

variable {cacheTtl now : Nat} {hasCredentials : Bool} {as : List (Act n)} {t : Sys n}

/-- All that a run puts into the audit store, in order. -/
def trail (libs : Libs) (n cacheTtl : Nat) (hasCredentials : Bool) (now : Nat) (as : List (Act n)) :
    List Message :=
  Trace.collect (step libs) stored (Sys.init n cacheTtl hasCredentials now) as

/-- What is sent, what of it is in `l`, and what that translates to. -/
def placesOf (libs : Libs) (as : List (Act n)) (l : List Message) : Places where
  alarm m := Sent as m ∧ m.isEmergency = true
  reading m := Sent as m ∧ m.isEmergency = false
  storedAlarm m := (Sent as m ∧ m ∈ l) ∧ m.isEmergency = true
  storedReading m := (Sent as m ∧ m ∈ l) ∧ m.isEmergency = false
  translation m t := (Sent as m ∧ m ∈ l) ∧ ∃ now, translateSync libs now m = .ok t

theorem translation_placesOf {l : List Message} {m t : Message} {now : UInt64}
    (hm : (placesOf libs as l).storedAlarm m ∨ (placesOf libs as l).storedReading m)
    (ht : translateSync libs now m = .ok t) : (placesOf libs as l).translation m t := by
  rcases hm with hm | hm
  · exact ⟨hm.1, now, ht⟩
  · exact ⟨hm.1, now, ht⟩

theorem InPlace.step_of_mem {s s' : Sys n} {a : Act n} {l : List Message} (ha : a ∈ as)
    (hl : stored s a ⊆ l) (h : Gateway.step libs s a = some s') (hs : InPlace (placesOf libs as l) s) :
    InPlace (placesOf libs as l) s' := by
  refine hs.step (fun _ _ _ => translation_placesOf) ⟨fun m hm => ⟨?_, ?_⟩, ?_⟩ h
  · exact fun halarm => ⟨⟨halarm.1, hl hm⟩, halarm.2⟩
  · exact fun hreading => ⟨⟨hreading.1, hl hm⟩, hreading.2⟩
  · cases a with
    | send i msg =>
      show if msg.isEmergency = true then _ else _
      cases hemergency : msg.isEmergency
      · exact ⟨⟨i, ha⟩, hemergency⟩
      · exact ⟨⟨i, ha⟩, hemergency⟩
    | _ => trivial

/-- **What is where**, after a run and all along it. -/
theorem inPlace_of_run
    (hrun : Trace.run (step libs) (Sys.init n cacheTtl hasCredentials now) as = some t) :
    let P := placesOf libs as (trail libs n cacheTtl hasCredentials now as)
    Trace.Along (step libs) (fun s _ => InPlace P s) (Sys.init n cacheTtl hasCredentials now) as ∧
      InPlace P t := by
  intro P
  have hall := Trace.along_collect (step libs) stored as
    (Sys.init n cacheTtl hasCredentials now) (List.Subset.refl as) (List.Subset.refl _)
  have hinit : InPlace P (Sys.init n cacheTtl hasCredentials now) :=
    inPlace_init n cacheTtl hasCredentials now
  refine ⟨?_, ?_⟩
  · exact Trace.Along.of_invariant (fun s a t ha h hs => hs.step_of_mem ha.1 ha.2 h)
      (fun _ _ hs => hs) as _ hall hinit
  · exact Trace.Along.invariant (fun s a t ha h hs => hs.step_of_mem ha.1 ha.2 h) as _ t hall hrun hinit

/-- The translation of a message that was sent. -/
def Translates (libs : Libs) (as : List (Act n)) (t : Message) : Prop :=
  ∃ m now, Sent as m ∧ translateSync libs now m = .ok t

/-- **Provenance.**  After every run, whatever went out to ASTS, was withheld or waits is the translation
    of a message that was sent; the shards hold messages that were sent, and emergencies are in the
    deadzone shard and only there. -/
theorem uplinked_translates_sent
    (hrun : Trace.run (step libs) (Sys.init n cacheTtl hasCredentials now) as = some t) :
    (∀ out ∈ t.gateway.uplinked ++ t.gateway.withheld ++ t.gateway.transmission, Translates libs as out) ∧
    (∀ m ∈ t.gateway.batcher, Sent as m ∧ m.isEmergency = false) ∧
    ∀ id, ∀ m ∈ t.gateway.shardManager.channel id, Sent as m ∧ (m.isEmergency = true ↔ id = 0) := by
  have hplace := (inPlace_of_run hrun).2
  refine ⟨fun out hout => ?_, hplace.gateway.batcher, fun id m hm => ?_⟩
  · obtain ⟨m, hm, now, ht⟩ := List.forall_mem_append.mpr
      ⟨hplace.gateway.uplink, hplace.gateway.transmission⟩ out hout
    exact ⟨m, now, hm.1, ht⟩
  · have hshard := hplace.gateway.shards id m hm
    by_cases hid : id = 0
    · obtain ⟨hsent, hemergency⟩ := (if_pos hid).mp hshard
      exact ⟨hsent.1, iff_of_true hemergency hid⟩
    · obtain ⟨hsent, hordinary⟩ := (if_neg hid).mp hshard
      exact ⟨hsent.1, iff_of_false (Bool.eq_false_iff.mp hordinary) hid⟩

/-- What went out for one reading. -/
theorem uplinked_translates_sent_reading :
    ∃ t, Trace.run (step frameLibs) (Sys.init 1 60000000000 true 0) oneReading = some t ∧
      ∀ out ∈ t.gateway.uplinked ++ t.gateway.withheld ++ t.gateway.transmission,
        Translates frameLibs oneReading out := by
  obtain ⟨t, ht⟩ := Option.isSome_iff_exists.mp oneReading_runs
  exact ⟨t, ht, (uplinked_translates_sent ht).1⟩

/-! ## The audit store and the cache -/

theorem stores_callUplink (g : Gateway) (uplink : Uplink) (messages : List Message) :
    (g.callUplink uplink messages).bitemporalStore = g.bitemporalStore ∧
    (g.callUplink uplink messages).cache = g.cache := by
  obtain ⟨_, _, _, hframe⟩ := g.callUplink_frame uplink messages
  rw [hframe]
  exact ⟨rfl, rfl⟩

/-- The calls of the cache, in one form: `set` is a `setBatch` of one. -/
def putAll (c : AsyncCache) (now : Nat → Nat) (pairs : List (Message × Message)) : AsyncCache :=
  c.setBatch now (pairs.map fun x => (x.1.protocol, x.1.data, x.2))

section

variable {env : Env} {g g' : Gateway} {task' : Task}

theorem processEmergency_stores {pc : Emergency} (h : processEmergency libs env g pc = some (task', g')) :
    g'.bitemporalStore = (storedBy (.emergency pc)).foldl .store g.bitemporalStore ∧
    g'.cache = putAll g.cache env.instant (cachedBy libs env (.emergency pc)) := by
  cases pc with
  | translate msg =>
    rw [processEmergency] at h
    rw [cachedBy]
    split at h
    · rename_i translated hok
      cases h
      rw [hok]
      exact ⟨rfl, rfl⟩
    · rename_i e herr
      cases h
      rw [herr]
      exact ⟨rfl, rfl⟩
    · cases h
  | emit translated =>
    cases h
    exact stores_callUplink g env.uplink [translated]
  | _ =>
    cases h
    exact ⟨rfl, rfl⟩

theorem afterPush_stores {routed : List (Message × Option Message)}
    {result : Exec ShardError Nat × Manager} (h : afterPush g routed result = some (task', g')) :
    g'.bitemporalStore = g.bitemporalStore ∧ g'.cache = g.cache := by
  rcases result with ⟨_ | _ | _, m'⟩
  · cases h
    exact ⟨rfl, rfl⟩
  · cases h
    exact ⟨rfl, rfl⟩
  · cases h

theorem processIncomingBatch_stores {pc : Incoming}
    (h : processIncomingBatch env g pc = some (task', g')) :
    g'.bitemporalStore = (storedBy (.incoming pc)).foldl .store g.bitemporalStore ∧
    g'.cache = g.cache := by
  cases pc with
  | reconcile batch =>
    cases h
    exact List.foldlRecOn (motive := fun x : Gateway => x.bitemporalStore = g.bitemporalStore ∧
      x.cache = g.cache) batch _ ⟨rfl, rfl⟩ fun x hx msg _ => hx
  | pushSpread spread normal =>
    cases spread with
    | nil =>
      cases h
      exact ⟨rfl, rfl⟩
    | cons msg spread =>
      cases h
      exact ⟨rfl, rfl⟩
  | route routed =>
    rcases routed with _ | ⟨⟨msg, _ | translated⟩, routed⟩
    · cases h
      exact ⟨rfl, rfl⟩
    · exact afterPush_stores (g := g.count .recordCacheMiss) h
    · cases h
      exact stores_callUplink _ env.uplink [translated]
  | _ =>
    cases h
    exact ⟨rfl, rfl⟩

/-- A receive is not about the stores, whether it finds a message or not. -/
theorem gather_stores {id : Nat} {batch : List Message} (h : gather g id batch = some (task', g')) :
    g'.bitemporalStore = g.bitemporalStore ∧ g'.cache = g.cache := by
  rw [gather] at h
  split at h
  · split at h
    · cases h
      exact ⟨rfl, rfl⟩
    · rw [Option.ite_none_left_eq_some] at h
      obtain ⟨-, h⟩ := h
      cases h
      exact ⟨rfl, rfl⟩
  · cases h
    exact ⟨rfl, rfl⟩

theorem collect_stores {messages : List Message} (h : collect g messages = some (task', g')) :
    g'.bitemporalStore = g.bitemporalStore ∧ g'.cache = g.cache := by
  rw [collect] at h
  split at h
  · cases h
    exact ⟨rfl, rfl⟩
  · cases h
    exact ⟨rfl, rfl⟩

theorem processTranslatedBatch_stores {pc : Translated}
    (h : processTranslatedBatch libs env g pc = some (task', g')) :
    g'.bitemporalStore = g.bitemporalStore ∧
    g'.cache = putAll g.cache env.instant (cachedBy libs env (.translated pc)) := by
  cases pc with
  | gather id batch => exact gather_stores h
  | collect messages => exact collect_stores h
  | translate todo pairs drain =>
    cases todo with
    | nil =>
      cases h
      exact ⟨rfl, rfl⟩
    | cons msg todo =>
      rw [processTranslatedBatch] at h
      split at h
      · cases h
        exact ⟨rfl, rfl⟩
      · cases h
        exact ⟨rfl, rfl⟩
      · cases h
  | enqueue translated drain =>
    cases translated with
    | nil =>
      cases h
      exact ⟨rfl, rfl⟩
    | cons translated rest =>
      rw [processTranslatedBatch] at h
      split at h
      · cases h
        cases drain <;> exact ⟨rfl, rfl⟩
      · cases h
        exact ⟨rfl, rfl⟩
  | _ =>
    cases h
    exact ⟨rfl, rfl⟩

/-- A section puts into the audit store and into the cache what it has in hand for them, and nothing
    else. -/
theorem stores_advance {task : Task} (h : advance libs env g task = some (task', g')) :
    g'.bitemporalStore = (storedBy task).foldl .store g.bitemporalStore ∧
    g'.cache = putAll g.cache env.instant (cachedBy libs env task) := by
  cases task with
  | idle => cases h
  | emergency pc => exact processEmergency_stores h
  | incoming pc => exact processIncomingBatch_stores h
  | translated pc => exact processTranslatedBatch_stores h

end

theorem stores_step {s s' : Sys n} {a : Act n} (h : Gateway.step libs s a = some s') :
    s'.gateway.bitemporalStore = (stored s a).foldl .store s.gateway.bitemporalStore ∧
    ∃ now, s'.gateway.cache = putAll s.gateway.cache now (cached libs s a) := by
  have hstart : ∀ {i g task}, s.start i g task = some s' → s'.gateway = g := by
    intro i g task hstart
    obtain ⟨-, rfl⟩ := start_eq_some.mp hstart
    rfl
  cases a with
  | send i msg =>
    rw [Gateway.step] at h
    split at h
    · rw [hstart h]
      exact ⟨rfl, fun _ => 0, rfl⟩
    · cases h
      exact ⟨rfl, fun _ => 0, rfl⟩
  | takeBatch i size =>
    rw [Gateway.step, Option.ite_none_right_eq_some] at h
    rw [hstart h.2]
    exact ⟨rfl, fun _ => 0, rfl⟩
  | startWorker i id =>
    rw [Gateway.step, Option.ite_none_right_eq_some] at h
    rw [hstart h.2]
    exact ⟨rfl, fun _ => 0, rfl⟩
  | drainSpread i =>
    rw [hstart h]
    exact ⟨rfl, fun _ => 0, rfl⟩
  | advance i env =>
    obtain ⟨⟨task', g'⟩, hadvance, rfl⟩ := Option.map_eq_some_iff.mp h
    obtain ⟨hstore, hcache⟩ := stores_advance hadvance
    exact ⟨hstore, env.instant, hcache⟩
  | transmit size uplink =>
    rw [Gateway.step, Option.ite_none_right_eq_some] at h
    obtain ⟨-, h⟩ := h
    cases h
    obtain ⟨hstore, hcache⟩ := stores_callUplink (s.gateway.count
      (·.recordTransmissionBatch (s.gateway.transmission.take size).length)) uplink
      (s.gateway.transmission.take size)
    exact ⟨hstore, fun _ => 0, hcache⟩

/-- **The audit trail.**  After every run, whatever order the tasks take turns in, the audit store holds
    the last 10000 of all messages stored so far, as they were sent and in that order; every message in a
    shard has been stored, and whatever went out to ASTS, was withheld or waits is the translation of a
    message that has. -/
theorem audit_before_uplink
    (hrun : Trace.run (step libs) (Sys.init n cacheTtl hasCredentials now) as = some t) :
    let l := trail libs n cacheTtl hasCredentials now as
    t.gateway.bitemporalStore.messages = l.rtake 10000 ∧
    (∀ m ∈ l, Sent as m) ∧
    (∀ id, ∀ m ∈ t.gateway.shardManager.channel id, m ∈ l) ∧
    ∀ out ∈ t.gateway.uplinked ++ t.gateway.withheld ++ t.gateway.transmission,
      ∃ m now, m ∈ l ∧ translateSync libs now m = .ok out := by
  intro l
  obtain ⟨halong, hplace⟩ := inPlace_of_run hrun
  refine ⟨?_, ?_, fun id m hm => ?_, fun out hout => ?_⟩
  · have hheld := Trace.Along.invariant_collect (C := fun _ _ => True) (f := stored)
      (P := fun (s : Sys n) l => s.gateway.bitemporalStore.Holds l ∧
        s.gateway.bitemporalStore.maxMessages = 10000)
      (fun s a s' l _ h hs => ?_) as _ t [] (Trace.along_of_forall as _ fun _ _ _ => trivial) hrun
      ⟨(List.rtake_nil _).symm, rfl⟩
    · obtain ⟨hholds, hmax⟩ := hheld
      rw [BiTemporalStore.Holds, hmax] at hholds
      exact hholds
    · obtain ⟨hholds, hmax⟩ := BiTemporalStore.holds_foldl_store (stored s a) hs.1
      rw [(stores_step h).1]
      exact ⟨hholds, hmax.trans hs.2⟩
  · refine Trace.Along.forall_collect (fun s a hs m hm => ?_) as _ halong
    cases a with
    | advance i env =>
      have htask := hs.task i
      revert hm htask
      show m ∈ storedBy (s.task i) → Carries _ (s.task i) → Sent as m
      cases s.task i with
      | emergency pc =>
        cases pc with
        | store msg => exact fun hm hcarries => List.mem_singleton.mp hm ▸ hcarries.1
        | _ => exact fun hm => by cases hm
      | incoming pc =>
        cases pc with
        | store reconciled => exact fun hm hcarries => (hcarries m hm).1
        | _ => exact fun hm => by cases hm
      | _ => exact fun hm => by cases hm
    | _ => cases hm
  · have hshard := hplace.gateway.shards id m hm
    by_cases hid : id = 0
    · exact ((if_pos hid).mp hshard).1.2
    · exact ((if_neg hid).mp hshard).1.2
  · obtain ⟨m, hm, now, ht⟩ := List.forall_mem_append.mpr
      ⟨hplace.gateway.uplink, hplace.gateway.transmission⟩ out hout
    exact ⟨m, now, hm.2, ht⟩

end

/-- The reading is stored once. -/
theorem audit_before_uplink_reading :
    ∃ t, Trace.run (step frameLibs) (Sys.init 1 60000000000 true 0) oneReading = some t ∧
      t.gateway.bitemporalStore.messages = [delayed 1000] := by
  obtain ⟨t, ht⟩ := Option.isSome_iff_exists.mp oneReading_runs
  have htrail : (trail frameLibs 1 60000000000 true 0 oneReading).rtake 10000 = [delayed 1000] := by
    decide +kernel
  exact ⟨t, ht, (audit_before_uplink ht).1.trans htrail⟩

end Gateway

end FloatProtocols
