/-
  Does a cache hit emit what the miss path would have emitted?

  1. **The writes** — three writers (emergency path, shard workers, spread drainer) put translations
     into the cache, each under the key of what it translates (`writes`).  Whatever the cache holds
     under a key is the last of them (`Latest`), since eviction and expiry only forget; and it is the
     translation of a message that was sent.

  2. **The hit** — the lookup decides what is routed.  From there on the task hands over one message
     per section, whatever the others do in between (`task_of_turns`).

  3. **The verdict (`cache_hit_faithful_iff`)** — if djb2 keeps the payloads of the run apart, the
     original `o` of a hit has the protocol and payload of the message looked up, so protocol and
     data agree.  Priority and the two clocks are those of `o`: they agree exactly if `o` had the
     same, and nothing makes it so (`alarm_replayed`).
-/
import FloatProtocols.Gateway.Provenance

namespace FloatProtocols

open Wire Translator

namespace Gateway

variable {libs : Libs}

/-! ## What a translation keeps -/

theorem translateSync_eq_ok {now : UInt64} {o t : Message} :
    translateSync libs now o = .ok t ↔ ∃ data, translateData libs o.protocol o.data = .ok data ∧
      { Message.new .astSpaceMobile data o.priority now with
        tEvent := o.tEvent, tSystem := o.tSystem } = t := by
  rw [translateSync, Exec.bind_eq_ok]
  simp only [Exec.ok.injEq]

/-- The uplink sees the same message. -/
def Agree (r t : Message) : Prop :=
  r.protocol = t.protocol ∧ r.data = t.data ∧ r.priority = t.priority ∧
    r.tEvent = t.tEvent ∧ r.tSystem = t.tSystem

/-- **Two messages with one payload**: their translations share protocol and data, and agree exactly
    if priority and clocks did. -/
theorem agree_iff {o t m : Message} {earlier : UInt64} (ht : translateSync libs earlier o = .ok t)
    (hprotocol : o.protocol = m.protocol) (hdata : o.data = m.data) (now : UInt64) :
    ∃ r, translateSync libs now m = .ok r ∧ r.protocol = t.protocol ∧ r.data = t.data ∧
      (Agree r t ↔ o.priority = m.priority ∧ o.tEvent = m.tEvent ∧ o.tSystem = m.tSystem) := by
  obtain ⟨data, hdecoded, rfl⟩ := translateSync_eq_ok.mp ht
  rw [hprotocol, hdata] at hdecoded
  refine ⟨_, translateSync_eq_ok.mpr ⟨data, hdecoded, rfl⟩, rfl, rfl, ?_⟩
  show _ ∧ _ ∧ m.priority = o.priority ∧ m.tEvent = o.tEvent ∧ m.tSystem = o.tSystem ↔ _
  constructor
  · rintro ⟨-, -, hp, he, hs⟩
    exact ⟨hp.symm, he.symm, hs.symm⟩
  · rintro ⟨hp, he, hs⟩
    exact ⟨rfl, rfl, hp.symm, he.symm, hs.symm⟩

/-! ## The last write -/

/-- The last of the writes under a key: a translation, with what it translates. -/
def lastUnder (log : List (Message × Message)) (k : CacheKey) : Option (Message × Message) :=
  (log.filter fun x => AsyncCache.key x.1.protocol x.1.data = k).getLast?

theorem lastUnder_concat (log : List (Message × Message)) (x : Message × Message) (k : CacheKey) :
    lastUnder (log ++ [x]) k =
      if AsyncCache.key x.1.protocol x.1.data = k then some x else lastUnder log k := by
  rw [lastUnder, List.filter_append, List.filter_singleton]
  split
  · rename_i hkey
    rw [decide_eq_true hkey, cond_true, List.getLast?_concat]
  · rename_i hkey
    rw [decide_eq_false hkey, cond_false, List.append_nil, lastUnder]

theorem lastUnder_eq_some {log : List (Message × Message)} {k : CacheKey} {x : Message × Message}
    (h : lastUnder log k = some x) : x ∈ log ∧ AsyncCache.key x.1.protocol x.1.data = k := by
  obtain ⟨hmem, hkey⟩ := List.mem_filter.mp (List.mem_of_getLast? h)
  exact ⟨hmem, of_decide_eq_true hkey⟩

/-- Under each of its keys the cache holds the last write. -/
def Latest (log : List (Message × Message)) (c : AsyncCache) : Prop :=
  c.Holds fun k t => ∃ o, lastUnder log k = some (o, t)

theorem Latest.set {log : List (Message × Message)} {c : AsyncCache} (h : Latest log c) (now : Nat)
    (o t : Message) : Latest (log ++ [(o, t)]) (c.set now o.protocol o.data t) := by
  refine AsyncCache.Holds.overwrite h ⟨o, ?newest⟩ (fun k t' hkey hold => ?others) now
  case newest => rw [lastUnder_concat, if_pos rfl]
  case others => rwa [lastUnder_concat, if_neg hkey.symm]

/-- A batch is written item by item. -/
theorem Latest.foldl_set (now : Nat → Nat) : ∀ (pairs : List (Message × Message)) (k : Nat)
    {log : List (Message × Message)} {c : AsyncCache}, Latest log c →
    Latest (log ++ pairs) (((pairs.map fun x => (x.1.protocol, x.1.data, x.2)).zipIdx k).foldl
      (fun c x => c.set (now x.2) x.1.1 x.1.2.1 x.1.2.2) c)
  | [], _, _, _, h => by rwa [List.append_nil]
  | x :: pairs, k, _, _, h => by
    have hrest := Latest.foldl_set now pairs (k + 1) (h.set (now k) x.1 x.2)
    rwa [List.append_assoc] at hrest

theorem Latest.putAll {now : Nat → Nat} {log : List (Message × Message)} {c : AsyncCache}
    (h : Latest log c) (pairs : List (Message × Message)) :
    Latest (log ++ pairs) (Gateway.putAll c now pairs) :=
  Latest.foldl_set now pairs 0 h

section

variable {n cacheTtl now : Nat} {hasCredentials : Bool} {as : List (Act n)} {s : Sys n}

/-- All that a run puts into the cache, in order. -/
def writes (libs : Libs) (n cacheTtl : Nat) (hasCredentials : Bool) (now : Nat) (as : List (Act n)) :
    List (Message × Message) :=
  Trace.collect (step libs) (cached libs) (Sys.init n cacheTtl hasCredentials now) as

theorem latest_of_run
    (hrun : Trace.run (step libs) (Sys.init n cacheTtl hasCredentials now) as = some s) :
    Latest (writes libs n cacheTtl hasCredentials now as) s.gateway.cache := by
  refine Trace.Along.invariant_collect (C := fun _ _ => True)
    (P := fun (s : Sys n) log => Latest log s.gateway.cache) (fun s a s' log _ h hs => ?_) as _ s []
    (Trace.along_of_forall as _ fun _ _ _ => trivial) hrun (AsyncCache.holds_new 1000 cacheTtl)
  -- what a step does to the cache is one `putAll`, of what `cached` says
  obtain ⟨-, now, hcache⟩ := stores_step h
  rw [hcache]
  exact hs.putAll _

/-- What is written is the translation of a message that may be stored. -/
theorem translation_of_cached {P : Places} (hP : ∀ m now t, P.storedAlarm m ∨ P.storedReading m →
      translateSync libs now m = .ok t → P.translation m t) (hs : InPlace P s) (a : Act n) :
    ∀ x ∈ cached libs s a, P.translation x.1 x.2 := by
  intro x hx
  cases a with
  | advance i env =>
    have htask := hs.task i
    revert hx htask
    show x ∈ cachedBy libs env (s.task i) → Carries P (s.task i) → _
    cases s.task i with
    | emergency pc =>
      cases pc with
      | translate msg =>
        intro hx hmsg
        obtain ⟨t, ht, rfl⟩ := Option.map_eq_some_iff.mp (Option.mem_toList.mp hx)
        exact hP msg _ t (.inl hmsg) (Exec.toOption_eq_some.mp ht)
      | _ => exact fun hx => by cases hx
    | translated pc =>
      cases pc with
      | cacheAll pairs drain => exact fun hx hpairs => hpairs x hx
      | _ => exact fun hx => by cases hx
    | _ => exact fun hx => by cases hx
  | _ => cases hx

/-- Every write of a run is the translation of a message that was sent. -/
theorem translates_of_mem_writes
    (hrun : Trace.run (step libs) (Sys.init n cacheTtl hasCredentials now) as = some s)
    {x : Message × Message} (hx : x ∈ writes libs n cacheTtl hasCredentials now as) :
    Sent as x.1 ∧ ∃ clock, translateSync libs clock x.1 = .ok x.2 := by
  have halong := (inPlace_of_run hrun).1
  obtain ⟨hsent, htranslated⟩ := Trace.Along.forall_collect
    (fun s a hs => translation_of_cached (fun _ _ _ => translation_placesOf) hs a)
    as _ halong x hx
  exact ⟨hsent.1, htranslated⟩

end

/-! ## From the lookup to the uplink -/

variable {n : Nat}

/-- Each section of the routing hands over one message. -/
theorem route_advance {env : Env} {g g' : Gateway} {x : Message × Option Message}
    {routed : List (Message × Option Message)} {task' : Task}
    (h : advance libs env g (.incoming (.route (x :: routed))) = some (task', g')) :
    task' = .incoming (.route routed) := by
  obtain ⟨msg, _ | translated⟩ := x
  · exact afterPush_task h
  · cases h
    rfl

/-- **Routing is in order**: after so many sections of the task, whatever the others did, so many
    messages have been handed over. -/
theorem task_of_turns {v w : Sys n} {i : Fin n} {routed : List (Message × Option Message)}
    (hv : v.task i = .incoming (.route routed)) {bs : List (Act n)}
    (hrun : Trace.run (step libs) v bs = some w) :
    bs.countP (Act.isTurnOf i) ≤ routed.length →
      w.task i = .incoming (.route (routed.drop (bs.countP (Act.isTurnOf i)))) := by
  refine Trace.invariant_log (P := fun (s : Sys n) l => l.countP (Act.isTurnOf i) ≤ routed.length →
    s.task i = .incoming (.route (routed.drop (l.countP (Act.isTurnOf i)))))
    (fun s a s' l h hs hle => ?_) bs v w hrun fun _ => hv
  -- the task is in the middle of its routing: only a turn of its own moves it on
  rw [List.countP_append, List.countP_singleton] at hle ⊢
  have htask := hs (Nat.le_of_add_right_le hle)
  rcases task_of_step h (i := i) (by rw [htask]; exact Task.noConfusion) with
    ⟨hturn, hsame⟩ | ⟨env, g', rfl, hadvance⟩
  · rw [hsame, htask, hturn]
    rfl
  · rw [Act.isTurnOf, decide_eq_true rfl, if_pos rfl] at hle ⊢
    rw [htask, List.drop_eq_getElem_cons hle] at hadvance
    exact route_advance hadvance

/-- The payloads that enter in the course of a run. -/
def payloads (as : List (Act n)) : List Bytes :=
  as.filterMap fun
    | .send _ msg => some msg.data
    | _ => none

theorem Sent.mem_payloads {as : List (Act n)} {m : Message} (hm : Sent as m) :
    m.data ∈ payloads as := by
  obtain ⟨i, hmem⟩ := hm
  exact List.mem_filterMap.mpr ⟨_, hmem, rfl⟩

/-- **What a hit emits.**  In every run of the gateway, when the lookup of `m`, the `k`th of its batch,
    hits `t`: the task hands `t` to the uplink when it has routed the `k` messages before, whatever the
    other tasks do in the meantime.  Of all that the run had put into the cache under the key of `m`,
    `t` is the last, and it is the translation of a message `o` that was sent (no clock offset is
    registered, so `o` is also what the reconciler made of it), with the protocol and payload of `m`.
    Translating `m` itself would succeed with the same protocol and data, and give the uplink the same
    message exactly if `o` had the priority and the two clocks of `m`. -/
theorem cache_hit_faithful_iff (cacheTtl : Nat) (hasCredentials : Bool) (now : Nat)
    (as : List (Act n)) (s : Sys n)
    (hrun : Trace.run (step libs) (Sys.init n cacheTtl hasCredentials now) as = some s)
    (hdjb2 : ∀ a ∈ payloads as, ∀ b ∈ payloads as,
      AsyncCache.hashData a = AsyncCache.hashData b → a = b)
    (i : Fin n) (normal : List Message) (hlookup : s.task i = .incoming (.lookup normal)) (env : Env)
    (k : Nat) (m t : Message) (hm : normal[k]? = some m)
    (hhit : s.gateway.cache.get (env.instant k) m.protocol m.data = some t) :
    (∃ v, step libs s (.advance i env) = some v ∧
      ∀ bs w, Trace.run (step libs) v bs = some w → bs.countP (Act.isTurnOf i) = k →
        ∀ env', ∃ w', step libs w (.advance i env') = some w' ∧
          w'.gateway = (w.gateway.count .recordCacheHit).sendToAsts env'.uplink t) ∧
    ∃ o, Sent as o ∧
      lastUnder (writes libs n cacheTtl hasCredentials now as)
        (AsyncCache.key m.protocol m.data) = some (o, t) ∧
      o.protocol = m.protocol ∧ o.data = m.data ∧ (∃ clock, translateSync libs clock o = .ok t) ∧
      ∀ clock, ∃ r, translateSync libs clock m = .ok r ∧ r.protocol = t.protocol ∧ r.data = t.data ∧
        (Agree r t ↔ o.priority = m.priority ∧ o.tEvent = m.tEvent ∧ o.tSystem = m.tSystem) := by
  constructor
  · let routed := normal.zip (s.gateway.cache.getBatch env.instant
      (normal.map fun m => (m.protocol, m.data)))
    have hkth : routed[k]? = some (m, some t) := by
      rw [List.getElem?_zip_eq_some, AsyncCache.getElem?_getBatch, List.getElem?_map, hm]
      exact ⟨rfl, congrArg some hhit⟩
    obtain ⟨hk, hkth⟩ := List.getElem?_eq_some_iff.mp hkth
    refine ⟨{ s with task := Function.update s.task i (.incoming (.route routed)) }, ?_, ?_⟩
    · rw [step, hlookup]
      rfl
    · intro bs w hw hcount env'
      have htask := task_of_turns (Function.update_self ..) hw (hcount ▸ hk.le)
      rw [hcount, List.drop_eq_getElem_cons hk, hkth] at htask
      rw [step, htask]
      exact ⟨_, rfl, rfl⟩
  · obtain ⟨o, hlast⟩ := (latest_of_run hrun).get hhit
    obtain ⟨hmem, hkey⟩ := lastUnder_eq_some hlast
    obtain ⟨ho, clock, ht⟩ := translates_of_mem_writes hrun hmem
    have hsent : Sent as m := by
      have hcarried := (inPlace_of_run hrun).2.task i
      rw [hlookup] at hcarried
      exact (hcarried m (List.mem_of_getElem? hm)).1.1
    have hprotocol : o.protocol = m.protocol := congrArg CacheKey.protocol hkey
    -- the cache compares hashes; within the run that is comparing payloads
    have hdata : o.data = m.data :=
      hdjb2 _ ho.mem_payloads _ hsent.mem_payloads (congrArg CacheKey.dataHash hkey)
    exact ⟨o, ho, hlast, hprotocol, hdata, ⟨clock, ht⟩, agree_iff ht hprotocol hdata⟩

/-! ## An alarm, then a reading with the same bytes -/

/-- An emergency and a later reading with the same payload. -/
def alarm : Message := .newWithTemporal .nidd [1, 2, 3] .emergency 1 1
@[inherit_doc alarm] def reading : Message := .newWithTemporal .nidd [1, 2, 3] .operational 2000 2000

/-- What goes out for the alarm. -/
def alarmOut : Message :=
  { alarm with protocol := .astSpaceMobile, timestamp := 0 }

/-- Clocks at zero, an uplink that works. -/
def calm : Env := { instant := fun _ => 0, nowMs := fun _ => 0, uplink := .ok, enqueued := true }

/-- The alarm takes the emergency path; the reading is about to be looked up. -/
def alarmThenReading : List (Act 1) :=
  .send (.last 0) alarm :: List.replicate 6 (.advance (.last 0) calm) ++
    [.send (.last 0) reading, .takeBatch (.last 0) 1] ++ List.replicate 4 (.advance (.last 0) calm)

/-- The reading hits the alarm's translation, the only one stored so far. -/
theorem cache_hit_faithful_iff_alarm :
    ∃ s : Sys 1, Trace.run (step frameLibs) (Sys.init 1 60000000000 true 0) alarmThenReading = some s ∧
      lastUnder (writes frameLibs 1 60000000000 true 0 alarmThenReading)
        (AsyncCache.key reading.protocol reading.data) = some (alarm, alarmOut) ∧
      ∀ clock, ∃ r, translateSync frameLibs clock reading = .ok r ∧
        (Agree r alarmOut ↔ alarm.priority = reading.priority ∧ alarm.tEvent = reading.tEvent ∧
          alarm.tSystem = reading.tSystem) := by
  have hend : (Trace.run (step frameLibs) (Sys.init 1 60000000000 true 0) alarmThenReading).map
      (fun s => (s.task 0, s.gateway.cache.get 0 reading.protocol reading.data)) =
        some (.incoming (.lookup [reading]), some alarmOut) := by
    decide +kernel
  have hlast : lastUnder (writes frameLibs 1 60000000000 true 0 alarmThenReading)
      (AsyncCache.key reading.protocol reading.data) = some (alarm, alarmOut) := by
    decide +kernel
  obtain ⟨s, hs, hfound⟩ := Option.map_eq_some_iff.mp hend
  obtain ⟨htask, hhit⟩ := Prod.mk.inj hfound
  obtain ⟨-, o, -, ho, -, -, -, hsame⟩ := cache_hit_faithful_iff 60000000000 true 0 alarmThenReading s hs
    (by decide) 0 [reading] htask calm 0 reading alarmOut rfl hhit
  obtain rfl : alarm = o := congrArg Prod.fst (Option.some.inj (hlast.symm.trans ho))
  refine ⟨s, hs, hlast, fun clock => ?_⟩
  obtain ⟨r, hr, -, -, hagree⟩ := hsame clock
  exact ⟨r, hr, hagree⟩

/-- **A reading goes out as an emergency.**  Neither message collides with another; two steps further
    the alarm's translation has gone out twice, where the reading's own is operational and has its
    own clocks. -/
theorem alarm_replayed :
    (∀ a ∈ payloads alarmThenReading, ∀ b ∈ payloads alarmThenReading,
      AsyncCache.hashData a = AsyncCache.hashData b → a = b) ∧
    (Trace.run (step frameLibs) (Sys.init 1 60000000000 true 0)
      (alarmThenReading ++ [.advance 0 calm, .advance 0 calm])).map (fun s => s.gateway.uplinked) =
        some [alarmOut, alarmOut] ∧
    translateSync frameLibs 0 reading = .ok { alarmOut with
      priority := .operational, tEvent := 2000, tSystem := 2000 } := by
  decide +kernel

end Gateway

end FloatProtocols
