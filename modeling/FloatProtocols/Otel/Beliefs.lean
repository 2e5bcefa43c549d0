/-
  The queries of `otel_reconciler.rs`, and what they remember.

  1. **Program** — three filters over all records, the belief at a time (for each entity the record
     with the greatest `t_system` that is not later), the spread statistics; and the second way in,
     `retroactive_correction`, which takes its valid time from the caller.  The map is walked in an
     order of its own, so answers are compared as multisets.

  2. **Two views of the state** — all records in one list (`all`, which a push extends by one), and one
     history for each entity (`history`, of which a push extends one).  The filters and the statistics
     see the first view only, the belief sees the second.

  3. **The past stays (`systemBeliefAt_latest`)** — what was believed at `t` is decided by the records
     up to `t`, and a push cannot add one there without carrying such a time.

  4. **Arrival order (`queries_perm`)** — permuted ingests give the same records and, for each entity,
     a permuted history; so only a tie in `t_system` could tell them apart.
-/
import FloatProtocols.Lib.Selection
import FloatProtocols.Otel.Reconciler

namespace FloatProtocols

namespace BitemporalReconciler

/-! ## Program -/

/-- Every record, entity by entity. -/
def all (r : BitemporalReconciler) : List BitemporalRecord := r.records.entries.flatMap (·.2)

/-- `query_valid_time`. -/
def queryValidTime (r : BitemporalReconciler) (startMs endMs : Int64) : List OtlpSpan :=
  (r.all.filter fun x => x.tEvent ≥ startMs ∧ x.tEvent ≤ endMs).map (·.span)

/-- `query_transaction_time`. -/
def queryTransactionTime (r : BitemporalReconciler) (startMs endMs : Int64) : List OtlpSpan :=
  (r.all.filter fun x => x.tSystem ≥ startMs ∧ x.tSystem ≤ endMs).map (·.span)

/-- `.filter(|r| r.t_system <= transaction_time_ms).max_by_key(|r| r.t_system)`. -/
def latest (records : List BitemporalRecord) (transactionTimeMs : Int64) : Option BitemporalRecord :=
  Selection.maxByKey (·.tSystem.toInt) (records.filter fun x => x.tSystem ≤ transactionTimeMs)

/-- `system_belief_at`. -/
def systemBeliefAt (r : BitemporalReconciler) (transactionTimeMs : Int64) : List OtlpSpan :=
  r.records.entries.filterMap fun s => (latest s.2 transactionTimeMs).map (·.span)

/-- `actual_state_at`. -/
def actualStateAt (r : BitemporalReconciler) (validTimeMs : Int64) : List OtlpSpan :=
  (r.all.filter fun x => x.tEvent = validTimeMs).map (·.span)

/-- `ReconciliationStats`. -/
structure ReconciliationStats where
  totalRecords : Nat := 0
  positiveSpread : Nat := 0
  negativeSpread : Nat := 0
  zeroSpread : Nat := 0
  avgSpreadMs : Float := 0
  maxSpreadMs : Int64 := 0
  minSpreadMs : Int64 := 0

/-- `record.t_system - record.t_event`, wrapping. -/
def spread (x : BitemporalRecord) : Int64 := x.tSystem - x.tEvent

/-- The loop body of `spread_stats`. -/
def tally (startMs endMs : Int64) (acc : ReconciliationStats × List Int64) (x : BitemporalRecord) :
    ReconciliationStats × List Int64 :=
  if x.tSystem ≥ startMs ∧ x.tSystem ≤ endMs then
    let stats := { acc.1 with totalRecords := acc.1.totalRecords + 1 }
    let spreads := acc.2 ++ [spread x]
    if spread x > 0 then ({ stats with positiveSpread := stats.positiveSpread + 1 }, spreads)
    else if spread x < 0 then ({ stats with negativeSpread := stats.negativeSpread + 1 }, spreads)
    else ({ stats with zeroSpread := stats.zeroSpread + 1 }, spreads)
  else acc

/-- `spreads.iter().sum()`, wrapping. -/
def spreadSum (spreads : List Int64) : Int64 := spreads.foldl (· + ·) 0

/-- `spread_stats`. -/
def spreadStats (r : BitemporalReconciler) (startMs endMs : Int64) : ReconciliationStats :=
  let (stats, spreads) := r.all.foldl (tally startMs endMs) ({}, [])
  if spreads.isEmpty then stats
  else { stats with
    maxSpreadMs := (Selection.maxByKey Int64.toInt spreads).getD 0
    minSpreadMs := (Selection.minByKey Int64.toInt spreads).getD 0
    avgSpreadMs := (spreadSum spreads).toFloat / spreads.length.toFloat }

/-- `retroactive_correction`. -/
def retroactiveCorrection (r : BitemporalReconciler) (span : OtlpSpan) (newTEvent : Int64) :
    BitemporalReconciler :=
  r.push { record span with tEvent := newTEvent }

/-! ## Pushes, one view at a time -/

/-- A call that adds a record. -/
inductive Write where
  | ingest (span : OtlpSpan)
  | retroactiveCorrection (span : OtlpSpan) (newTEvent : Int64)

/-- What a call does. -/
def write (r : BitemporalReconciler) : Write → BitemporalReconciler
  | .ingest span => r.ingest span
  | .retroactiveCorrection span newTEvent => r.retroactiveCorrection span newTEvent

/-- The record a call adds. -/
def Write.record : Write → BitemporalRecord
  | .ingest span => BitemporalReconciler.record span
  | .retroactiveCorrection span newTEvent =>
    { BitemporalReconciler.record span with tEvent := newTEvent }

theorem foldl_write_eq (r : BitemporalReconciler) (ws : List Write) :
    ws.foldl write r = (ws.map Write.record).foldl push r := by
  rw [List.foldl_map]
  congr 1
  funext r w
  cases w <;> rfl

theorem ingestAll_eq (r : BitemporalReconciler) (spans : List OtlpSpan) :
    r.ingestAll spans = (spans.map record).foldl push r := by
  rw [List.foldl_map]
  rfl

/-- Pushes extend each history by the records of its entity. -/
theorem history_foldl_push (xs : List BitemporalRecord) :
    ∀ (r : BitemporalReconciler) (e : String),
      (xs.foldl push r).history e = r.history e ++ xs.filter fun x => x.entityId = e := by
  induction xs with
  | nil =>
    intro r e
    rw [List.filter_nil, List.append_nil]
    rfl
  | cons x xs ih =>
    intro r e
    rw [List.foldl_cons, ih, history_push, List.append_assoc]
    congr 1
    by_cases he : x.entityId = e
    · rw [if_pos he.symm, List.filter_cons_of_pos (by simpa using he)]
      rfl
    · rw [if_neg (Ne.symm he), List.filter_cons_of_neg (by simpa using he)]
      rfl

/-- A push adds its record to all of them. -/
theorem all_push (r : BitemporalReconciler) (x : BitemporalRecord) : (r.push x).all.Perm (x :: r.all) := by
  have hentries : (r.push x).records.entries =
      ⟨x.entityId, (r.records.lookup x.entityId).getD [] ++ [x]⟩ ::
        r.records.entries.kerase x.entityId := rfl
  unfold all
  rw [hentries, List.flatMap_cons]
  by_cases hkey : x.entityId ∈ r.records
  · obtain ⟨b, l₁, l₂, -, hsplit, herase⟩ := List.exists_of_kerase hkey
    have hb : r.records.lookup x.entityId = some b := by
      refine AList.mem_lookup_iff.mpr ?_
      rw [hsplit]
      exact List.mem_append_right _ (List.mem_cons_self ..)
    rw [herase, hb, hsplit, Option.getD_some]
    simp only [List.flatMap_append, List.flatMap_cons]
    -- the entity's own list goes to the front, its new record before it
    calc b ++ [x] ++ (l₁.flatMap (·.2) ++ l₂.flatMap (·.2))
        |>.Perm (x :: b ++ (l₁.flatMap (·.2) ++ l₂.flatMap (·.2))) :=
          (List.perm_append_singleton x b).append_right _
      _ |>.Perm (x :: (l₁.flatMap (·.2) ++ (b ++ l₂.flatMap (·.2)))) := by
          rw [List.cons_append, ← List.append_assoc, ← List.append_assoc]
          exact (List.perm_append_comm.append_right _).cons x
  · rw [AList.lookup_eq_none.mpr hkey, List.kerase_of_notMem_keys hkey]
    rfl

theorem all_foldl_push (xs : List BitemporalRecord) :
    ∀ r : BitemporalReconciler, (xs.foldl push r).all.Perm (r.all ++ xs) := by
  induction xs with
  | nil =>
    intro r
    rw [List.append_nil]
    rfl
  | cons x xs ih =>
    intro r
    exact (ih (r.push x)).trans (((all_push r x).append_right xs).trans List.perm_middle.symm)

theorem all_ingestAll_new (spans : List OtlpSpan) : (new.ingestAll spans).all.Perm (spans.map record) := by
  rw [ingestAll_eq]
  exact all_foldl_push (spans.map record) new

theorem history_ingestAll_new (spans : List OtlpSpan) (e : String) :
    (new.ingestAll spans).history e = (spans.map record).filter fun x => x.entityId = e := by
  rw [ingestAll_eq, history_foldl_push]
  rfl

/-! ## Beliefs -/

/-- The believed record of each entity that has one. -/
def beliefs (r : BitemporalReconciler) (t : Int64) : List (String × BitemporalRecord) :=
  r.records.entries.filterMap fun s => (latest s.2 t).map (Prod.mk s.1)

theorem systemBeliefAt_eq_map (r : BitemporalReconciler) (t : Int64) :
    r.systemBeliefAt t = (r.beliefs t).map fun b => b.2.span := by
  rw [systemBeliefAt, beliefs, List.map_filterMap]
  congr 1
  funext s
  rw [Option.map_map]
  rfl

/-- The believed record is the last of those with the greatest time up to `t`. -/
theorem latest_eq_some_iff {records : List BitemporalRecord} {t : Int64} {x : BitemporalRecord} :
    latest records t = some x ↔
      Selection.IsLastMax (·.tSystem.toInt) (fun x => x.tSystem ≤ t) records x :=
  Selection.maxByKey_filter_eq_some_iff

theorem latest_nil (t : Int64) : latest [] t = none := rfl

theorem mem_beliefs {r : BitemporalReconciler} {t : Int64} {e : String} {x : BitemporalRecord} :
    (e, x) ∈ r.beliefs t ↔ latest (r.history e) t = some x := by
  unfold beliefs history
  rw [List.mem_filterMap]
  constructor
  · rintro ⟨⟨e', records⟩, hmem, hx⟩
    obtain ⟨y, hy, hpair⟩ := Option.map_eq_some_iff.mp hx
    obtain ⟨rfl, rfl⟩ := Prod.mk.inj hpair
    rw [AList.mem_lookup_iff.mpr hmem, Option.getD_some]
    exact hy
  · intro hx
    cases hlookup : r.records.lookup e with
    | none =>
      rw [hlookup, Option.getD_none, latest_nil] at hx
      cases hx
    | some records =>
      rw [hlookup, Option.getD_some] at hx
      exact ⟨⟨e, records⟩, AList.mem_lookup_iff.mp hlookup, by rw [hx, Option.map_some]⟩

/-- No entity twice. -/
theorem nodup_beliefs (r : BitemporalReconciler) (t : Int64) : ((r.beliefs t).map Prod.fst).Nodup := by
  have hsub : ((r.beliefs t).map Prod.fst).Sublist r.records.entries.keys := by
    unfold beliefs
    generalize r.records.entries = entries
    induction entries with
    | nil => exact .slnil
    | cons s entries ih =>
      rw [List.filterMap_cons, List.keys_cons]
      cases latest s.2 t with
      | none => exact ih.cons s.1
      | some x => exact ih.cons_cons s.1
  exact hsub.nodup r.records.nodupKeys

/-- Beliefs are a matter of the histories alone. -/
theorem systemBeliefAt_perm {r r' : BitemporalReconciler} {t : Int64}
    (h : ∀ e, latest (r.history e) t = latest (r'.history e) t) :
    (r.systemBeliefAt t).Perm (r'.systemBeliefAt t) := by
  rw [systemBeliefAt_eq_map, systemBeliefAt_eq_map]
  refine List.Perm.map _ ((List.perm_ext_iff_of_nodup (nodup_beliefs r t).of_map
    (nodup_beliefs r' t).of_map).mpr ?_)
  rintro ⟨e, x⟩
  rw [mem_beliefs, mem_beliefs, h]

/-- Records from after `t` are not seen at `t`. -/
theorem latest_append_of_lt {records later : List BitemporalRecord} {t : Int64}
    (h : ∀ x ∈ later, t < x.tSystem) : latest (records ++ later) t = latest records t := by
  have hnone : (later.filter fun x => x.tSystem ≤ t) = [] := by
    refine List.filter_eq_nil_iff.mpr fun x hx => ?_
    have hlt := h x hx
    rw [decide_eq_true_iff, Int64.not_le]
    exact hlt
  rw [latest, latest, List.filter_append, hnone, List.append_nil]

/-- `x` is the belief about an entity at `t`: of its records up to `t`, none has a later time, and
    none of the same time was ingested after it. -/
def Believed (records : List BitemporalRecord) (t : Int64) (x : BitemporalRecord) : Prop :=
  ∃ before after, records = before ++ x :: after ∧ x.tSystem ≤ t ∧
    (∀ y ∈ before, y.tSystem ≤ t → y.tSystem ≤ x.tSystem) ∧
    (∀ y ∈ after, y.tSystem ≤ t → y.tSystem < x.tSystem)

theorem latest_eq_some_iff_believed {records : List BitemporalRecord} {t : Int64}
    {x : BitemporalRecord} : latest records t = some x ↔ Believed records t x := by
  rw [latest_eq_some_iff, Selection.IsLastMax, Believed]
  simp only [Int64.le_iff_toInt_le, Int64.lt_iff_toInt_lt]

/-- **The belief history is append-only.**  In every state and at every time `t` there is exactly one
    span for each entity with a record up to `t`, that of its latest such record; and no run of calls
    whose records are all later than `t` changes that. -/
theorem systemBeliefAt_latest (r : BitemporalReconciler) (t : Int64) :
    (∃ bs : List (String × BitemporalRecord),
      r.systemBeliefAt t = bs.map (fun b => b.2.span) ∧ (bs.map Prod.fst).Nodup ∧
      (∀ e, e ∈ bs.map Prod.fst ↔ ∃ x ∈ r.history e, x.tSystem ≤ t) ∧
      ∀ e x, (e, x) ∈ bs → Believed (r.history e) t x) ∧
    ∀ ws : List Write, (∀ w ∈ ws, t < w.record.tSystem) →
      ((ws.foldl write r).systemBeliefAt t).Perm (r.systemBeliefAt t) := by
  constructor
  · refine ⟨r.beliefs t, systemBeliefAt_eq_map r t, nodup_beliefs r t, fun e => ?_, fun e x hx => ?_⟩
    · have hexists : (∃ x, latest (r.history e) t = some x) ↔ ∃ x ∈ r.history e, x.tSystem ≤ t :=
        Selection.exists_maxByKey_filter
      rw [← hexists, List.mem_map]
      constructor
      · rintro ⟨⟨e', x⟩, hmem, rfl⟩
        exact ⟨x, mem_beliefs.mp hmem⟩
      · rintro ⟨x, hx⟩
        exact ⟨(e, x), mem_beliefs.mpr hx, rfl⟩
    · exact latest_eq_some_iff_believed.mp (mem_beliefs.mp hx)
  · intro ws hlater
    refine systemBeliefAt_perm fun e => ?_
    rw [foldl_write_eq, history_foldl_push]
    refine latest_append_of_lt fun x hx => ?_
    obtain ⟨w, hw, rfl⟩ := List.mem_map.mp (List.mem_of_mem_filter hx)
    exact hlater w hw

/-- A reading of one sensor. -/
def reading (tEvent tSystem : Int64) : OtlpSpan :=
  .fromCompact InmarsatC.hexText { TelemetryBundle.blankSpan .ok with tEvent, tSystem }

theorem record_reading (tEvent tSystem : Int64) :
    (record (reading tEvent tSystem)).tEvent = tEvent ∧
    (record (reading tEvent tSystem)).tSystem = tSystem :=
  record_fromCompact InmarsatC.hexText { TelemetryBundle.blankSpan .ok with tEvent, tSystem }

/-- A late reading and a correction of it: the belief from before stays. -/
theorem systemBeliefAt_latest_corrected :
    (((new.ingest (reading 50 100)).ingest (reading 60 200)).retroactiveCorrection (reading 60 300)
      55).systemBeliefAt 150 |>.Perm ((new.ingest (reading 50 100)).systemBeliefAt 150) := by
  refine (systemBeliefAt_latest (new.ingest (reading 50 100)) 150).2
    [.ingest (reading 60 200), .retroactiveCorrection (reading 60 300) 55] fun w hw => ?_
  rcases List.mem_cons.mp hw with rfl | hw
  · show 150 < (record (reading 60 200)).tSystem
    rw [(record_reading 60 200).2]
    decide
  · rw [List.mem_singleton.mp hw]
    show 150 < (record (reading 60 300)).tSystem
    rw [(record_reading 60 300).2]
    decide

/-! ## Arrival order -/

/-- The records of a time range. -/
def inRange (startMs endMs : Int64) (xs : List BitemporalRecord) : List BitemporalRecord :=
  xs.filter fun x => x.tSystem ≥ startMs ∧ x.tSystem ≤ endMs

/-- The spreads of a time range. -/
def spreadsIn (startMs endMs : Int64) (xs : List BitemporalRecord) : List Int64 :=
  (inRange startMs endMs xs).map spread

/-- The counters, off the spreads. -/
def countSpreads (stats : ReconciliationStats) (spreads : List Int64) : ReconciliationStats :=
  { stats with
    totalRecords := stats.totalRecords + spreads.length
    positiveSpread := stats.positiveSpread + spreads.countP fun d => d > 0
    negativeSpread := stats.negativeSpread + spreads.countP fun d => ¬ d > 0 ∧ d < 0
    zeroSpread := stats.zeroSpread + spreads.countP fun d => ¬ d > 0 ∧ ¬ d < 0 }

/-- One turn of the loop counts one spread. -/
theorem tally_of_mem {startMs endMs : Int64} {x : BitemporalRecord}
    (h : x.tSystem ≥ startMs ∧ x.tSystem ≤ endMs) (acc : ReconciliationStats × List Int64) :
    tally startMs endMs acc x = (countSpreads acc.1 [spread x], acc.2 ++ [spread x]) := by
  unfold tally countSpreads
  rw [if_pos h]
  by_cases hpos : spread x > 0
  · simp [hpos]
  · by_cases hneg : spread x < 0 <;> simp [hpos, hneg]

theorem countSpreads_append (stats : ReconciliationStats) (ds ds' : List Int64) :
    countSpreads (countSpreads stats ds) ds' = countSpreads stats (ds ++ ds') := by
  simp only [countSpreads, List.length_append, List.countP_append, Nat.add_assoc]

/-- The whole loop. -/
theorem foldl_tally (startMs endMs : Int64) (xs : List BitemporalRecord) :
    ∀ acc, xs.foldl (tally startMs endMs) acc =
      (countSpreads acc.1 (spreadsIn startMs endMs xs), acc.2 ++ spreadsIn startMs endMs xs) := by
  induction xs with
  | nil =>
    intro acc
    rw [spreadsIn, inRange, List.filter_nil, List.map_nil, List.append_nil]
    rfl
  | cons x xs ih =>
    intro acc
    rw [List.foldl_cons, ih]
    by_cases hin : x.tSystem ≥ startMs ∧ x.tSystem ≤ endMs
    · have hcons : spreadsIn startMs endMs (x :: xs) = [spread x] ++ spreadsIn startMs endMs xs := by
        rw [spreadsIn, inRange, List.filter_cons_of_pos (by simpa using hin)]
        rfl
      rw [tally_of_mem hin, hcons, countSpreads_append, List.append_assoc]
    · have hskip : spreadsIn startMs endMs (x :: xs) = spreadsIn startMs endMs xs := by
        rw [spreadsIn, inRange, List.filter_cons_of_neg (by simpa using hin)]
        rfl
      rw [tally, if_neg hin, hskip]

theorem spreadSum_perm {ds ds' : List Int64} (h : ds.Perm ds') : spreadSum ds = spreadSum ds' :=
  h.foldl_eq' (fun x _ y _ z => by rw [Int64.add_assoc, Int64.add_comm x y, ← Int64.add_assoc]) 0

/-- The statistics, off the spreads. -/
def statsOf (spreads : List Int64) : ReconciliationStats :=
  if spreads.isEmpty then countSpreads {} spreads
  else { countSpreads {} spreads with
    maxSpreadMs := (Selection.maxByKey Int64.toInt spreads).getD 0
    minSpreadMs := (Selection.minByKey Int64.toInt spreads).getD 0
    avgSpreadMs := (spreadSum spreads).toFloat / spreads.length.toFloat }

theorem spreadStats_eq (r : BitemporalReconciler) (startMs endMs : Int64) :
    r.spreadStats startMs endMs = statsOf (spreadsIn startMs endMs r.all) := by
  rw [spreadStats, foldl_tally, List.nil_append]
  rfl

/-- No statistic depends on the order of the spreads. -/
theorem statsOf_perm {ds ds' : List Int64} (h : ds.Perm ds') : statsOf ds = statsOf ds' := by
  have hsep : ∀ x ∈ ds, ∀ y ∈ ds, x.toInt = y.toInt → x = y := fun x _ y _ hxy => Int64.toInt_inj.mp hxy
  have hcount : countSpreads {} ds = countSpreads {} ds' := by
    simp only [countSpreads, h.length_eq, h.countP_eq]
  have hempty : ds.isEmpty = ds'.isEmpty := by
    rw [Bool.eq_iff_iff, List.isEmpty_iff_length_eq_zero, List.isEmpty_iff_length_eq_zero, h.length_eq]
  rw [statsOf, statsOf, hcount, hempty, Selection.maxByKey_perm h hsep, Selection.minByKey_perm h hsep,
    spreadSum_perm h, h.length_eq]

/-- Histories with distinct times believe the same in any order. -/
theorem latest_perm {xs ys : List BitemporalRecord} (h : xs.Perm ys)
    (hdistinct : xs.Pairwise fun x y => x.tSystem ≠ y.tSystem) (t : Int64) : latest xs t = latest ys t := by
  refine Selection.maxByKey_perm (h.filter _) fun x hx y hy hxy => ?_
  by_contra hne
  have hsymm : Std.Symm fun x y : BitemporalRecord => x.tSystem ≠ y.tSystem := ⟨fun _ _ => Ne.symm⟩
  exact hdistinct.forall (List.mem_of_mem_filter hx) (List.mem_of_mem_filter hy) hne
    (Int64.toInt_inj.mp hxy)

/-- **Arrival order does not matter.**  Permuted ingests whose records have, entity by entity, distinct
    transaction times answer every query with the same spans and have the same statistics. -/
theorem queries_perm {spans spans' : List OtlpSpan} (h : spans.Perm spans')
    (hdistinct : (spans.map record).Pairwise fun x y =>
      x.entityId = y.entityId → x.tSystem ≠ y.tSystem) :
    let r := new.ingestAll spans
    let r' := new.ingestAll spans'
    (∀ a b, (r.queryValidTime a b).Perm (r'.queryValidTime a b)) ∧
    (∀ a b, (r.queryTransactionTime a b).Perm (r'.queryTransactionTime a b)) ∧
    (∀ t, (r.actualStateAt t).Perm (r'.actualStateAt t)) ∧
    (∀ t, (r.systemBeliefAt t).Perm (r'.systemBeliefAt t)) ∧
    (∀ a b, r.spreadStats a b = r'.spreadStats a b ∧
      spreadSum (spreadsIn a b r.all) = spreadSum (spreadsIn a b r'.all)) := by
  intro r r'
  have hall : r.all.Perm r'.all :=
    (all_ingestAll_new spans).trans ((h.map record).trans (all_ingestAll_new spans').symm)
  have hspreads : ∀ a b, (spreadsIn a b r.all).Perm (spreadsIn a b r'.all) :=
    fun a b => (hall.filter _).map spread
  refine ⟨fun a b => (hall.filter _).map _, fun a b => (hall.filter _).map _,
    fun t => (hall.filter _).map _, fun t => systemBeliefAt_perm fun e => ?_, fun a b => ?_⟩
  · -- the only place where the order of a history could show
    rw [history_ingestAll_new, history_ingestAll_new]
    refine latest_perm ((h.map record).filter _) ?_ t
    refine (hdistinct.filter _).imp_of_mem fun {x y} hx hy hxy => hxy ?_
    rw [of_decide_eq_true (List.mem_filter.mp hx).2, of_decide_eq_true (List.mem_filter.mp hy).2]
  · rw [spreadStats_eq, spreadStats_eq]
    exact ⟨statsOf_perm (hspreads a b), spreadSum_perm (hspreads a b)⟩

/-- Two readings of one sensor that overtook each other. -/
theorem queries_perm_overtaken :
    ((new.ingestAll [reading 50 100, reading 60 200]).systemBeliefAt 150).Perm
      ((new.ingestAll [reading 60 200, reading 50 100]).systemBeliefAt 150) := by
  refine (queries_perm (List.Perm.swap _ _ []) ?_).2.2.2.1 150
  refine List.pairwise_pair.mpr fun _ => ?_
  rw [(record_reading 50 100).2, (record_reading 60 200).2]
  decide

end BitemporalReconciler

end FloatProtocols
