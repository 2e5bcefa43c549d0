/-
  Spread statistics against exact arithmetic.

  The spread of a span is `t_system - t_event`, taken on i64 values that may be anything a span can
  carry: once by `from_compact`, which prints it, and once for each record by `spread_stats`.  The
  meaning is the difference over the integers (`gap`).  What the statistics say of the numbers they
  are given is always right (`statsOf_reports`); whether these numbers are the gaps is one question
  for each span, and the answer is the same for the sign, the extremes and the printed attribute:
  the gap has to fit an i64 (`toInt_wrapped`, `spreads_exact_iff`).
-/
import FloatProtocols.Otel.Beliefs

namespace FloatProtocols

open Wire InmarsatC BitemporalReconciler

/-! ## The gap and the wrapped difference -/

namespace CompactSpan

/-- The exact difference of a span's times. -/
def gap (s : CompactSpan) : Int := s.tSystem.toInt - s.tEvent.toInt

/-- The difference in the arithmetic of the release profile. -/
def wrapped (s : CompactSpan) : Int64 := s.tSystem - s.tEvent

/-- The exact difference is an i64. -/
def GapFits (s : CompactSpan) : Prop := -2 ^ 63 ≤ s.gap ∧ s.gap < 2 ^ 63

instance (s : CompactSpan) : Decidable s.GapFits := inferInstanceAs (Decidable (_ ∧ _))

theorem toInt_wrapped (s : CompactSpan) : s.wrapped.toInt = s.gap ↔ s.GapFits := by
  rw [wrapped, Int64.toInt_sub, GapFits, gap, Int.bmod_def]
  split <;> omega

/-- An overflow turns the sign around, so the sign alone tells it. -/
theorem sign_wrapped (s : CompactSpan) :
    ((0 < s.wrapped ↔ 0 < s.gap) ∧ (s.wrapped < 0 ↔ s.gap < 0)) ↔ s.GapFits := by
  have hsys := s.tSystem.toInt_lt
  have hsys' := s.tSystem.le_toInt
  have hevent := s.tEvent.toInt_lt
  have hevent' := s.tEvent.le_toInt
  have hzero : (0 : Int64).toInt = 0 := rfl
  rw [Int64.lt_iff_toInt_lt, Int64.lt_iff_toInt_lt, hzero, wrapped, Int64.toInt_sub, GapFits, gap,
    Int.bmod_def]
  split <;> omega

end CompactSpan

/-! ## What the statistics say of their numbers -/

/-- Counts by sign, and the extremes. -/
structure Reports (stats : ReconciliationStats) (gaps : List Int) : Prop where
  positive : stats.positiveSpread = gaps.countP fun g => 0 < g
  negative : stats.negativeSpread = gaps.countP fun g => g < 0
  zero : stats.zeroSpread = gaps.countP fun g => g = 0
  max : gaps ≠ [] → stats.maxSpreadMs.toInt ∈ gaps ∧ ∀ g ∈ gaps, g ≤ stats.maxSpreadMs.toInt
  min : gaps ≠ [] → stats.minSpreadMs.toInt ∈ gaps ∧ ∀ g ∈ gaps, stats.minSpreadMs.toInt ≤ g

namespace BitemporalReconciler

theorem statsOf_counts (ds : List Int64) :
    (statsOf ds).positiveSpread = ds.countP (fun d => d > 0) ∧
    (statsOf ds).negativeSpread = ds.countP (fun d => ¬ d > 0 ∧ d < 0) ∧
    (statsOf ds).zeroSpread = ds.countP (fun d => ¬ d > 0 ∧ ¬ d < 0) := by
  rw [statsOf]
  split <;> exact ⟨Nat.zero_add _, Nat.zero_add _, Nat.zero_add _⟩

theorem statsOf_extremes {ds : List Int64} (hne : ds ≠ []) :
    ((statsOf ds).maxSpreadMs ∈ ds ∧ ∀ d ∈ ds, d.toInt ≤ (statsOf ds).maxSpreadMs.toInt) ∧
    (statsOf ds).minSpreadMs ∈ ds ∧ ∀ d ∈ ds, (statsOf ds).minSpreadMs.toInt ≤ d.toInt := by
  rw [statsOf, if_neg (by rwa [List.isEmpty_iff])]
  obtain ⟨x, hx⟩ := Option.ne_none_iff_exists'.mp fun h => hne (Selection.reduce_eq_none_iff.mp h)
  obtain ⟨y, hy⟩ := Option.ne_none_iff_exists'.mp fun h => hne (Selection.reduce_eq_none_iff.mp h)
  have hmax := (Selection.keeps_max Int64.toInt).reduce ds x hx
  have hmin := (Selection.keeps_min Int64.toInt).reduce ds y hy
  have hx' : Selection.maxByKey Int64.toInt ds = some x := hx
  have hy' : Selection.minByKey Int64.toInt ds = some y := hy
  rw [hx', hy', Option.getD_some, Option.getD_some]
  exact ⟨hmax, hmin⟩

/-- Numbers are counted alike as i64 and as integers. -/
theorem countP_toInt (ds : List Int64) {q : Int64 → Prop} {r : Int → Prop} [DecidablePred q]
    [DecidablePred r] (h : ∀ d, q d ↔ r d.toInt) :
    ds.countP (fun d => q d) = (ds.map Int64.toInt).countP fun g => r g := by
  rw [List.countP_map]
  refine List.countP_congr fun d _ => ?_
  rw [Function.comp_apply, decide_eq_true_eq, decide_eq_true_eq]
  exact h d

/-- **The statistics are right about the numbers they are given.** -/
theorem statsOf_reports (ds : List Int64) : Reports (statsOf ds) (ds.map Int64.toInt) := by
  obtain ⟨hpos, hneg, hzero⟩ := statsOf_counts ds
  have hlt : ∀ d : Int64, d > 0 ↔ 0 < d.toInt := fun d => Int64.lt_iff_toInt_lt
  have hgt : ∀ d : Int64, d < 0 ↔ d.toInt < 0 := fun d => Int64.lt_iff_toInt_lt
  refine ⟨?_, ?_, ?_, ?_, ?_⟩
  · exact hpos.trans (countP_toInt ds hlt)
  · refine hneg.trans (countP_toInt ds fun d => ?_)
    rw [hlt, hgt]
    omega
  · refine hzero.trans (countP_toInt ds fun d => ?_)
    rw [hlt, hgt]
    omega
  · intro hne
    obtain ⟨⟨hmem, hle⟩, -⟩ := statsOf_extremes (mt List.map_eq_nil_iff.mpr hne)
    exact ⟨List.mem_map_of_mem hmem, List.forall_mem_map.mpr hle⟩
  · intro hne
    obtain ⟨-, hmem, hle⟩ := statsOf_extremes (mt List.map_eq_nil_iff.mpr hne)
    exact ⟨List.mem_map_of_mem hmem, List.forall_mem_map.mpr hle⟩

/-! ## Spans, converted and ingested -/

section

variable (hexEncode : Bytes → String)

theorem spread_fromCompact (s : CompactSpan) : spread (record (.fromCompact hexEncode s)) = s.wrapped := by
  rw [spread, (record_fromCompact hexEncode s).1, (record_fromCompact hexEncode s).2]
  rfl

/-- The spans whose transaction time is in a range. -/
def spansIn (startMs endMs : Int64) (spans : List CompactSpan) : List CompactSpan :=
  spans.filter fun s => s.tSystem ≥ startMs ∧ s.tSystem ≤ endMs

/-- The statistics of ingested spans are those of their wrapped differences. -/
theorem spreadStats_ingested (spans : List CompactSpan) (startMs endMs : Int64) :
    (new.ingestAll (spans.map (OtlpSpan.fromCompact hexEncode))).spreadStats startMs endMs =
      statsOf ((spansIn startMs endMs spans).map CompactSpan.wrapped) := by
  rw [spreadStats_eq]
  have hall := all_ingestAll_new (spans.map (OtlpSpan.fromCompact hexEncode))
  refine (statsOf_perm ((hall.filter _).map spread)).trans (congrArg statsOf ?_)
  rw [List.map_map, List.filter_map, List.map_map, spansIn]
  have hfilter : (spans.filter ((fun x : BitemporalRecord => decide (x.tSystem ≥ startMs ∧ x.tSystem ≤ endMs)) ∘
      record ∘ OtlpSpan.fromCompact hexEncode)) =
      spans.filter fun s => s.tSystem ≥ startMs ∧ s.tSystem ≤ endMs := by
    refine List.filter_congr fun s _ => ?_
    simp only [Function.comp_apply, (record_fromCompact hexEncode s).2]
  rw [hfilter]
  exact List.map_congr_left fun s _ => spread_fromCompact hexEncode s

/-- Conversion and statistics agree with exact arithmetic: the class of each record, the counters and
    the extremes of every range, and the printed attribute. -/
structure Exact (spans : List CompactSpan) : Prop where
  sign : ∀ s ∈ spans, (0 < spread (record (.fromCompact hexEncode s)) ↔ 0 < s.gap) ∧
    (spread (record (.fromCompact hexEncode s)) < 0 ↔ s.gap < 0)
  stats : ∀ startMs endMs, Reports
    ((new.ingestAll (spans.map (OtlpSpan.fromCompact hexEncode))).spreadStats startMs endMs)
    ((spansIn startMs endMs spans).map CompactSpan.gap)
  printed : ∀ s ∈ spans,
    (OtlpSpan.fromCompact hexEncode s).attributes[3]? = some ("spread_ms", toString s.gap)

/-- **When the spreads are exact**: for every list of spans, exactly when no difference of their times
    leaves the range of an i64. -/
theorem spreads_exact_iff (spans : List CompactSpan) : Exact hexEncode spans ↔ ∀ s ∈ spans, s.GapFits := by
  constructor
  · intro h s hs
    have hsign := h.sign s hs
    rw [spread_fromCompact] at hsign
    exact s.sign_wrapped.mp hsign
  · intro h
    refine ⟨?_, ?_, ?_⟩
    · intro s hs
      rw [spread_fromCompact]
      exact s.sign_wrapped.mpr (h s hs)
    · intro startMs endMs
      have hgaps : ((spansIn startMs endMs spans).map CompactSpan.wrapped).map Int64.toInt =
          (spansIn startMs endMs spans).map CompactSpan.gap := by
        rw [List.map_map]
        refine List.map_congr_left fun s hs => ?_
        exact s.toInt_wrapped.mpr (h s (List.mem_of_mem_filter hs))
      rw [spreadStats_ingested, ← hgaps]
      exact statsOf_reports _
    · intro s hs
      rw [← s.toInt_wrapped.mpr (h s hs)]
      rfl

end

/-- A span from before the epoch that was recorded at the end of time. -/
def farSpan : CompactSpan :=
  { TelemetryBundle.blankSpan .ok with tEvent := -1, tSystem := Int64.maxValue }

/-- Its spread is 2⁶³: it can be decoded, is counted as from the future, and is reported with a
    minimum and maximum of -2⁶³. -/
theorem farSpan_inexact :
    CompactSpan.decode farSpan.encode = .ok farSpan ∧ farSpan.gap = 2 ^ 63 ∧
    ((new.ingestAll [.fromCompact hexText farSpan]).spreadStats Int64.minValue Int64.maxValue).negativeSpread = 1 ∧
    ((new.ingestAll [.fromCompact hexText farSpan]).spreadStats Int64.minValue Int64.maxValue).maxSpreadMs =
      Int64.minValue ∧
    (OtlpSpan.fromCompact hexText farSpan).attributes[3]? = some ("spread_ms", "-9223372036854775808") ∧
    ¬ Exact hexText [farSpan] := by
  have hstats := spreadStats_ingested hexText [farSpan] Int64.minValue Int64.maxValue
  rw [List.map_singleton] at hstats
  have hlim : CompactSpan.WithinLimits farSpan :=
    ⟨Nat.zero_le _, Nat.zero_le _, fun _ h => absurd h List.not_mem_nil, Nat.zero_le _⟩
  refine ⟨CompactSpan.decode_eq_ok.mpr ⟨hlim, [], (List.append_nil _).symm⟩, rfl, ?_, ?_, ?_, ?_⟩
  · rw [hstats]
    decide
  · rw [hstats]
    decide
  · decide
  · intro h
    have hsign := h.sign farSpan List.mem_cons_self
    rw [spread_fromCompact] at hsign
    exact absurd hsign (by decide)

end BitemporalReconciler

end FloatProtocols
