/-
  The JSON export of `otel_converter.rs`, and what it makes of the bi-temporal marks.

  `from_compact` puts the marks in front of the span's own attributes, in one list.  The reconciler
  searches that list and finds the FIRST entry under a name; `to_json` inserts it into a map entry by
  entry and keeps the LAST.  So an attribute of the span that is named like a mark is harmless to the
  reconciler and replaces the mark in the export (`keepsMarks_iff`).
-/
import FloatProtocols.Lib.Json
import FloatProtocols.Otel.Reconciler

namespace FloatProtocols

open Wire InmarsatC Json

/-! ## Program -/

/-- The status text. -/
def OtlpStatus.text : OtlpStatus → String
  | .unset => "STATUS_UNSET"
  | .ok => "STATUS_OK"
  | .error => "STATUS_ERROR"

/-- Attributes as an object of strings. -/
def attributesJson (attributes : List (String × String)) : List (String × Json) :=
  ofPairs (attributes.map fun kv => (kv.1, .string kv.2))

/-- `OtlpSpan::to_json`. -/
def OtlpSpan.toJson (span : OtlpSpan) : Json :=
  let obj := put "traceId" (.string span.traceId) []
  let obj := put "spanId" (.string span.spanId) obj
  let obj := span.parentSpanId.elim obj fun parent => put "parentSpanId" (.string parent) obj
  let obj := put "name" (.string span.name) obj
  let obj := put "startTimeUnixNano" (.number span.startTimeUnixNano) obj
  let obj := put "endTimeUnixNano" (.number span.endTimeUnixNano) obj
  let obj := put "status" (.string span.status.text) obj
  .object (put "attributes" (.object (attributesJson span.attributes)) obj)

/-- `OtlpExportRequest::to_json`. -/
def OtlpExportRequest.toJson (r : OtlpExportRequest) : Json :=
  let resourceAttrs := Json.object (attributesJson r.resourceAttributes)
  let scopeSpans := Json.object (put "spans" (.array (r.spans.map OtlpSpan.toJson)) [])
  let resourceSpans := Json.object
    (put "scopeSpans" (.array [scopeSpans]) (put "resource" resourceAttrs []))
  .object (put "resourceSpans" (.array [resourceSpans]) (put "resource" resourceAttrs []))

/-! ## Attributes in the export -/

/-- The attribute of an exported span. -/
def OtlpSpan.exported (span : OtlpSpan) (key : String) : Option Json :=
  (span.toJson.field "attributes").bind (field key)

/-- An attribute is exported with the last of its values. -/
theorem OtlpSpan.exported_eq (span : OtlpSpan) (key : String) :
    span.exported key = (lastValue span.attributes key).map Json.string := by
  have hattrs : span.toJson.field "attributes" = some (.object (attributesJson span.attributes)) := by
    rw [OtlpSpan.toJson, field, get_put, if_pos rfl]
  rw [OtlpSpan.exported, hattrs, Option.bind_some, field, attributesJson, get_ofPairs,
    lastValue_map Json.string]

/-! ## The marks -/

namespace CompactSpan

/-- The marks of a span, as `from_compact` writes them. -/
def marks (s : CompactSpan) : List (String × String) :=
  [("t_event", Decimal.showI64 s.tEvent), ("t_system", Decimal.showI64 s.tSystem),
   ("sensor_id", s.sensorId)]

/-- The export of a span has its marks. -/
def KeepsMarks (hexEncode : Bytes → String) (s : CompactSpan) : Prop :=
  ∀ kv ∈ s.marks, (OtlpSpan.fromCompact hexEncode s).exported kv.1 = some (.string kv.2)

/-- No attribute is named like a mark, unless the last one of that name has the mark's own value. -/
def Unshadowed (s : CompactSpan) : Prop :=
  ∀ kv ∈ s.marks, ∀ v, lastValue s.attributes kv.1 = some v → v = kv.2

instance (s : CompactSpan) : Decidable s.Unshadowed :=
  decidable_of_iff (∀ kv ∈ s.marks, lastValue s.attributes kv.1 = none ∨
      lastValue s.attributes kv.1 = some kv.2) <| by
    refine forall₂_congr fun kv _ => ?_
    cases lastValue s.attributes kv.1 <;> simp

/-- A mark is exported as what the last attribute of its name says, if there is one. -/
theorem exported_mark (hexEncode : Bytes → String) (s : CompactSpan) {kv : String × String}
    (h : kv ∈ s.marks) :
    (OtlpSpan.fromCompact hexEncode s).exported kv.1 =
      some (.string ((lastValue s.attributes kv.1).getD kv.2)) := by
  have hfront : lastValue [("t_event", Decimal.showI64 s.tEvent),
      ("t_system", Decimal.showI64 s.tSystem), ("sensor_id", s.sensorId),
      ("spread_ms", Decimal.showI64 (s.tSystem - s.tEvent))] kv.1 = some kv.2 := by
    simp only [marks, List.mem_cons, List.not_mem_nil, or_false] at h
    rcases h with rfl | rfl | rfl <;> rfl
  rw [OtlpSpan.exported_eq, OtlpSpan.fromCompact, lastValue_append, hfront]
  cases lastValue s.attributes kv.1 <;> rfl

/-- **When the export keeps the marks.**  The reconciler reads the two times of every span as they
    are; the export has them, and the sensor's id, exactly when no attribute shadows them. -/
theorem keepsMarks_iff (hexEncode : Bytes → String) (s : CompactSpan) :
    (BitemporalReconciler.extractTEvent (.fromCompact hexEncode s) = s.tEvent ∧
      BitemporalReconciler.extractTSystem (.fromCompact hexEncode s) = s.tSystem) ∧
    (s.KeepsMarks hexEncode ↔ s.Unshadowed) := by
  refine ⟨BitemporalReconciler.record_fromCompact hexEncode s, forall₂_congr fun kv hkv => ?_⟩
  rw [exported_mark hexEncode s hkv]
  cases lastValue s.attributes kv.1 with
  | none => simp
  | some v => simp

example : ¬ Unshadowed BitemporalReconciler.shadowSpan := by decide

end CompactSpan

/-- A span with attributes named like its times: the reconciler reads -1 and 5, the export says 7
    and x. -/
theorem shadowSpan_exported :
    (BitemporalReconciler.extractTEvent (.fromCompact hexText BitemporalReconciler.shadowSpan) = -1 ∧
      BitemporalReconciler.extractTSystem (.fromCompact hexText BitemporalReconciler.shadowSpan) = 5) ∧
    (OtlpSpan.fromCompact hexText BitemporalReconciler.shadowSpan).exported "t_event" = some (.string "7") ∧
    (OtlpSpan.fromCompact hexText BitemporalReconciler.shadowSpan).exported "t_system" = some (.string "x") ∧
    ¬ BitemporalReconciler.shadowSpan.KeepsMarks hexText := by
  have hevent : (OtlpSpan.fromCompact hexText BitemporalReconciler.shadowSpan).exported "t_event" =
      some (.string "7") :=
    CompactSpan.exported_mark hexText BitemporalReconciler.shadowSpan List.mem_cons_self
  have hsystem : (OtlpSpan.fromCompact hexText BitemporalReconciler.shadowSpan).exported "t_system" =
      some (.string "x") :=
    CompactSpan.exported_mark hexText BitemporalReconciler.shadowSpan
      (List.mem_cons_of_mem _ List.mem_cons_self)
  refine ⟨BitemporalReconciler.record_fromCompact hexText BitemporalReconciler.shadowSpan, hevent,
    hsystem, ?_⟩
  intro h
  have hkept := h _ List.mem_cons_self
  rw [hevent, Option.some.injEq, Json.string.injEq] at hkept
  exact absurd hkept (by decide)

end FloatProtocols
