/-
  The bi-temporal reconciler of `otel_reconciler.rs`, and what a bundle looks like to it.

  1. **Program** — `BitemporalReconciler` keeps a list of records under each entity id
     (`trace:span`); `ingest` reads the two times back from a span's attributes and pushes a record.

  2. **One ingest (`history_ingest`)** — it appends one record to one entity's history.

  3. **The trip of the marks** — a time is printed into an attribute list that the span's own
     attributes share, found again by the FIRST match and parsed: `fromCompact` puts the marks in
     front, so no attribute of the span can shadow them (`recordMarks_fromCompact`).

  4. **The whole way (`recorded_iff`)** — encoder, decoder, conversion, ingestion.  A bundle of type
     `None` that caches nothing is recorded span by span.  `with_compression(None)` keeps the cache,
     though, and then the cached bytes go out under type `None`.
-/
import Mathlib.Data.List.AList
import FloatProtocols.Otel.BundleSpans
import FloatProtocols.Otel.Converter

namespace FloatProtocols

open Wire Wire.Reader InmarsatC TelemetryBundle

/-! ## Program -/

/-- `BitemporalRecord`. -/
structure BitemporalRecord where
  entityId : String
  tEvent : Int64
  tSystem : Int64
  span : OtlpSpan
  deriving DecidableEq

/-- `BitemporalReconciler`. -/
structure BitemporalReconciler where
  records : AList fun _ : String => List BitemporalRecord

/-- An i64 attribute: the first under its key, 0 when there is none or it is not a number. -/
def OtlpSpan.extract (key : String) (span : OtlpSpan) : Int64 :=
  ((span.attributes.find? fun kv => kv.1 == key).bind fun kv => Decimal.parseI64 kv.2).getD 0

namespace BitemporalReconciler

/-- `extract_t_event`. -/
def extractTEvent (span : OtlpSpan) : Int64 := span.extract "t_event"

/-- `extract_t_system`. -/
def extractTSystem (span : OtlpSpan) : Int64 := span.extract "t_system"

/-- `format!("{}:{}", trace_id, span_id)`. -/
def entityKey (traceId spanId : String) : String := traceId ++ ":" ++ spanId

/-- `BitemporalReconciler::new`. -/
def new : BitemporalReconciler := { records := ∅ }

/-- The record that `ingest` makes of a span. -/
def record (span : OtlpSpan) : BitemporalRecord where
  entityId := entityKey span.traceId span.spanId
  tEvent := extractTEvent span
  tSystem := extractTSystem span
  span := span

/-- `records.entry(entity_id).or_default().push(record)`. -/
def push (r : BitemporalReconciler) (record : BitemporalRecord) : BitemporalReconciler where
  records := r.records.insert record.entityId
    ((r.records.lookup record.entityId).getD [] ++ [record])

/-- `ingest`. -/
def ingest (r : BitemporalReconciler) (span : OtlpSpan) : BitemporalReconciler :=
  r.push (record span)

/-- `entity_history`, of the entity with id `e`. -/
def history (r : BitemporalReconciler) (e : String) : List BitemporalRecord :=
  (r.records.lookup e).getD []

/-- `entity_history`. -/
def entityHistory (r : BitemporalReconciler) (traceId spanId : String) : List BitemporalRecord :=
  r.history (entityKey traceId spanId)

/-- Spans ingested one after the other. -/
def ingestAll (r : BitemporalReconciler) (spans : List OtlpSpan) : BitemporalReconciler :=
  spans.foldl ingest r

/-! ## One ingest -/

/-- A pushed record is the last of its entity's history, and of no other. -/
theorem history_push (r : BitemporalReconciler) (x : BitemporalRecord) (e : String) :
    (r.push x).history e = r.history e ++ if e = x.entityId then [x] else [] := by
  by_cases he : e = x.entityId
  · subst he
    rw [if_pos rfl, history, push, AList.lookup_insert]
    rfl
  · rw [if_neg he, List.append_nil, history, push, AList.lookup_insert_ne he]
    rfl

theorem history_ingest (r : BitemporalReconciler) (span : OtlpSpan) (e : String) :
    (r.ingest span).history e =
      r.history e ++ if e = (record span).entityId then [record span] else [] :=
  history_push r (record span) e

/-- Of a run of ingests, the one at place `i` adds the record of its span. -/
theorem history_ingestAll_take (r : BitemporalReconciler) {spans : List OtlpSpan} {i : Nat}
    {span : OtlpSpan} (hi : spans[i]? = some span) (e : String) :
    (r.ingestAll (spans.take (i + 1))).history e =
      (r.ingestAll (spans.take i)).history e ++
        if e = (record span).entityId then [record span] else [] := by
  rw [List.take_add_one, hi, Option.toList_some, ingestAll, List.foldl_append, List.foldl_cons,
    List.foldl_nil, history_ingest]
  rfl

/-- From one state to the next, one record was added: at the end of its entity's history. -/
def Creates (r r' : BitemporalReconciler) (x : BitemporalRecord) : Prop :=
  ∀ e, r'.history e = r.history e ++ if e = x.entityId then [x] else []

theorem Creates.unique {r r' : BitemporalReconciler} {x y : BitemporalRecord}
    (hx : Creates r r' x) (hy : Creates r r' y) : x = y := by
  have h := hx x.entityId
  rw [hy x.entityId, if_pos rfl, List.append_cancel_left_eq] at h
  split at h
  · exact (List.cons.inj h).1.symm
  · exact absurd h (by simp)

/-! ## The trip of the marks -/

/-- A printed time in front of everything else under its key is read back. -/
theorem extract_of_find {span : OtlpSpan} {key : String} {x : Int64}
    (h : (span.attributes.find? fun kv => kv.1 == key) = some (key, Decimal.showI64 x)) :
    span.extract key = x := by
  rw [OtlpSpan.extract, h, Option.bind_some, Decimal.parseI64_showI64, Option.getD_some]

section

variable (hexEncode : Bytes → String)

/-- The entity and the two times of a span. -/
def spanMarks (s : CompactSpan) : String × Int64 × Int64 :=
  (entityKey (hexEncode s.traceId.val) (hexEncode s.spanId.val), s.tEvent, s.tSystem)

/-- The entity and the two times of a record. -/
def recordMarks (x : BitemporalRecord) : String × Int64 × Int64 := (x.entityId, x.tEvent, x.tSystem)

/-- **No attribute of the span gets between its times and its record.** -/
theorem recordMarks_fromCompact (s : CompactSpan) :
    recordMarks (record (.fromCompact hexEncode s)) = spanMarks hexEncode s := by
  have hevent : extractTEvent (.fromCompact hexEncode s) = s.tEvent := extract_of_find (by
    rw [OtlpSpan.fromCompact, List.cons_append, List.find?_cons_of_pos (by simp)])
  -- the search for `t_system` passes `t_event` and no more
  have hsystem : extractTSystem (.fromCompact hexEncode s) = s.tSystem := extract_of_find (by
    rw [OtlpSpan.fromCompact, List.cons_append, List.find?_cons_of_neg (by simp), List.cons_append,
      List.find?_cons_of_pos (by simp)])
  rw [recordMarks, record, hevent, hsystem]
  rfl

theorem record_fromCompact (s : CompactSpan) :
    (record (.fromCompact hexEncode s)).tEvent = s.tEvent ∧
    (record (.fromCompact hexEncode s)).tSystem = s.tSystem := by
  have h := recordMarks_fromCompact hexEncode s
  exact ⟨congrArg (·.2.1) h, congrArg (·.2.2) h⟩

/-! ## The whole way -/

/-- `decode(encode(bundle))` returns, and ingesting `from_bundle` of it span by span creates, for the
    `i`-th span, a record of its entity and its two times. -/
def Recorded (k : Codecs) (b : TelemetryBundle) (r : BitemporalReconciler) : Prop :=
  ∃ b', decode k b.encode = .ok b' ∧
    let spans := (OtlpExportRequest.fromBundle hexEncode b').spans
    spans.length = b.spans.length ∧
    ∀ i s, b.spans[i]? = some s → ∃ x, recordMarks x = spanMarks hexEncode s ∧
      Creates (r.ingestAll (spans.take i)) (r.ingestAll (spans.take (i + 1))) x

/-- Ingesting `spans'` records `spans` exactly when they agree in their marks. -/
theorem creates_iff_marks (r : BitemporalReconciler) (spans spans' : List CompactSpan) :
    (spans'.length = spans.length ∧ ∀ i s, spans[i]? = some s → ∃ x, recordMarks x = spanMarks hexEncode s ∧
      Creates (r.ingestAll ((spans'.map (OtlpSpan.fromCompact hexEncode)).take i))
        (r.ingestAll ((spans'.map (OtlpSpan.fromCompact hexEncode)).take (i + 1))) x) ↔
    spans'.map (spanMarks hexEncode) = spans.map (spanMarks hexEncode) := by
  have hcreates : ∀ {i s'}, spans'[i]? = some s' →
      Creates (r.ingestAll ((spans'.map (OtlpSpan.fromCompact hexEncode)).take i))
        (r.ingestAll ((spans'.map (OtlpSpan.fromCompact hexEncode)).take (i + 1)))
        (record (.fromCompact hexEncode s')) :=
    fun {i s'} hi e => history_ingestAll_take r (by rw [List.getElem?_map, hi, Option.map_some]) e
  constructor
  · rintro ⟨hlen, hall⟩
    refine List.ext_getElem (by rw [List.length_map, List.length_map, hlen]) fun i hi' hi => ?_
    rw [List.length_map] at hi hi'
    obtain ⟨x, hx, hxi⟩ := hall i spans[i] (List.getElem?_eq_getElem hi)
    -- the record that was created is the one `ingest` makes
    obtain rfl := hxi.unique (hcreates (List.getElem?_eq_getElem hi'))
    rw [List.getElem_map, List.getElem_map, ← hx, recordMarks_fromCompact]
  · intro h
    have hlen : spans'.length = spans.length := by
      have := congrArg List.length h
      rwa [List.length_map, List.length_map] at this
    refine ⟨hlen, fun i s hi => ?_⟩
    have hmap := congrArg (·[i]?) h
    simp only [List.getElem?_map, hi, Option.map_some] at hmap
    obtain ⟨s', hs', hmarks⟩ := Option.map_eq_some_iff.mp hmap
    exact ⟨_, (recordMarks_fromCompact hexEncode s').trans hmarks, hcreates hs'⟩

/-- What is recorded is what the chunks that were sent hold. -/
theorem recorded_iff_chunks (k : Codecs) {b : TelemetryBundle} (hc : b.compressionType = .none)
    (hlen : b.payload.length < 2 ^ 32) (r : BitemporalReconciler) :
    Recorded hexEncode k b r ↔
      ∃ spans, rawSpans b.payload = .ok spans ∧
        spans.map (spanMarks hexEncode) = b.spans.map (spanMarks hexEncode) := by
  rw [Recorded, decode_encode_none k hc, sent_eq_payload hlen]
  simp only [OtlpExportRequest.spans_fromBundle, List.length_map, ← creates_iff_marks hexEncode r]
  constructor
  · rintro ⟨b', hb', hall⟩
    obtain ⟨spans, hspans, hb'⟩ := Exec.bind_eq_ok.mp hb'
    obtain rfl := Exec.ok.inj hb'
    exact ⟨spans, hspans, hall⟩
  · rintro ⟨spans, hspans, hall⟩
    rw [hspans]
    exact ⟨_, rfl, hall⟩

/-- **Which bundles of type `None` reach the reconciler with their marks.**  Those that cache
    nothing; and, by chance, one whose cached bytes are chunks of spans with the same marks. -/
theorem recorded_iff (k : Codecs) {b : TelemetryBundle} (hc : b.compressionType = .none)
    (hs : ∀ s ∈ b.spans, CompactSpan.WithinLimits s) (hlen : b.payload.length < 2 ^ 32)
    (r : BitemporalReconciler) :
    Recorded hexEncode k b r ↔ b.compressedData = none ∨
      ∃ data spans, b.compressedData = some data ∧ rawSpans data = .ok spans ∧
        spans.map (spanMarks hexEncode) = b.spans.map (spanMarks hexEncode) := by
  rw [recorded_iff_chunks hexEncode k hc hlen, payload]
  cases hdata : b.compressedData with
  | none => exact iff_of_true ⟨b.spans, rawSpans_rawData hs, rfl⟩ (.inl rfl)
  | some data => simp only [Option.getD_some, reduceCtorEq, false_or, Option.some.injEq,
      exists_and_left, exists_eq_left']

end

/-- A span with an attribute that is named like its own time. -/
def shadowSpan : CompactSpan :=
  { blankSpan .ok with tEvent := -1, tSystem := 5, attributes := [("t_event", "7"), ("t_system", "x")] }

/-- It is recorded with its times, not with those of the attributes. -/
theorem recorded_iff_shadow :
    Recorded hexText spellCodecs ((TelemetryBundle.new 1 0).addSpan shadowSpan) .new := by
  have hs : ∀ s ∈ [shadowSpan], CompactSpan.WithinLimits s := by
    intro s hs
    obtain rfl := List.mem_singleton.mp hs
    refine ⟨Nat.zero_le _, Nat.zero_le _, ?_, by decide⟩
    unfold CompactSpan.Short
    decide
  exact (recorded_iff hexText spellCodecs rfl hs (by decide) .new).mpr (.inl rfl)

/-- Compressed, and then taken back: the cache stays. -/
def revertedCalls : List Call :=
  [.addSpan (blankSpan .ok), .withCompression .zstd, .compress 3, .withCompression .none]

theorem build_reverted {k : Codecs} (hk : LawfulCodecs k) :
    ∃ z, build k 1 0 revertedCalls = ⟨1, 0, .none, [blankSpan .ok], some (magic .zstd :: z)⟩ := by
  obtain ⟨z, hz, -⟩ := hk.zstd.inverts 3 (rawData [blankSpan .ok])
  refine ⟨z, ?_⟩
  simp only [build, revertedCalls, List.foldl_cons, List.foldl_nil, Call.apply, addSpan,
    withCompression, compress, TelemetryBundle.new, List.nil_append, List.cons_ne_self, if_false, hz]

/-- The bundle is of type `None` and small, and its span is lost with every library that behaves as
    documented: its bytes, read as chunks, announce a span of half a gigabyte. -/
theorem reverted_unrecorded :
    (LawfulCodecs spellCodecs ∧ (build spellCodecs 1 0 revertedCalls).payload.length ≤ 2 ^ 28) ∧
    ∀ k, LawfulCodecs k → (build k 1 0 revertedCalls).payload.length ≤ 2 ^ 28 →
      (build k 1 0 revertedCalls).compressionType = .none ∧
      (∀ s ∈ (build k 1 0 revertedCalls).spans, CompactSpan.WithinLimits s) ∧
      ∀ hexEncode r, ¬ Recorded hexEncode k (build k 1 0 revertedCalls) r := by
  refine ⟨⟨lawful_spellCodecs, by decide +kernel⟩, fun k hk hlen => ?_⟩
  obtain ⟨z, hz⟩ := build_reverted hk
  rw [hz] at hlen ⊢
  refine ⟨rfl, fun s hs => ?_, fun hexEncode r hrec => ?_⟩
  · obtain rfl := List.mem_singleton.mp hs
    exact withinLimits_blankSpan .ok
  · obtain ⟨spans, hspans, hmarks⟩ := (recorded_iff_chunks hexEncode k rfl (by omega) r).mp hrec
    -- a span can only be found behind a chunk length, and that is the magic number
    have hne : spans ≠ [] := by
      rintro rfl
      exact absurd hmarks (by simp)
    obtain ⟨x, t, hx, hframe⟩ := exists_frame_of_rawSpans hspans hne
    have htop := length_of_frame_eq_cons hx hframe.symm
    rw [hframe, List.length_append, length_frame] at hlen
    have hmagic : (magic .zstd).toNat = 0x28 := rfl
    omega

end BitemporalReconciler

end FloatProtocols
