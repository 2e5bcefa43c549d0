/-
  Collectors on the ground: bundles come in as packets, in any order, some of them twice, and two
  collectors need not have received them alike.

  1. **Program** — `receive` is the way of one packet through the three modules that read it:
     `TelemetryBundle::decode`, `OtlpExportRequest::from_bundle`, and `ingest` for each span.

  2. **What a collector knows** — after any run of packets the records are those of the spans that were
     sent, so the belief about an entity is its newest span up to the time asked about (`Newest`).
     Entities are told apart by the ids of the spans: as `hex::encode` is documented, the printed key is
     injective (`entity_inj`).

  3. **Convergence (`collectors_converge`)** — `Newest` does not see the order of the packets, how often
     each came or which spans shared one, so collectors that received the same spans believe the same
     at every time.  What it takes is that one entity has no two different spans of one `t_system`.
-/
import FloatProtocols.Otel.Beliefs
import FloatProtocols.Otel.BundleSpans

namespace FloatProtocols

open Wire InmarsatC TelemetryBundle

/-! ## Entities -/

theorem InmarsatC.hexText_inj {bs bs' : Bytes} (h : hexText bs = hexText bs') : bs = bs' := by
  have hread := hexInverts_readHex bs
  rw [h, hexInverts_readHex bs'] at hread
  exact (Option.some.inj hread).symm

namespace BitemporalReconciler

variable (hexEncode : Bytes → String)

/-- The entity of a span, as its record is filed. -/
def entity (s : CompactSpan) : String := entityKey (hexEncode s.traceId.val) (hexEncode s.spanId.val)

theorem entityId_fromCompact (s : CompactSpan) :
    (record (.fromCompact hexEncode s)).entityId = entity hexEncode s := rfl

/-! ## Program -/

/-- One packet: decoded, converted, ingested. -/
def receive (k : Codecs) (r : BitemporalReconciler) (packet : Bytes) :
    Exec String BitemporalReconciler := do
  let bundle ← decode k packet
  .ok (r.ingestAll (OtlpExportRequest.fromBundle hexEncode bundle).spans)

/-- Packets, one after the other. -/
def collect (k : Codecs) (packets : List Bytes) : Exec String BitemporalReconciler :=
  packets.foldlM (receive hexEncode k) new

/-- A bundle that its packet carries whole: not compressed, spans within the limits of their length
    fields, less than 2³² bytes of them. -/
structure Deliverable (b : TelemetryBundle) : Prop where
  plain : b.compressionType = .none
  fresh : b.compressedData = none
  within : ∀ s ∈ b.spans, s.WithinLimits
  short : (rawData b.spans).length < 2 ^ 32

/-- All spans of a run of bundles. -/
def spansOf (bundles : List TelemetryBundle) : List CompactSpan := bundles.flatMap (·.spans)

/-- The packet of a deliverable bundle brings its spans. -/
theorem receive_encode (k : Codecs) (r : BitemporalReconciler) {b : TelemetryBundle}
    (h : Deliverable b) :
    receive hexEncode k r b.encode = .ok (r.ingestAll (b.spans.map (.fromCompact hexEncode))) := by
  rw [receive, decode_encode_none k h.plain, sent_eq_rawData h.fresh h.short, rawSpans_rawData h.within,
    Exec.ok_bind, Exec.ok_bind, OtlpExportRequest.spans_fromBundle]

theorem foldlM_receive (k : Codecs) : ∀ {bundles : List TelemetryBundle},
    (∀ b ∈ bundles, Deliverable b) → ∀ r : BitemporalReconciler,
      (bundles.map TelemetryBundle.encode).foldlM (receive hexEncode k) r =
        .ok (r.ingestAll ((spansOf bundles).map (.fromCompact hexEncode)))
  | [], _, r => rfl
  | b :: bundles, h, r => by
    rw [List.map_cons, List.foldlM_cons, receive_encode hexEncode k r (h b List.mem_cons_self),
      Exec.ok_bind, foldlM_receive k fun b' hb' => h b' (List.mem_cons_of_mem b hb')]
    rw [spansOf, spansOf, List.flatMap_cons, List.map_append, ingestAll, ingestAll, ingestAll,
      List.foldl_append]

/-! ## What a collector knows -/

variable {hexEncode}

/-- The ids are of fixed length, so the colon between them stands at one place. -/
theorem entity_inj (hhex : HexPrints hexEncode) {s s' : CompactSpan}
    (h : entity hexEncode s = entity hexEncode s') : s.traceId = s'.traceId ∧ s.spanId = s'.spanId := by
  have hlist := congrArg String.toList h
  simp only [entity, entityKey, String.toList_append, List.append_assoc, hhex _] at hlist
  have hlen : (hexText s.traceId.val).toList.length = (hexText s'.traceId.val).toList.length := by
    rw [(hexId_hexText s.traceId.val).1, (hexId_hexText s'.traceId.val).1, s.traceId.property,
      s'.traceId.property]
  obtain ⟨htrace, hrest⟩ := List.append_inj hlist hlen
  have hspan := List.append_cancel_left hrest
  exact ⟨Subtype.ext (hexText_inj (String.toList_inj.mp htrace)),
    Subtype.ext (hexText_inj (String.toList_inj.mp hspan))⟩

/-- `s` is the newest of its entity's spans up to `t`. -/
def Newest (spans : List CompactSpan) (t : Int64) (s : CompactSpan) : Prop :=
  s ∈ spans ∧ s.tSystem ≤ t ∧
    ∀ s' ∈ spans, s'.traceId = s.traceId → s'.spanId = s.spanId → s'.tSystem ≤ t →
      s'.tSystem ≤ s.tSystem

/-- No entity has two different spans of one `t_system`. -/
def Consistent (spans : List CompactSpan) : Prop :=
  ∀ s ∈ spans, ∀ s' ∈ spans, s.traceId = s'.traceId → s.spanId = s'.spanId →
    s.tSystem = s'.tSystem → s = s'

instance (spans : List CompactSpan) (t : Int64) (s : CompactSpan) : Decidable (Newest spans t s) :=
  inferInstanceAs (Decidable (_ ∧ _ ∧ ∀ s' ∈ spans, s'.traceId = s.traceId → s'.spanId = s.spanId →
    s'.tSystem ≤ t → s'.tSystem ≤ s.tSystem))

instance (spans : List CompactSpan) : Decidable (Consistent spans) :=
  inferInstanceAs (Decidable (∀ s ∈ spans, ∀ s' ∈ spans, s.traceId = s'.traceId →
    s.spanId = s'.spanId → s.tSystem = s'.tSystem → s = s'))

theorem mem_history {spans : List CompactSpan} {e : String} {x : BitemporalRecord} :
    x ∈ (new.ingestAll (spans.map (.fromCompact hexEncode))).history e ↔
      ∃ s ∈ spans, entity hexEncode s = e ∧ x = record (.fromCompact hexEncode s) := by
  rw [history_ingestAll_new, List.map_map, List.mem_filter, List.mem_map, decide_eq_true_iff]
  constructor
  · rintro ⟨⟨s, hs, rfl⟩, he⟩
    exact ⟨s, hs, he, rfl⟩
  · rintro ⟨s, hs, rfl, rfl⟩
    exact ⟨⟨s, hs, rfl⟩, rfl⟩

theorem latest_spec {records : List BitemporalRecord} {t : Int64} {x : BitemporalRecord}
    (h : latest records t = some x) :
    x ∈ records ∧ x.tSystem ≤ t ∧ ∀ y ∈ records, y.tSystem ≤ t → y.tSystem ≤ x.tSystem := by
  obtain ⟨hmem, hbest⟩ := (Selection.keeps_max _).reduce _ x h
  refine ⟨List.mem_of_mem_filter hmem, of_decide_eq_true (List.mem_filter.mp hmem).2, fun y hy ht => ?_⟩
  exact Int64.le_iff_toInt_le.mpr (hbest y (List.mem_filter.mpr ⟨hy, decide_eq_true ht⟩))

theorem newest_of_latest {spans : List CompactSpan} {t : Int64} {e : String} {x : BitemporalRecord}
    (h : latest ((new.ingestAll (spans.map (.fromCompact hexEncode))).history e) t = some x) :
    ∃ s, Newest spans t s ∧ entity hexEncode s = e ∧ x = record (.fromCompact hexEncode s) := by
  obtain ⟨hmem, ht, hbest⟩ := latest_spec h
  obtain ⟨s, hs, he, rfl⟩ := mem_history.mp hmem
  rw [(record_fromCompact hexEncode s).2] at ht hbest
  refine ⟨s, ⟨hs, ht, fun s' hs' htrace hspan ht' => ?_⟩, he, rfl⟩
  have he' : entity hexEncode s' = e := by rw [← he, entity, entity, htrace, hspan]
  have hle := hbest _ (mem_history.mpr ⟨s', hs', he', rfl⟩)
  rw [(record_fromCompact hexEncode s').2] at hle
  exact hle ht'

theorem latest_of_newest (hhex : HexPrints hexEncode) {spans : List CompactSpan}
    (hspans : Consistent spans) {t : Int64} {s : CompactSpan} (h : Newest spans t s) :
    latest ((new.ingestAll (spans.map (.fromCompact hexEncode))).history (entity hexEncode s)) t =
      some (record (.fromCompact hexEncode s)) := by
  obtain ⟨hs, ht, hbest⟩ := h
  obtain ⟨x, hx⟩ : ∃ x, latest ((new.ingestAll (spans.map (.fromCompact hexEncode))).history
      (entity hexEncode s)) t = some x :=
    Selection.exists_maxByKey_filter.mpr ⟨record (.fromCompact hexEncode s),
      mem_history.mpr ⟨s, hs, rfl, rfl⟩, by rwa [(record_fromCompact hexEncode s).2]⟩
  obtain ⟨s', ⟨hs', ht', hbest'⟩, he, rfl⟩ := newest_of_latest hx
  obtain ⟨htrace, hspan⟩ := entity_inj hhex he
  -- two newest spans of one entity have one time, so they are one
  have htime := Int64.le_antisymm (hbest s' hs' htrace hspan ht') (hbest' s hs htrace.symm hspan.symm ht)
  rw [hx, hspans s' hs' s hs htrace hspan htime]

/-- Each entity's newest span is believed, and nothing else. -/
theorem mem_systemBeliefAt (hhex : HexPrints hexEncode) {spans : List CompactSpan}
    (hspans : Consistent spans) {t : Int64} {span : OtlpSpan} :
    span ∈ (new.ingestAll (spans.map (.fromCompact hexEncode))).systemBeliefAt t ↔
      ∃ s, Newest spans t s ∧ span = .fromCompact hexEncode s := by
  rw [systemBeliefAt_eq_map, List.mem_map]
  constructor
  · rintro ⟨⟨e, x⟩, hmem, rfl⟩
    obtain ⟨s, hs, -, rfl⟩ := newest_of_latest (mem_beliefs.mp hmem)
    exact ⟨s, hs, rfl⟩
  · rintro ⟨s, hs, rfl⟩
    exact ⟨(entity hexEncode s, record (.fromCompact hexEncode s)),
      mem_beliefs.mpr (latest_of_newest hhex hspans hs), rfl⟩

/-- No span twice: its ids say which entity's belief it is. -/
theorem nodup_systemBeliefAt (spans : List CompactSpan) (t : Int64) :
    ((new.ingestAll (spans.map (.fromCompact hexEncode))).systemBeliefAt t).Nodup := by
  rw [systemBeliefAt_eq_map]
  refine (nodup_beliefs _ t).of_map.map_on ?_
  rintro ⟨e, x⟩ hx ⟨e', x'⟩ hx' heq
  obtain ⟨s, -, rfl, rfl⟩ := newest_of_latest (mem_beliefs.mp hx)
  obtain ⟨s', -, rfl, rfl⟩ := newest_of_latest (mem_beliefs.mp hx')
  have hspan : OtlpSpan.fromCompact hexEncode s = .fromCompact hexEncode s' := heq
  rw [← entityId_fromCompact hexEncode s, ← entityId_fromCompact hexEncode s', hspan]

/-! ## Convergence -/

/-- **Collectors converge.**  Two collectors whose packets carry the same spans, in whatever order, with
    whatever repetitions and however they were bundled, both take every packet and hold the same beliefs
    at every time: one span for each entity heard of by then, its newest. -/
theorem collectors_converge (hhex : HexPrints hexEncode) (k k' : Codecs)
    (sent sent' : List TelemetryBundle) (hsent : ∀ b ∈ sent, Deliverable b)
    (hsent' : ∀ b ∈ sent', Deliverable b)
    (hsame : ∀ s, s ∈ spansOf sent ↔ s ∈ spansOf sent') (hspans : Consistent (spansOf sent)) :
    ∃ r r', collect hexEncode k (sent.map TelemetryBundle.encode) = .ok r ∧
      collect hexEncode k' (sent'.map TelemetryBundle.encode) = .ok r' ∧
      ∀ t, (r.systemBeliefAt t).Perm (r'.systemBeliefAt t) ∧ (r.systemBeliefAt t).Nodup ∧
        ∀ span, span ∈ r.systemBeliefAt t ↔
          ∃ s, Newest (spansOf sent) t s ∧ span = .fromCompact hexEncode s := by
  refine ⟨_, _, foldlM_receive hexEncode k hsent new, foldlM_receive hexEncode k' hsent' new, fun t =>
    ⟨?_, nodup_systemBeliefAt _ t, fun span => mem_systemBeliefAt hhex hspans⟩⟩
  have hspans' : Consistent (spansOf sent') := fun s hs s' hs' =>
    hspans s ((hsame s).mpr hs) s' ((hsame s').mpr hs')
  have hnewest : ∀ s, Newest (spansOf sent) t s ↔ Newest (spansOf sent') t s := fun s => by
    simp only [Newest, hsame]
  refine (List.perm_ext_iff_of_nodup (nodup_systemBeliefAt _ t) (nodup_systemBeliefAt _ t)).mpr fun span => ?_
  rw [mem_systemBeliefAt hhex hspans, mem_systemBeliefAt hhex hspans']
  simp only [hnewest]

/-- A span of one sensor, sent at `t`. -/
def spanAt (t : Int64) : CompactSpan := { blankSpan .ok with tSystem := t }

theorem withinLimits_spanAt (t : Int64) : (spanAt t).WithinLimits :=
  have h := withinLimits_blankSpan .ok
  ⟨h.name, h.sensorId, h.attrs, h.count⟩

/-- One bundle of such spans. -/
def bundleAt (ts : List Int64) : TelemetryBundle :=
  { TelemetryBundle.new 7 0 with spans := ts.map spanAt }

theorem deliverable_bundleAt {ts : List Int64} (h : (rawData (ts.map spanAt)).length < 2 ^ 32) :
    Deliverable (bundleAt ts) where
  plain := rfl
  fresh := rfl
  within s hs := by
    obtain ⟨t, -, rfl⟩ := List.mem_map.mp hs
    exact withinLimits_spanAt t
  short := h

/-- Two spans, one of them delivered twice, against both of them in one bundle the other way round. -/
theorem collectors_converge_repeated :
    ∃ r r', collect hexText spellCodecs
        ([bundleAt [1], bundleAt [2], bundleAt [1]].map TelemetryBundle.encode) = .ok r ∧
      collect hexText spellCodecs ([bundleAt [2, 1]].map TelemetryBundle.encode) = .ok r' ∧
      (r.systemBeliefAt 5).Perm (r'.systemBeliefAt 5) ∧
      .fromCompact hexText (spanAt 2) ∈ r.systemBeliefAt 5 := by
  have h1 : Deliverable (bundleAt [1]) := deliverable_bundleAt (by decide)
  have h2 : Deliverable (bundleAt [2]) := deliverable_bundleAt (by decide)
  have h21 : Deliverable (bundleAt [2, 1]) := deliverable_bundleAt (by decide +kernel)
  have hspans : spansOf [bundleAt [1], bundleAt [2], bundleAt [1]] = [spanAt 1, spanAt 2, spanAt 1] := rfl
  have hspans' : spansOf [bundleAt [2, 1]] = [spanAt 2, spanAt 1] := rfl
  obtain ⟨r, r', hr, hr', hbelief⟩ := collectors_converge (fun _ => rfl) spellCodecs spellCodecs
    [bundleAt [1], bundleAt [2], bundleAt [1]] [bundleAt [2, 1]]
    (by simp [h1, h2]) (by simpa using h21)
    (fun s => by rw [hspans, hspans']; simp; tauto) (by rw [hspans]; decide)
  refine ⟨r, r', hr, hr', (hbelief 5).1, ((hbelief 5).2.2 _).mpr ⟨spanAt 2, ?_, rfl⟩⟩
  rw [hspans]
  decide

end BitemporalReconciler

end FloatProtocols
