/-
  The OTLP export of `otel_converter.rs`: compact spans and bundles turned into export requests, and
  the binary form of a request.

  1. **Program** — `OtlpSpan.fromCompact` prints the ids in hex and puts the bi-temporal marks in
     front of the span's own attributes; `OtlpExportRequest.fromBundle` converts a whole bundle;
     `toBinary` writes a request: counted lists of length-prefixed texts, the ids as raw bytes.

  2. **One way to read it (`toBinary_injective`)** — the repository has no reader for the binary
     form.  Every piece of it is `Wire.Delimited`, so no two requests with ids of full length share
     their bytes.

  `hex::encode` and `hex::decode` are the parameters `hexEncode` and `hexDecode`, of which
  `InmarsatC.HexPrints` and `InmarsatC.HexInverts` say what is documented.
  Integers are those of the release profile, which wraps.
-/
import FloatProtocols.Lib.Decimal
import FloatProtocols.Lib.Delimited
import FloatProtocols.Codec.Hex
import FloatProtocols.Otel.Bundle

namespace FloatProtocols

open Wire Wire.Reader InmarsatC

/-! ## Data -/

/-- `OtlpStatus`. -/
inductive OtlpStatus where
  | unset
  | ok
  | error
  deriving DecidableEq, Repr

/-- `OtlpSpan`. -/
structure OtlpSpan where
  traceId : String
  spanId : String
  parentSpanId : Option String
  name : String
  startTimeUnixNano : UInt64
  endTimeUnixNano : UInt64
  attributes : List (String × String)
  status : OtlpStatus
  deriving DecidableEq

/-- `OtlpExportRequest`. -/
structure OtlpExportRequest where
  resourceAttributes : List (String × String)
  spans : List OtlpSpan
  deriving DecidableEq

/-! ## Conversion -/

/-- The status of the converted span. -/
def OtlpStatus.fromCompact : SpanStatus → OtlpStatus
  | .ok => .ok
  | .error => .error

/-- `OtlpSpan::from_compact`: a parent of eight zeros is none. -/
def OtlpSpan.fromCompact (hexEncode : Bytes → String) (span : CompactSpan) : OtlpSpan where
  traceId := hexEncode span.traceId.val
  spanId := hexEncode span.spanId.val
  parentSpanId :=
    if span.parentSpanId.val ≠ List.replicate 8 0 then some (hexEncode span.parentSpanId.val) else none
  name := span.name
  startTimeUnixNano := span.startTimeUnixNano
  endTimeUnixNano := span.endTimeUnixNano
  attributes :=
    [("t_event", Decimal.showI64 span.tEvent),
     ("t_system", Decimal.showI64 span.tSystem),
     ("sensor_id", span.sensorId),
     ("spread_ms", Decimal.showI64 (span.tSystem - span.tEvent))] ++ span.attributes
  status := .fromCompact span.status

/-- `format!("{:?}", compression_type)`. -/
def CompressionType.debug : CompressionType → String
  | .none => "None"
  | .zstd => "Zstd"
  | .gzip => "Gzip"

namespace OtlpExportRequest

/-- `OtlpExportRequest::new`. -/
def new : OtlpExportRequest := { resourceAttributes := [], spans := [] }

/-- `with_resource_attribute`. -/
def withResourceAttribute (r : OtlpExportRequest) (key value : String) : OtlpExportRequest :=
  { r with resourceAttributes := r.resourceAttributes ++ [(key, value)] }

/-- `with_span`. -/
def withSpan (r : OtlpExportRequest) (span : OtlpSpan) : OtlpExportRequest :=
  { r with spans := r.spans ++ [span] }

variable (hexEncode : Bytes → String)

/-- `from_bundle`. -/
def fromBundle (bundle : TelemetryBundle) : OtlpExportRequest :=
  let request := new
    |>.withResourceAttribute "bundle.sequence_number" (toString bundle.sequenceNumber.toNat)
    |>.withResourceAttribute "bundle.timestamp" (Decimal.showI64 bundle.batchTimestamp)
    |>.withResourceAttribute "bundle.compression" bundle.compressionType.debug
  bundle.spans.foldl (fun request span => request.withSpan (.fromCompact hexEncode span)) request

theorem spans_foldl_withSpan : ∀ (spans : List CompactSpan) (r : OtlpExportRequest),
    (spans.foldl (fun r span => r.withSpan (.fromCompact hexEncode span)) r).spans =
      r.spans ++ spans.map (OtlpSpan.fromCompact hexEncode)
  | [], r => by rw [List.foldl_nil, List.map_nil, List.append_nil]
  | s :: spans, r => by
    rw [List.foldl_cons, spans_foldl_withSpan spans, withSpan, List.map_cons, List.append_assoc,
      List.singleton_append]

/-- The spans of a converted bundle, in its order. -/
@[simp] theorem spans_fromBundle (bundle : TelemetryBundle) :
    (fromBundle hexEncode bundle).spans = bundle.spans.map (OtlpSpan.fromCompact hexEncode) :=
  spans_foldl_withSpan hexEncode bundle.spans _

end OtlpExportRequest

/-! ## The binary form -/

/-- The status byte. -/
def OtlpStatus.toU8 : OtlpStatus → UInt8
  | .unset => 0
  | .ok => 1
  | .error => 2

/-- A text behind its length. -/
def putText (s : String) : Bytes := frame (utf8 s)

/-- A key and its value. -/
def putAttribute (kv : String × String) : Bytes := putText kv.1 ++ putText kv.2

/-- `hex::decode(id).unwrap_or_default()`: an id that is not hex text is written as nothing. -/
def putId (hexDecode : String → Option Bytes) (id : String) : Bytes := (hexDecode id).getD []

/-- One turn of the span loop of `to_binary`. -/
def OtlpSpan.toBinary (hexDecode : String → Option Bytes) (span : OtlpSpan) : Bytes :=
  putId hexDecode span.traceId ++ (putId hexDecode span.spanId ++
    (optional (putId hexDecode) span.parentSpanId ++ (putText span.name ++
      (u64Be span.startTimeUnixNano ++ (u64Be span.endTimeUnixNano ++
        ([span.status.toU8] ++ counted putAttribute span.attributes))))))

/-- `OtlpExportRequest::to_binary`. -/
def OtlpExportRequest.toBinary (hexDecode : String → Option Bytes) (r : OtlpExportRequest) : Bytes :=
  counted putAttribute r.resourceAttributes ++ counted (OtlpSpan.toBinary hexDecode) r.spans

/-! ## Unique decodability -/

section
variable {hexDecode : String → Option Bytes} (hhex : HexInverts hexDecode)
include hhex

theorem delimited_putId (n : Nat) : Delimited (putId hexDecode) (HexId n) := by
  refine delimited_of_length (n := n) (fun id hid => ?_) fun id id' hid hid' h => ?_
  · obtain ⟨bs, hlen, rfl⟩ := hid.exists_hexText
    rw [putId, hhex bs, Option.getD_some, hlen]
  · obtain ⟨bs, -, rfl⟩ := hid.exists_hexText
    obtain ⟨bs', -, rfl⟩ := hid'.exists_hexText
    rw [putId, putId, hhex bs, hhex bs', Option.getD_some, Option.getD_some] at h
    rw [h]

end

/-- A text whose length fits its field. -/
def Fits (s : String) : Prop := (utf8 s).length < 2 ^ 32

instance (s : String) : Decidable (Fits s) := inferInstanceAs (Decidable (_ < _))

/-- An attribute list whose lengths fit their fields. -/
def AttributesFit (l : List (String × String)) : Prop :=
  l.length < 2 ^ 32 ∧ ∀ kv ∈ l, Fits kv.1 ∧ Fits kv.2

instance (l : List (String × String)) : Decidable (AttributesFit l) :=
  inferInstanceAs (Decidable (_ ∧ _))

/-- Ids of full length, and lengths that fit their fields. -/
structure OtlpSpan.WellFormed (span : OtlpSpan) : Prop where
  traceId : HexId 16 span.traceId
  spanId : HexId 8 span.spanId
  parentSpanId : ∀ id, span.parentSpanId = some id → HexId 8 id
  name : Fits span.name
  attributes : AttributesFit span.attributes

/-- Every span is well formed, and the lengths fit their fields. -/
structure OtlpExportRequest.WellFormed (r : OtlpExportRequest) : Prop where
  resourceAttributes : AttributesFit r.resourceAttributes
  count : r.spans.length < 2 ^ 32
  spans : ∀ span ∈ r.spans, span.WellFormed

theorem delimited_putText : Delimited putText Fits :=
  delimited_frame.comap (fun _ h => h) fun _ _ => utf8_inj

theorem delimited_putAttributes : Delimited (counted putAttribute) AttributesFit :=
  (delimited_putText.append delimited_putText).counted

theorem OtlpStatus.toU8_inj {s t : OtlpStatus} (h : s.toU8 = t.toU8) : s = t := by
  cases s <;> cases t <;> first | rfl | exact absurd h (by decide)

theorem delimited_status : Delimited (fun s : OtlpStatus => [s.toU8]) fun _ => True :=
  delimited_byte.comap (fun _ _ => trivial) fun _ _ => OtlpStatus.toU8_inj

/-- The fields of a span, in the order they are written. -/
def OtlpSpan.fields (s : OtlpSpan) :=
  (s.traceId, s.spanId, s.parentSpanId, s.name, s.startTimeUnixNano, s.endTimeUnixNano, s.status,
    s.attributes)

theorem OtlpSpan.fields_inj : ∀ s t : OtlpSpan, s.fields = t.fields → s = t := by
  rintro ⟨⟩ ⟨⟩ h
  simp only [OtlpSpan.fields, Prod.mk.injEq] at h
  simp only [OtlpSpan.mk.injEq]
  tauto

section
variable {hexDecode : String → Option Bytes} (hhex : HexInverts hexDecode)
include hhex

theorem delimited_span : Delimited (OtlpSpan.toBinary hexDecode) OtlpSpan.WellFormed := by
  have hfields := (delimited_putId hhex 16).append <| (delimited_putId hhex 8).append <|
    (delimited_putId hhex 8).optional.append <| delimited_putText.append <|
    delimited_u64Be.append <| delimited_u64Be.append <| delimited_status.append
      delimited_putAttributes
  exact hfields.comap (g := OtlpSpan.fields)
    (fun s hs => ⟨hs.traceId, hs.spanId, hs.parentSpanId, hs.name, trivial, trivial, trivial,
      hs.attributes⟩) OtlpSpan.fields_inj

/-- **The binary form of a request is read in one way only.** -/
theorem OtlpExportRequest.toBinary_injective {r r' : OtlpExportRequest} (hr : r.WellFormed)
    (hr' : r'.WellFormed) (h : r.toBinary hexDecode = r'.toBinary hexDecode) : r = r' := by
  obtain ⟨attributes, spans⟩ := r
  obtain ⟨attributes', spans'⟩ := r'
  obtain ⟨rfl, hspans⟩ := delimited_putAttributes _ _ hr.resourceAttributes hr'.resourceAttributes
    _ _ h
  obtain rfl := (delimited_span hhex).counted.injective ⟨hr.count, hr.spans⟩
    ⟨hr'.count, hr'.spans⟩ hspans
  rfl

end

/-- A span with a parent, or without. -/
def exportSpan (parentSpanId : Option String) : OtlpSpan where
  traceId := "000102030405060708090a0b0c0d0e0f"
  spanId := "f0f1f2f3f4f5f6f7"
  parentSpanId := parentSpanId
  name := "read"
  startTimeUnixNano := 1
  endTimeUnixNano := 2
  attributes := [("t_event", "-1")]
  status := .ok

theorem wellFormed_exportSpan {parentSpanId : Option String}
    (h : ∀ id, parentSpanId = some id → HexId 8 id) : (exportSpan parentSpanId).WellFormed :=
  ⟨(by decide : HexId 16 "000102030405060708090a0b0c0d0e0f"),
    (by decide : HexId 8 "f0f1f2f3f4f5f6f7"), h, (by decide : Fits "read"),
    (by decide : AttributesFit [("t_event", "-1")])⟩

theorem wellFormed_request {span : OtlpSpan} (h : span.WellFormed) :
    OtlpExportRequest.WellFormed ⟨[("bundle.timestamp", "0")], [span]⟩ :=
  ⟨(by decide : AttributesFit [("bundle.timestamp", "0")]), (by decide : 1 < 2 ^ 32),
    fun s hs => by rwa [List.mem_singleton.mp hs]⟩

/-- A request built call by call has the bytes of no other, and not those of the request whose span
    has no parent. -/
theorem OtlpExportRequest.toBinary_injective_one :
    let build (parentSpanId : Option String) :=
      (new.withResourceAttribute "bundle.timestamp" "0").withSpan (exportSpan parentSpanId)
    let hexDecode := fun s : String => readHex s.toList
    (build (some "0000000000000001")).toBinary hexDecode =
      toBinary hexDecode ⟨[("bundle.timestamp", "0")], [exportSpan (some "0000000000000001")]⟩ ∧
    build (some "0000000000000001") =
      ⟨[("bundle.timestamp", "0")], [exportSpan (some "0000000000000001")]⟩ ∧
    (build (some "0000000000000001")).toBinary hexDecode ≠ (build none).toBinary hexDecode := by
  have hsome := wellFormed_request (@wellFormed_exportSpan (some "0000000000000001")
    fun id h => by rw [← Option.some.inj h]; decide)
  have hnone := wellFormed_request (@wellFormed_exportSpan none fun _ h => nomatch h)
  refine ⟨rfl, toBinary_injective hexInverts_readHex hsome hsome rfl, fun h => ?_⟩
  have heq := toBinary_injective hexInverts_readHex hsome hnone h
  exact absurd heq (by decide)

end FloatProtocols
