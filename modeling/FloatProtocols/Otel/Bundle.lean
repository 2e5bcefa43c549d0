/-
  The telemetry bundle of `otel_bundle.rs`: builder, wire format, and where the reader panics.

  1. **Program** — `TelemetryBundle` with its four builder calls (`new`, `addSpan`,
     `withCompression`, `compress`), `encode` and `decode`.  `encode` sends the cached
     `compressedData` when there is any and the raw span chunks otherwise, ALWAYS under the current
     `compressionType` byte; `decode` trusts that byte.  The three arms of `decode` differ only in
     the decompressor (`unpack`), so they share the one chunk loop `getSpans`.

  2. **The loop as a grammar (`Scans`)** — chunks that start with the encoding of a span within the
     limits, and at most three bytes behind them; the loop accepts exactly this (`rawSpans_eq_ok`).

  3. **Panics** — `BundleFits` says of the bytes alone when every chunk the loop reaches is a span
     that fits (`CompactSpan.SpanFits`).  `decode_ne_panic_iff_bundleFits` shows it is exactly when
     `TelemetryBundle.decode` returns; `shortTail` is 68 bytes on which neither decoder does.

  zstd and gzip are the parameter `Codecs`: functions that may report failure and do not panic.
-/
import FloatProtocols.Otel.CompactSpan

namespace FloatProtocols

open Wire Wire.Reader CompactSpan

/-! ## Data -/

/-- `CompressionType`. -/
inductive CompressionType where
  | none
  | zstd
  | gzip
  deriving DecidableEq, Repr

/-- `self.compression_type as u8`. -/
def CompressionType.toU8 : CompressionType → UInt8
  | .none => 0
  | .zstd => 1
  | .gzip => 2

theorem CompressionType.toU8_inj {c c' : CompressionType} (h : c.toU8 = c'.toU8) : c = c' := by
  cases c <;> cases c' <;> first | rfl | exact absurd h (by decide)

/-- `TelemetryBundle`. -/
structure TelemetryBundle where
  sequenceNumber : UInt64
  batchTimestamp : Int64
  compressionType : CompressionType
  spans : List CompactSpan
  compressedData : Option Bytes
  deriving DecidableEq

/-- The two compression libraries; `none` is a reported failure. -/
structure Codecs where
  /-- `zstd::encode_all(data, level)`. -/
  zstdEncode : Int32 → Bytes → Option Bytes
  /-- `zstd::decode_all(data)`. -/
  zstdDecode : Bytes → Option Bytes
  /-- `GzEncoder` at `Compression::new(level as u32)`. -/
  gzipEncode : Int32 → Bytes → Option Bytes
  /-- `GzDecoder`, read to the end. -/
  gzipDecode : Bytes → Option Bytes

namespace TelemetryBundle

/-! ## The builder -/

/-- `TelemetryBundle::new`, with the clock reading as an argument. -/
def new (sequenceNumber : UInt64) (now : Int64) : TelemetryBundle :=
  { sequenceNumber, batchTimestamp := now, compressionType := .none, spans := [],
    compressedData := none }

/-- `add_span`. -/
def addSpan (b : TelemetryBundle) (s : CompactSpan) : TelemetryBundle :=
  { b with spans := b.spans ++ [s] }

/-- `with_compression`. -/
def withCompression (b : TelemetryBundle) (c : CompressionType) : TelemetryBundle :=
  { b with compressionType := c }

/-- The span chunks, as all three writers lay them out. -/
def rawData (spans : List CompactSpan) : Bytes := spans.flatMap fun s => frame s.encode

/-- `compress`: a failing library leaves the bundle as it was. -/
def compress (k : Codecs) (b : TelemetryBundle) (level : Int32) : TelemetryBundle :=
  if b.spans = [] then b
  else
    match b.compressionType with
    | .none => { b with compressedData := none }
    | .zstd =>
      match k.zstdEncode level (rawData b.spans) with
      | some c => { b with compressedData := some c }
      | none => b
    | .gzip =>
      match k.gzipEncode level (rawData b.spans) with
      | some c => { b with compressedData := some c }
      | none => b

/-! ## The wire format -/

/-- `TelemetryBundle::encode`. -/
def encode (b : TelemetryBundle) : Bytes :=
  let hasData := b.compressedData.isSome || !b.spans.isEmpty
  u64Be b.sequenceNumber ++ (i64Be b.batchTimestamp ++ ([b.compressionType.toU8] ++
    ([if hasData then 1 else 0] ++
      match b.compressedData with
      | some data => frame data
      | none => if b.spans ≠ [] then frame (rawData b.spans) else u32Be 0)))

/-- `TelemetryBundle::encoded_size`. -/
def encodedSize (b : TelemetryBundle) : Nat :=
  8 + 8 + 1 + 1 + 4 +
  (b.compressedData.map List.length).getD (b.spans.map fun s => 4 + s.encodedSize).sum

/-- The compression byte. -/
def getCompressionType : Reader String CompressionType := do
  let b ← getU8
  if b = 0 then return .none
  else if b = 1 then return .zstd
  else if b = 2 then return .gzip
  else fail "Invalid compression type"

/-- A result computed outside the cursor. -/
def lift {α : Type} (x : Exec String α) : Reader String α := ⟨fun b => x >>= fun a => .ok (a, b)⟩

/-- `while span_buf.remaining() >= 4 { .. }`, with the turns counted down; `rawSpans` gives it one
    turn per byte, more than it can take. -/
def getSpans : Nat → Reader String (List CompactSpan)
  | 0 => pure []
  | fuel + 1 => ⟨fun b =>
    if 4 ≤ b.length then
      (do
        let chunk ← getFrame "Insufficient data for span"
        let s ← lift (CompactSpan.decode chunk)
        let rest ← getSpans fuel
        return s :: rest : Reader String (List CompactSpan)).run b
    else .ok ([], b)⟩

/-- The chunk loop on a whole payload. -/
def rawSpans (b : Bytes) : Exec String (List CompactSpan) := do
  let x ← (getSpans b.length).run b
  return x.1

/-- The payload under a compression type: the chunks themselves, or what the library makes of
    them. -/
def unpack (k : Codecs) (c : CompressionType) (data : Bytes) : Exec String Bytes :=
  match c with
  | .none => .ok data
  | .zstd => Exec.okOr (k.zstdDecode data) "Zstd decompression failed"
  | .gzip => Exec.okOr (k.gzipDecode data) "Gzip decompression failed"

/-- The spans of the payload: none without the data flag. -/
def getPayload (k : Codecs) (c : CompressionType) (hasData : Bool) (dataLen : Nat) :
    Reader String (List CompactSpan) :=
  if hasData then do
    let payload ← splitTo dataLen
    let raw ← lift (unpack k c payload)
    lift (rawSpans raw)
  else return []

/-- `decode` after its size check. -/
def body (k : Codecs) : Reader String TelemetryBundle := do
  let sequenceNumber ← getU64
  let batchTimestamp ← getI64
  let compressionType ← getCompressionType
  let hasData ← getU8
  let dataLen ← getU32
  require dataLen.toNat "Insufficient data for bundle payload"
  let spans ← getPayload k compressionType (hasData == 1) dataLen.toNat
  return { sequenceNumber, batchTimestamp, compressionType, spans, compressedData := none }

/-- The bytes in front of the payload. -/
def headerSize : Nat := 8 + 8 + 1 + 1 + 4

/-- `TelemetryBundle::decode`; bytes after the payload are ignored. -/
def decode (k : Codecs) (data : Bytes) : Exec String TelemetryBundle :=
  if data.length < headerSize then .err "Insufficient data for bundle header"
  else do
    let x ← (body k).run data
    return x.1

/-! ## The chunk loop -/

theorem run_getSpans_short {f : Nat} {b : Bytes} (h : b.length < 4) :
    (getSpans f).run b = .ok ([], b) := by
  cases f with
  | zero => rfl
  | succ f => exact if_neg (by omega)

/-- One turn of the loop. -/
theorem run_getSpans_succ {f : Nat} {b : Bytes} (h : 4 ≤ b.length) :
    (getSpans (f + 1)).run b =
      ((getFrame "Insufficient data for span").run b >>= fun x =>
        CompactSpan.decode x.1 >>= fun s =>
        (getSpans f).run x.2 >>= fun y => .ok (s :: y.1, y.2)) := by
  show (if 4 ≤ b.length then _ else _) = _
  rw [if_pos h, run_bind]
  congr 1
  funext x
  rw [run_bind, lift, bind_assoc]
  rfl

/-- A whole chunk in front: the loop decodes it and goes on behind it. -/
theorem run_getSpans_frame {f : Nat} {x r : Bytes} (hx : x.length < 2 ^ 32) :
    (getSpans (f + 1)).run (frame x ++ r) =
      (CompactSpan.decode x >>= fun s =>
        (getSpans f).run r >>= fun y => .ok (s :: y.1, y.2)) := by
  rw [run_getSpans_succ (by rw [List.length_append, length_frame]; omega),
    (inverts_getFrame _ _ _ _).mpr ⟨hx, rfl⟩, Exec.ok_bind]

/-! ### The loop as a grammar -/

/-- `Scans b l` — chunks that start with the encodings of `l`, and at most three bytes behind them. -/
inductive Scans : Bytes → List CompactSpan → Prop where
  | done {b : Bytes} (h : b.length < 4) : Scans b []
  | chunk {x r : Bytes} {s : CompactSpan} {l : List CompactSpan} (hx : x.length < 2 ^ 32)
      (hs : WithinLimits s) (henc : s.encode <+: x) (hrest : Scans r l) : Scans (frame x ++ r) (s :: l)

theorem decode_eq_ok_iff_prefix {x : Bytes} {s : CompactSpan} :
    CompactSpan.decode x = .ok s ↔ WithinLimits s ∧ s.encode <+: x := by
  rw [decode_eq_ok, List.IsPrefix]
  simp only [eq_comm]

/-- What is scanned, the loop returns. -/
theorem Scans.run {b : Bytes} {l : List CompactSpan} (h : Scans b l) :
    ∀ f, b.length ≤ f → ∃ r, (getSpans f).run b = .ok (l, r) := by
  induction h with
  | done h =>
    intro f _
    exact ⟨_, run_getSpans_short h⟩
  | chunk hx hs henc _ ih =>
    intro f hf
    rw [List.length_append, length_frame] at hf
    obtain ⟨f, rfl⟩ : ∃ f', f = f' + 1 := ⟨f - 1, by omega⟩
    obtain ⟨r, hr⟩ := ih f (by omega)
    refine ⟨r, ?_⟩
    rw [run_getSpans_frame hx, decode_eq_ok_iff_prefix.mpr ⟨hs, henc⟩, Exec.ok_bind, hr]
    rfl

/-- What the loop returns was scanned — by induction on its turns, one chunk a turn. -/
theorem scans_of_run : ∀ (f : Nat) (b r : Bytes) (l : List CompactSpan), b.length ≤ f →
    (getSpans f).run b = .ok (l, r) → Scans b l := by
  intro f
  induction f with
  | zero =>
    intro b r l hb h
    obtain ⟨rfl, -⟩ := pure_eq_ok.mp h
    exact .done (by omega)
  | succ f ih =>
    intro b r l hf h
    rcases Nat.lt_or_ge b.length 4 with hb | hb
    · rw [run_getSpans_short hb] at h
      obtain ⟨rfl, -⟩ := Prod.mk.inj (Exec.ok.inj h)
      exact .done hb
    · rw [run_getSpans_succ hb] at h
      obtain ⟨⟨x, m⟩, hframe, h⟩ := Exec.bind_eq_ok.mp h
      obtain ⟨s, hs, h⟩ := Exec.bind_eq_ok.mp h
      obtain ⟨⟨l', r'⟩, hrest, h⟩ := Exec.bind_eq_ok.mp h
      obtain ⟨rfl, -⟩ := Prod.mk.inj (Exec.ok.inj h)
      obtain ⟨hx, rfl⟩ := (inverts_getFrame _ _ _ _).mp hframe
      obtain ⟨hlim, henc⟩ := decode_eq_ok_iff_prefix.mp hs
      rw [List.length_append, length_frame] at hf
      exact .chunk hx hlim henc (ih m r' l' (by omega) hrest)

/-- **The chunk loop accepts exactly what scans.** -/
theorem rawSpans_eq_ok {b : Bytes} {l : List CompactSpan} : rawSpans b = .ok l ↔ Scans b l := by
  rw [rawSpans, Exec.bind_eq_ok]
  constructor
  · rintro ⟨⟨l', r⟩, hrun, hl⟩
    obtain rfl : l' = l := Exec.ok.inj hl
    exact scans_of_run _ b r l' (Nat.le_refl _) hrun
  · intro h
    obtain ⟨r, hr⟩ := h.run b.length (Nat.le_refl _)
    exact ⟨(l, r), hr, rfl⟩

theorem rawData_cons (s : CompactSpan) (spans : List CompactSpan) :
    rawData (s :: spans) = frame s.encode ++ rawData spans := rfl

/-- **The writer's chunks come back.** -/
theorem rawSpans_rawData {spans : List CompactSpan} (hs : ∀ s ∈ spans, WithinLimits s) :
    rawSpans (rawData spans) = .ok spans := by
  rw [rawSpans_eq_ok]
  induction spans with
  | nil => exact .done (by decide)
  | cons s spans ih =>
    have hlim := hs s List.mem_cons_self
    have hlen := length_encode_le hlim
    rw [rawData_cons]
    exact .chunk (by omega) hlim (List.prefix_refl _) (ih fun t ht => hs t (List.mem_cons_of_mem s ht))

/-- The loop cannot find spans in fewer bytes than they take up. -/
theorem length_rawData_le {b : Bytes} {l : List CompactSpan} (h : rawSpans b = .ok l) :
    (rawData l).length ≤ b.length := by
  rw [rawSpans_eq_ok] at h
  induction h with
  | done _ => exact Nat.zero_le _
  | chunk _ _ henc _ ih =>
    have hle := henc.length_le
    rw [rawData_cons, List.length_append, List.length_append, length_frame, length_frame]
    omega

/-- Spans are only ever found behind a whole chunk. -/
theorem exists_frame_of_rawSpans {b : Bytes} {l : List CompactSpan} (h : rawSpans b = .ok l)
    (hl : l ≠ []) : ∃ x r, x.length < 2 ^ 32 ∧ b = frame x ++ r := by
  rw [rawSpans_eq_ok] at h
  cases h with
  | done _ => exact absurd rfl hl
  | chunk hx _ _ _ => exact ⟨_, _, hx, rfl⟩

/-! ### The chunks the loop reaches -/

/-- A chunk that decodes: it starts with the encoding of a span within the limits. -/
def IsSpan (x : Bytes) : Prop := ∃ s r, WithinLimits s ∧ x = CompactSpan.encode s ++ r

/-- `Reaches b x` — among the chunks of `b`, `x` comes after spans only. -/
inductive Reaches : Bytes → Bytes → Prop where
  | here {x r : Bytes} (hx : x.length < 2 ^ 32) : Reaches (frame x ++ r) x
  | later {y r x : Bytes} (hy : y.length < 2 ^ 32) (hspan : IsSpan y) (hrest : Reaches r x) :
      Reaches (frame y ++ r) x

/-- Every chunk the loop reaches is one `CompactSpan::decode` returns on. -/
def SpansFit (b : Bytes) : Prop := ∀ x, Reaches b x → SpanFits x

theorem Reaches.exists_frame {b x : Bytes} (h : Reaches b x) :
    ∃ y r, y.length < 2 ^ 32 ∧ b = frame y ++ r := by
  cases h with
  | here hx => exact ⟨_, _, hx, rfl⟩
  | later hy _ _ => exact ⟨_, _, hy, rfl⟩

theorem spansFit_of_short {b : Bytes} (h : b.length < 4) : SpansFit b := by
  intro x hx
  obtain ⟨y, r, -, rfl⟩ := hx.exists_frame
  rw [List.length_append, length_frame] at h
  omega

theorem spansFit_frame {x r : Bytes} (hx : x.length < 2 ^ 32) :
    SpansFit (frame x ++ r) ↔ SpanFits x ∧ (IsSpan x → SpansFit r) := by
  constructor
  · intro h
    exact ⟨h x (.here hx), fun hspan z hz => h z (.later hx hspan hz)⟩
  · rintro ⟨hfit, hrest⟩ z hz
    generalize hb : frame x ++ r = b at hz
    cases hz with
    | here hz =>
      obtain ⟨rfl, -⟩ := frame_append_inj hx hz hb
      exact hfit
    | later hy hspan hz =>
      obtain ⟨rfl, rfl⟩ := frame_append_inj hx hy hb
      exact hrest hspan z hz

/-- The chunk loop returns exactly when every chunk it reaches fits — by induction on the turns,
    one chunk a turn. -/
theorem safe_getSpans : ∀ (f : Nat) (b : Bytes), b.length ≤ f →
    (Safe (getSpans f) b ↔ SpansFit b) := by
  intro f
  induction f with
  | zero =>
    intro b hb
    exact iff_of_true (safe_pure _ _) (spansFit_of_short (by omega))
  | succ f ih =>
    intro b hb
    rcases Nat.lt_or_ge b.length 4 with h4 | h4
    · have hrun : (getSpans (f + 1)).run b = .ok ([], b) := run_getSpans_short h4
      exact iff_of_true (by rw [Safe, hrun]; simp) (spansFit_of_short h4)
    · -- either the announced bytes are there, and `b` starts with a chunk, or the guard reports
      cases hframe : (getFrame "Insufficient data for span").run b with
      | panic => exact absurd hframe (safe_getFrame h4)
      | err e =>
        refine iff_of_true (by rw [Safe, run_getSpans_succ h4, hframe]; simp) ?_
        intro x hx
        obtain ⟨y, r, hy, rfl⟩ := hx.exists_frame
        rw [(inverts_getFrame _ _ _ _).mpr ⟨hy, rfl⟩] at hframe
        exact absurd hframe (by simp)
      | ok p =>
        obtain ⟨x, r⟩ := p
        obtain ⟨hx, rfl⟩ := (inverts_getFrame _ _ _ _).mp hframe
        have hr : r.length ≤ f := by
          rw [List.length_append, length_frame] at hb
          omega
        have hspan : IsSpan x ↔ ∃ s, CompactSpan.decode x = .ok s := by
          simp only [IsSpan, decode_eq_ok, exists_and_left]
        rw [spansFit_frame hx, Safe, run_getSpans_frame hx, Exec.bind_ne_panic,
          decode_ne_panic_iff, hspan]
        refine and_congr_right fun _ => ⟨?_, ?_⟩
        · rintro h ⟨s, hs⟩
          exact (ih r hr).mp (Exec.bind_ne_panic.mp (h s hs)).1
        · intro h s hs
          exact Exec.bind_ne_panic.mpr ⟨(ih r hr).mpr (h ⟨s, hs⟩), fun _ _ => by simp⟩

theorem rawSpans_ne_panic_iff (b : Bytes) : rawSpans b ≠ .panic ↔ SpansFit b := by
  rw [rawSpans, Exec.bind_ne_panic, ← safe_getSpans b.length b (Nat.le_refl _)]
  exact ⟨And.left, fun h => ⟨h, fun _ _ => by simp⟩⟩

/-! ## The header -/

/-- The 22 bytes in front of the payload. -/
def header (sequenceNumber : UInt64) (batchTimestamp : Int64) (typeByte flag : UInt8)
    (dataLen : UInt32) : Bytes :=
  u64Be sequenceNumber ++ (i64Be batchTimestamp ++ ([typeByte] ++ ([flag] ++ u32Be dataLen)))

theorem length_header (seq : UInt64) (ts : Int64) (t flag : UInt8) (n : UInt32) :
    (header seq ts t flag n).length = headerSize := by
  simp only [header, List.length_append, length_u64Be, length_i64Be, length_u32Be,
    List.length_cons, List.length_nil]
  rfl

/-- Bytes enough for a header are a header and a rest. -/
theorem exists_header {d : Bytes} (h : headerSize ≤ d.length) :
    ∃ seq ts t flag n rest, d = header seq ts t flag n ++ rest := by
  have h22 : 22 ≤ d.length := h
  obtain ⟨seq, hseq⟩ := (fixedRead_getU64 (ε := Unit) d).2 (by omega)
  obtain ⟨-, hd⟩ := (inverts_getU64 _ _ _).mp hseq
  obtain ⟨ts, hts⟩ := (fixedRead_getI64 (ε := Unit) (d.drop 8)).2 (by rw [List.length_drop]; omega)
  obtain ⟨-, hd8⟩ := (inverts_getI64 _ _ _).mp hts
  have hlen16 : (d.drop 16).length = d.length - 16 := List.length_drop ..
  rw [List.drop_drop] at hd8
  obtain ⟨t, r16, h16⟩ := List.exists_cons_of_length_pos (l := d.drop 16) (by omega)
  have hr16 : r16.length = d.length - 17 := by
    rw [h16, List.length_cons] at hlen16
    omega
  obtain ⟨flag, r17, h17⟩ := List.exists_cons_of_length_pos (l := r16) (by omega)
  have hr17 : r17.length = d.length - 18 := by
    rw [h17, List.length_cons] at hr16
    omega
  obtain ⟨n, hn⟩ := (fixedRead_getU32 (ε := Unit) r17).2 (by omega)
  obtain ⟨-, h18⟩ := (inverts_getU32 _ _ _).mp hn
  refine ⟨seq, ts, t, flag, n, r17.drop 4, ?_⟩
  rw [hd, hd8, h16, h17]
  simp only [header, List.append_assoc, List.cons_append, List.nil_append]
  rw [← h18]

theorem run_getCompressionType_toU8 (c : CompressionType) (r : Bytes) :
    getCompressionType.run (c.toU8 :: r) = .ok (c, r) := by
  cases c with
  | none => rfl
  | zstd => rfl
  | gzip => rfl

/-- Any other type byte is reported. -/
theorem run_getCompressionType_unknown {t : UInt8} (ht : ∀ c : CompressionType, t ≠ c.toU8)
    (r : Bytes) : getCompressionType.run (t :: r) = .err "Invalid compression type" := by
  show (if t = 0 then _ else _ : Reader String CompressionType).run r = _
  have h0 : t ≠ 0 := ht .none
  have h1 : t ≠ 1 := ht .zstd
  have h2 : t ≠ 2 := ht .gzip
  rw [if_neg h0, if_neg h1, if_neg h2]
  rfl

/-- With at least a header there, `decode` is `body`, which first reads the two fixed fields. -/
theorem decode_header_type (k : Codecs) (seq : UInt64) (ts : Int64) (t flag : UInt8) (n : UInt32)
    (rest : Bytes) :
    decode k (header seq ts t flag n ++ rest) = (do
      let x ← getCompressionType.run (t :: flag :: (u32Be n ++ rest))
      let y ← (do
        let hasData ← getU8
        let dataLen ← getU32
        require dataLen.toNat "Insufficient data for bundle payload"
        let spans ← getPayload k x.1 (hasData == 1) dataLen.toNat
        return { sequenceNumber := seq, batchTimestamp := ts, compressionType := x.1, spans,
                 compressedData := none } : Reader String TelemetryBundle).run x.2
      .ok y.1) := by
  have hlen : ¬ (header seq ts t flag n ++ rest).length < headerSize := by
    rw [List.length_append, length_header]
    omega
  have hassoc : header seq ts t flag n ++ rest = u64Be seq ++ (i64Be ts ++
      (t :: flag :: (u32Be n ++ rest))) := by
    simp only [header, List.append_assoc, List.cons_append, List.nil_append]
  rw [decode, if_neg hlen, hassoc, body]
  simp only [run_bind, (inverts_getU64 _ _ _).mpr ⟨trivial, rfl⟩, Exec.ok_bind,
    (inverts_getI64 _ _ _).mpr ⟨trivial, rfl⟩, bind_assoc, Exec.pure_eq]

/-- `decode` on a header with an unknown type byte. -/
theorem decode_header_unknown (k : Codecs) (seq : UInt64) (ts : Int64) {t : UInt8}
    (ht : ∀ c : CompressionType, t ≠ c.toU8) (flag : UInt8) (n : UInt32) (rest : Bytes) :
    decode k (header seq ts t flag n ++ rest) = .err "Invalid compression type" := by
  rw [decode_header_type, run_getCompressionType_unknown ht]
  rfl

/-- `decode` on a header with a known type byte: the payload guard, then the payload. -/
theorem decode_header (k : Codecs) (seq : UInt64) (ts : Int64) (c : CompressionType)
    (flag : UInt8) (n : UInt32) (rest : Bytes) :
    decode k (header seq ts c.toU8 flag n ++ rest) =
      if n.toNat ≤ rest.length then
        (if flag = 1 then unpack k c (rest.take n.toNat) >>= rawSpans else .ok []) >>= fun spans =>
          .ok { sequenceNumber := seq, batchTimestamp := ts, compressionType := c, spans,
                compressedData := none }
      else .err "Insufficient data for bundle payload" := by
  have hrequire : (require n.toNat "Insufficient data for bundle payload").run rest =
      if rest.length < n.toNat then .err "Insufficient data for bundle payload"
      else .ok ((), rest) := rfl
  have hcons : flag :: (u32Be n ++ rest) = [flag] ++ (u32Be n ++ rest) := rfl
  rw [decode_header_type, run_getCompressionType_toU8, Exec.ok_bind, hcons]
  simp only [run_bind, Exec.ok_bind, (inverts_getU8 _ _ _).mpr ⟨trivial, rfl⟩,
    (inverts_getU32 _ _ _).mpr ⟨trivial, rfl⟩, hrequire]
  by_cases hn : n.toNat ≤ rest.length
  · have hsplit : (splitTo n.toNat : Reader String Bytes).run rest
        = .ok (rest.take n.toNat, rest.drop n.toNat) := if_pos hn
    rw [if_neg (by omega), if_pos hn, Exec.ok_bind]
    by_cases hflag : flag = 1
    · subst hflag
      simp only [getPayload, beq_self_eq_true, if_true, run_bind, hsplit, Exec.ok_bind, lift,
        bind_assoc, run_pure]
    · have hflag' : (flag == 1) = false := by simpa using hflag
      simp only [getPayload, hflag', if_neg hflag, Bool.false_eq_true, if_false, run_pure,
        Exec.ok_bind]
  · rw [if_pos (by omega), if_neg hn]
    rfl

/-- The bytes `encode` puts behind the header: the cached ones if there are any. -/
def payload (b : TelemetryBundle) : Bytes := b.compressedData.getD (rawData b.spans)

theorem encode_eq_header (b : TelemetryBundle) :
    encode b = header b.sequenceNumber b.batchTimestamp b.compressionType.toU8
      (if b.compressedData.isSome || !b.spans.isEmpty then 1 else 0)
      (UInt32.ofNat b.payload.length) ++ b.payload := by
  simp only [encode, header, List.append_assoc, payload]
  cases b.compressedData with
  | none =>
    by_cases hs : b.spans = []
    · rw [hs]
      rfl
    · simp only [ne_eq, hs, not_false_eq_true, if_true, frame, Option.getD_none]
  | some data => rfl

theorem length_rawData (spans : List CompactSpan) :
    (rawData spans).length = (spans.map fun s => 4 + s.encodedSize).sum := by
  induction spans with
  | nil => rfl
  | cons s spans ih =>
    rw [rawData_cons, List.length_append, length_frame, ih, List.map_cons, List.sum_cons,
      encodedSize_eq_length]

/-- **The size formulas are exact**: for spans with fields of any length, where the length bytes of the
    encoding are cut, and for bundles in any state, whether they send cached bytes or their spans. -/
theorem encoded_sizes_exact :
    (∀ s : CompactSpan, s.encodedSize = s.encode.length) ∧
    ∀ b : TelemetryBundle, b.encodedSize = b.encode.length := by
  refine ⟨encodedSize_eq_length, fun b => ?_⟩
  have hpayload : b.payload.length =
      (b.compressedData.map List.length).getD (b.spans.map fun s => 4 + s.encodedSize).sum := by
    rw [payload]
    cases b.compressedData with
    | none => exact length_rawData b.spans
    | some data => rfl
  rw [encode_eq_header, List.length_append, length_header, hpayload, encodedSize, headerSize]

/-! ## When `decode` returns at all -/

/-- If the bytes are a header announcing data, and the data is there and unpacks, then every chunk
    the loop reaches in it fits. -/
def BundleFits (k : Codecs) (d : Bytes) : Prop :=
  ∀ (seq : UInt64) (ts : Int64) (c : CompressionType) (n : UInt32) (rest raw : Bytes),
    d = header seq ts c.toU8 1 n ++ rest → n.toNat ≤ rest.length →
    unpack k c (rest.take n.toNat) = .ok raw → SpansFit raw

theorem unpack_ne_panic (k : Codecs) (c : CompressionType) (data : Bytes) :
    unpack k c data ≠ .panic := by
  cases c with
  | none => simp [unpack]
  | zstd => exact Exec.okOr_ne_panic _ _
  | gzip => exact Exec.okOr_ne_panic _ _

theorem header_append_inj {seq seq' : UInt64} {ts ts' : Int64} {t t' flag flag' : UInt8}
    {n n' : UInt32} {r r' : Bytes}
    (h : header seq ts t flag n ++ r = header seq' ts' t' flag' n' ++ r') :
    t = t' ∧ flag = flag' ∧ n = n' ∧ r = r' := by
  simp only [header, List.append_assoc] at h
  have h8 := (List.append_inj h (by rw [length_u64Be, length_u64Be])).2
  have h16 := (List.append_inj h8 (by rw [length_i64Be, length_i64Be])).2
  simp only [List.cons_append, List.nil_append, List.cons.injEq] at h16
  obtain ⟨ht, hflag, h18⟩ := h16
  obtain ⟨hn, hr⟩ := List.append_inj h18 (by rw [length_u32Be, length_u32Be])
  refine ⟨ht, hflag, ?_, hr⟩
  rw [← ofU32Be_u32Be n, hn, ofU32Be_u32Be]

/-- **`TelemetryBundle::decode` returns — `Ok` or `Err` — exactly on the bytes that fit.** -/
theorem decode_ne_panic_iff_bundleFits (k : Codecs) (d : Bytes) :
    decode k d ≠ .panic ↔ BundleFits k d := by
  rcases Nat.lt_or_ge d.length headerSize with hd | hd
  · refine iff_of_true (by rw [decode, if_pos hd]; simp) ?_
    rintro seq ts c n rest raw rfl
    rw [List.length_append, length_header] at hd
    omega
  · obtain ⟨seq, ts, t, flag, n, rest, rfl⟩ := exists_header hd
    by_cases ht : ∃ c : CompressionType, t = c.toU8
    · obtain ⟨c, rfl⟩ := ht
      rw [decode_header]
      by_cases hn : n.toNat ≤ rest.length
      · rw [if_pos hn, Exec.bind_ne_panic]
        by_cases hflag : flag = 1
        · subst hflag
          rw [if_pos rfl, Exec.bind_ne_panic]
          constructor
          · rintro ⟨⟨-, h⟩, -⟩ seq' ts' c' n' rest' raw heq hn' hraw
            obtain ⟨hc, -, rfl, rfl⟩ := header_append_inj heq
            obtain rfl := CompressionType.toU8_inj hc
            exact (rawSpans_ne_panic_iff raw).mp (h raw hraw)
          · intro h
            refine ⟨⟨unpack_ne_panic _ _ _, fun raw hraw => ?_⟩, fun _ _ => by simp⟩
            exact (rawSpans_ne_panic_iff raw).mpr (h seq ts c n rest raw rfl hn hraw)
        · rw [if_neg hflag]
          refine iff_of_true ⟨by simp, fun _ _ => by simp⟩ ?_
          intro seq' ts' c' n' rest' raw heq
          exact absurd (header_append_inj heq).2.1 hflag
      · rw [if_neg hn]
        refine iff_of_true (by simp) ?_
        intro seq' ts' c' n' rest' raw heq hn'
        obtain ⟨-, -, rfl, rfl⟩ := header_append_inj heq
        exact absurd hn' hn
    · have ht' : ∀ c : CompressionType, t ≠ c.toU8 := fun c hc => ht ⟨c, hc⟩
      rw [decode_header_unknown k seq ts ht']
      refine iff_of_true (by simp) ?_
      intro seq' ts' c' n' rest' raw heq
      exact absurd (header_append_inj heq).1 (ht' c')

/-- **Neither decoder panics on the bytes that fit, and both do on all others.** -/
theorem decoders_return_iff_fit (k : Codecs) (d : Bytes) :
    (CompactSpan.decode d ≠ .panic ↔ SpanFits d) ∧ (decode k d ≠ .panic ↔ BundleFits k d) :=
  ⟨decode_ne_panic_iff d, decode_ne_panic_iff_bundleFits k d⟩

/-- 68 bytes, so past the size check, with a name of three bytes: the sensor id's length byte is
    read at the end of the buffer. -/
def shortTail : Bytes := List.replicate 32 0 ++ (3 :: (utf8 "abc" ++ List.replicate 32 0))

theorem shortTail_unfit : ¬ SpanFits shortTail := by
  have hdrop : shortTail.drop 32 = 3 :: (utf8 "abc" ++ List.replicate 32 0) := by decide
  rintro (h | ⟨n, r, hr, hnext⟩)
  · exact absurd h (by decide)
  · obtain ⟨rfl, rfl⟩ := List.cons.inj (hdrop.symm.trans hr)
    have hname : fromUtf8 ((utf8 "abc" ++ List.replicate 32 0).take 3) = some "abc" :=
      fromUtf8_utf8 "abc"
    obtain ⟨-, n, r, hr, -⟩ := hnext (by decide) (Option.isSome_iff_exists.mpr ⟨_, hname⟩)
    exact absurd (show [] = n :: r from hr) (by simp)

/-- Both decoders panic on it: the span decoder as it is, the bundle decoder on the bundle whose
    only chunk it is. -/
theorem decoders_panic_shortTail :
    CompactSpan.decode shortTail = .panic ∧
    ∀ k, decode k (header 0 0 0 1 72 ++ frame shortTail) = .panic := by
  refine ⟨not_not.mp fun h => shortTail_unfit ((decode_ne_panic_iff _).mp h), fun k => ?_⟩
  refine not_not.mp fun h => shortTail_unfit ?_
  have hfits := (decode_ne_panic_iff_bundleFits k _).mp h 0 0 .none 72 _ _ rfl (by decide) rfl
  have htake : (frame shortTail).take (72 : UInt32).toNat = frame shortTail ++ [] := by decide
  rw [htake] at hfits
  exact ((spansFit_frame (by decide)).mp hfits).1

end TelemetryBundle

end FloatProtocols
