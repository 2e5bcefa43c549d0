/-
  The bundle builder over whole runs: which orders of calls survive `encode` and `decode`.

  1. **Runs** — `build k calls` folds the four builder calls over a fresh bundle; `added calls` is
     what the caller asked for, the spans added since the last `new`.

  2. **History** — what a run DID, without the libraries: the type in force, the spans, and what the
     cached bytes were packed from (`Packed`).  `build_view` is the refinement: the bundle a run
     builds is its history, with the cached bytes computed by the library.

  3. **The crux (`roundTrips_iff_delivered`)** — `encode` sends the cached bytes when there are any,
     and ALWAYS under the current type byte, so the reader gets the spans back when the history is
     `UpToDate` and the payload fits its 32-bit length.  Every other history fails:
       - a stale cache unpacks to the spans it was made of (`delivered_packed`);
       - a type byte over raw chunks, or over the other library's output, is rejected by its magic
         (`delivered_raw`, `unpack_announced_other`);
       - a truncated payload is short of the spans (`length_rawData_le`, `Lawful.truncated`).
     One corner stays open to chance: compressed bytes read as raw chunks (`Fluke`), and that needs
     half a gigabyte of them.
-/
import FloatProtocols.Otel.Bundle

namespace FloatProtocols

open Wire Wire.Reader CompactSpan

namespace TelemetryBundle

/-! ## Runs of the builder -/

/-- The four builder calls; `new` starts over. -/
inductive Call where
  | new (sequenceNumber : UInt64) (now : Int64)
  | addSpan (s : CompactSpan)
  | withCompression (c : CompressionType)
  | compress (level : Int32)

/-- One call on a bundle. -/
def Call.apply (k : Codecs) (b : TelemetryBundle) : Call → TelemetryBundle
  | .new seq now => TelemetryBundle.new seq now
  | .addSpan s => b.addSpan s
  | .withCompression c => b.withCompression c
  | .compress level => TelemetryBundle.compress k b level

/-- The bundle a run of calls leaves. -/
def build (k : Codecs) (seq : UInt64) (now : Int64) (calls : List Call) : TelemetryBundle :=
  calls.foldl (Call.apply k) (new seq now)

/-- The spans added since the last `new`, in order. -/
def added (calls : List Call) : List CompactSpan :=
  calls.foldl (fun acc call =>
    match call with
    | .new _ _ => []
    | .addSpan s => acc ++ [s]
    | .withCompression _ => acc
    | .compress _ => acc) []

/-- The reader gets exactly `spans` from the encoded bundle. -/
def RoundTrips (k : Codecs) (b : TelemetryBundle) (spans : List CompactSpan) : Prop :=
  ∃ b', decode k (encode b) = .ok b' ∧ b'.spans = spans

/-! ## The libraries -/

/-- The first byte of a payload of each type: of zstd's and gzip's magic numbers, and of the length
    of a span chunk, which is below 2^24. -/
def magic : CompressionType → UInt8
  | .none => 0
  | .zstd => 0x28
  | .gzip => 0x1F

/-- What is documented of the compressor and the decompressor of type `c`: compressing does not fail
    and is undone, the output starts with the format's magic number, a strict part of it does not
    decompress (an empty input may, to nothing), and input of another type is rejected. -/
structure Lawful (c : CompressionType) (enc : Int32 → Bytes → Option Bytes)
    (dec : Bytes → Option Bytes) : Prop where
  inverts : ∀ level d, ∃ r, enc level d = some (magic c :: r) ∧ dec (magic c :: r) = some d
  truncated : ∀ level d z n d', enc level d = some z → n < z.length →
    dec (z.take n) = some d' → d' = []
  rejects : ∀ c' r, c' ≠ c → dec (magic c' :: r) = none

/-- Both libraries behave as documented. -/
structure LawfulCodecs (k : Codecs) : Prop where
  zstd : Lawful .zstd k.zstdEncode k.zstdDecode
  gzip : Lawful .gzip k.gzipEncode k.gzipDecode

/-! ## What a run did -/

/-- What cached bytes were made of: a real compression type and at least one span. -/
structure Packed where
  type : CompressionType
  level : Int32
  spans : List CompactSpan
  typed : type ≠ .none
  filled : spans ≠ []

/-- The cached bytes. -/
def Packed.bytes (k : Codecs) (p : Packed) : Option Bytes :=
  match p.type with
  | .none => none
  | .zstd => k.zstdEncode p.level (rawData p.spans)
  | .gzip => k.gzipEncode p.level (rawData p.spans)

/-- The type in force, the spans, and the cache; spans are only ever added behind those the cache
    was made of. -/
structure History where
  type : CompressionType
  spans : List CompactSpan
  packed : Option Packed
  grown : ∀ p, packed = some p → p.spans <+: spans

/-- A fresh bundle. -/
def History.fresh : History := ⟨.none, [], none, by simp⟩

/-- One call, as far as the history goes: `compress` without spans does nothing. -/
def History.apply (h : History) : Call → History
  | .new _ _ => .fresh
  | .addSpan s => ⟨h.type, h.spans ++ [s], h.packed,
      fun p hp => (h.grown p hp).trans (List.prefix_append _ _)⟩
  | .withCompression c => ⟨c, h.spans, h.packed, h.grown⟩
  | .compress level =>
    if hs : h.spans = [] then h
    else if ht : h.type = .none then ⟨h.type, h.spans, none, by simp⟩
    else ⟨h.type, h.spans, some ⟨h.type, level, h.spans, ht, hs⟩, by simp⟩

/-- The history of a run. -/
def history (calls : List Call) : History := calls.foldl History.apply .fresh

/-- The bundle is its history, with the cache computed by the library. -/
structure View (k : Codecs) (h : History) (b : TelemetryBundle) : Prop where
  type : b.compressionType = h.type
  spans : b.spans = h.spans
  cache : b.compressedData = h.packed.bind (Packed.bytes k)

theorem Packed.exists_bytes {k : Codecs} (hk : LawfulCodecs k) (p : Packed) :
    ∃ r, p.bytes k = some (magic p.type :: r) ∧
      unpack k p.type (magic p.type :: r) = .ok (rawData p.spans) := by
  obtain ⟨type, level, spans, typed, filled⟩ := p
  cases type with
  | none => exact absurd rfl typed
  | zstd =>
    obtain ⟨r, henc, hdec⟩ := hk.zstd.inverts level (rawData spans)
    exact ⟨r, henc, by rw [unpack, hdec]; rfl⟩
  | gzip =>
    obtain ⟨r, henc, hdec⟩ := hk.gzip.inverts level (rawData spans)
    exact ⟨r, henc, by rw [unpack, hdec]; rfl⟩

/-- A library does not fail, so `compress` on spans leaves the bytes of their `Packed`. -/
theorem compress_packed {k : Codecs} (hk : LawfulCodecs k) (b : TelemetryBundle) (level : Int32)
    (ht : b.compressionType ≠ .none) (hs : b.spans ≠ []) :
    compress k b level =
      { b with compressedData := Packed.bytes k ⟨b.compressionType, level, b.spans, ht, hs⟩ } := by
  obtain ⟨seq, ts, type, spans, cache⟩ := b
  obtain ⟨r, hbytes, -⟩ := Packed.exists_bytes hk ⟨type, level, spans, ht, hs⟩
  rw [hbytes, compress, if_neg hs]
  cases type with
  | none => exact absurd rfl ht
  | zstd =>
    have henc : k.zstdEncode level (rawData spans) = some (magic .zstd :: r) := hbytes
    simp only [henc]
  | gzip =>
    have henc : k.gzipEncode level (rawData spans) = some (magic .gzip :: r) := hbytes
    simp only [henc]

/-- There are spans wherever there is a cache. -/
theorem History.spans_ne_nil (h : History) {p : Packed} (hp : h.packed = some p) :
    h.spans ≠ [] := by
  intro hnil
  have hgrown := h.grown p hp
  rw [hnil] at hgrown
  exact p.filled (List.prefix_nil.mp hgrown)

/-- One call keeps bundle and history together. -/
theorem View.apply {k : Codecs} (hk : LawfulCodecs k) {h : History} {b : TelemetryBundle}
    (hv : View k h b) (call : Call) : View k (h.apply call) (call.apply k b) := by
  cases call with
  | new seq now => exact ⟨rfl, rfl, rfl⟩
  | addSpan s => exact ⟨hv.type, congrArg (· ++ [s]) hv.spans, hv.cache⟩
  | withCompression c => exact ⟨rfl, hv.spans, hv.cache⟩
  | compress level =>
    obtain ⟨type, spans, packed, grown⟩ := h
    obtain ⟨seq, ts, type', spans', cache⟩ := b
    obtain ⟨rfl, rfl, hcache⟩ : type' = type ∧ spans' = spans ∧ _ := ⟨hv.type, hv.spans, hv.cache⟩
    rw [Call.apply, History.apply]
    by_cases hs : spans' = []
    · rw [dif_pos hs, compress, if_pos hs]
      exact hv
    · rw [dif_neg hs]
      by_cases ht : type' = .none
      · subst ht
        rw [dif_pos rfl, compress, if_neg hs]
        exact ⟨rfl, rfl, rfl⟩
      · rw [dif_neg ht, compress_packed hk _ _ ht hs]
        exact ⟨rfl, rfl, rfl⟩

/-- **The bundle a run builds is the history of the run.** -/
theorem build_view {k : Codecs} (hk : LawfulCodecs k) (seq : UInt64) (now : Int64)
    (calls : List Call) : View k (history calls) (build k seq now calls) := by
  have hrun : ∀ (calls : List Call) (h : History) (b : TelemetryBundle), View k h b →
      View k (calls.foldl History.apply h) (calls.foldl (Call.apply k) b) := by
    intro calls
    induction calls with
    | nil => exact fun h b hv => hv
    | cons call calls ih => exact fun h b hv => ih _ _ (hv.apply hk call)
  exact hrun calls _ _ ⟨rfl, rfl, rfl⟩

/-- What was asked for is what the history holds. -/
theorem history_spans (calls : List Call) : (history calls).spans = added calls := by
  have hstep : ∀ (h : History) (call : Call), (h.apply call).spans =
      match call with
      | .new _ _ => []
      | .addSpan s => h.spans ++ [s]
      | .withCompression _ => h.spans
      | .compress _ => h.spans := by
    intro h call
    cases call with
    | new seq now => rfl
    | addSpan s => rfl
    | withCompression c => rfl
    | compress level =>
      rw [History.apply]
      split
      · rfl
      · split <;> rfl
  exact (List.foldl_hom History.spans fun h call => (hstep h call).symm).symm

/-! ## What the reader is given -/

/-- `has_data`. -/
def History.hasData (h : History) : Bool := h.packed.isSome || !h.spans.isEmpty

/-- The bytes `encode` puts behind the header. -/
def History.payload (k : Codecs) (h : History) : Bytes :=
  match h.packed with
  | some p => (p.bytes k).getD []
  | none => rawData h.spans

/-- The part of the payload the 32-bit length announces. -/
def History.announced (k : Codecs) (h : History) : Bytes :=
  (h.payload k).take ((h.payload k).length % 2 ^ 32)

/-- What `decode` makes of it, under the type byte of the history. -/
def History.delivered (k : Codecs) (h : History) : Exec String (List CompactSpan) :=
  if h.hasData then unpack k h.type (h.announced k) >>= rawSpans else .ok []

theorem encode_view {k : Codecs} (hk : LawfulCodecs k) {h : History} {b : TelemetryBundle}
    (hv : View k h b) :
    encode b = header b.sequenceNumber b.batchTimestamp h.type.toU8 (if h.hasData then 1 else 0)
      (UInt32.ofNat (h.payload k).length) ++ h.payload k := by
  rw [encode_eq_header, payload, hv.cache, hv.spans, hv.type, History.hasData, History.payload]
  cases hp : h.packed with
  | none => rfl
  | some p =>
    obtain ⟨r, hbytes, -⟩ := p.exists_bytes hk
    simp only [Option.bind_some, hbytes, Option.getD_some, Option.isSome_some]

/-- The round trip, read off the history. -/
theorem roundTrips_iff_delivered {k : Codecs} (hk : LawfulCodecs k) {h : History}
    {b : TelemetryBundle} (hv : View k h b) (l : List CompactSpan) :
    RoundTrips k b l ↔ h.delivered k = .ok l := by
  have hmod : (UInt32.ofNat (h.payload k).length).toNat = (h.payload k).length % 2 ^ 32 :=
    UInt32.toNat_ofNat'
  have hspans : (if (if h.hasData then 1 else 0 : UInt8) = 1 then
      unpack k h.type ((h.payload k).take ((h.payload k).length % 2 ^ 32)) >>= rawSpans
      else .ok []) = h.delivered k := by
    rw [History.delivered, History.announced]
    cases h.hasData with
    | true => rfl
    | false => rfl
  rw [RoundTrips, encode_view hk hv, decode_header, hmod, if_pos (Nat.mod_le _ _), hspans]
  constructor
  · rintro ⟨b', hb', rfl⟩
    obtain ⟨l, hl, hb'⟩ := Exec.bind_eq_ok.mp hb'
    rw [hl, ← Exec.ok.inj hb']
  · intro hl
    rw [hl]
    exact ⟨_, rfl, rfl⟩

/-! ## When it is what was added -/

/-- The cache, if there is one, was made of the current spans under the current type; without one,
    raw chunks go under type `None`. -/
def UpToDate (h : History) : Prop :=
  match h.packed with
  | none => h.type = .none ∨ h.spans = []
  | some p => h.type = p.type ∧ h.spans = p.spans

/-- Compressed bytes under type `None` that, read as raw chunks, happen to hold the spans. -/
def Fluke (k : Codecs) (h : History) : Prop :=
  h.packed.isSome ∧ h.type = .none ∧ rawSpans (h.announced k) = .ok h.spans

/-- Raw chunks start with the top byte of a small length. -/
theorem rawData_eq_cons {spans : List CompactSpan} (hs : ∀ s ∈ spans, WithinLimits s)
    (hne : spans ≠ []) : ∃ r, rawData spans = magic .none :: r := by
  obtain ⟨s, rest, rfl⟩ := List.exists_cons_of_ne_nil hne
  have hlen := length_encode_le (hs s (List.mem_cons_self ..))
  obtain ⟨r, hr⟩ := u32Be_eq_cons (UInt32.ofNat s.encode.length)
  have hzero : (UInt32.ofNat s.encode.length).toNat / 2 ^ 24 = 0 := by
    rw [toNat_ofNat_length (by omega)]
    omega
  rw [hzero] at hr
  refine ⟨r ++ s.encode ++ rawData rest, ?_⟩
  rw [rawData_cons, frame, hr]
  rfl

/-- A library rejects what another type's payload starts with. -/
theorem unpack_other {k : Codecs} (hk : LawfulCodecs k) {c c' : CompressionType} (hc : c ≠ .none)
    (hne : c' ≠ c) (r d : Bytes) : unpack k c (magic c' :: r) ≠ .ok d := by
  cases c with
  | none => exact absurd rfl hc
  | zstd => rw [unpack, hk.zstd.rejects c' r hne]; simp
  | gzip => rw [unpack, hk.gzip.rejects c' r hne]; simp

theorem Lawful.dec_nil {c : CompressionType} {enc : Int32 → Bytes → Option Bytes}
    {dec : Bytes → Option Bytes} (hl : Lawful c enc dec) {d : Bytes} (hd : dec [] = some d) :
    d = [] := by
  obtain ⟨r, henc, -⟩ := hl.inverts 0 []
  exact hl.truncated 0 [] _ 0 d henc (Nat.succ_pos _) hd

/-- From an empty payload a library gets nothing. -/
theorem unpack_nil {k : Codecs} (hk : LawfulCodecs k) (c : CompressionType) {d : Bytes}
    (hd : unpack k c [] = .ok d) : d = [] := by
  cases c with
  | none => exact (Exec.ok.inj hd).symm
  | zstd => exact hk.zstd.dec_nil (Exec.okOr_eq_ok.mp hd)
  | gzip => exact hk.gzip.dec_nil (Exec.okOr_eq_ok.mp hd)

/-- From a truncated cache a library gets nothing. -/
theorem Packed.unpack_take {k : Codecs} (hk : LawfulCodecs k) (p : Packed) {z d : Bytes} {n : Nat}
    (hz : p.bytes k = some z) (hn : n < z.length) (hd : unpack k p.type (z.take n) = .ok d) :
    d = [] := by
  obtain ⟨type, level, spans, typed, filled⟩ := p
  cases type with
  | none => exact absurd rfl typed
  | zstd => exact hk.zstd.truncated _ _ _ _ _ hz hn (Exec.okOr_eq_ok.mp hd)
  | gzip => exact hk.gzip.truncated _ _ _ _ _ hz hn (Exec.okOr_eq_ok.mp hd)

/-- A payload that unpacks to nothing, if at all, loses the spans. -/
theorem delivered_ne_of_unpack {k : Codecs} {h : History} (hs : h.spans ≠ [])
    (hd : ∀ d, unpack k h.type (h.announced k) = .ok d → d = []) :
    h.delivered k ≠ .ok h.spans := by
  have hdata : h.hasData = true := by
    rw [History.hasData, List.isEmpty_eq_false_iff.mpr hs]
    simp
  rw [History.delivered, if_pos hdata]
  intro heq
  obtain ⟨d, hunpack, hraw⟩ := Exec.bind_eq_ok.mp heq
  rw [hd d hunpack] at hraw
  exact hs (Exec.ok.inj hraw).symm

/-- A payload of one type under the byte of another is rejected, or is empty. -/
theorem unpack_announced_other {k : Codecs} (hk : LawfulCodecs k) {h : History}
    {c' : CompressionType} {r : Bytes} (hp : h.payload k = magic c' :: r) (hc : h.type ≠ .none)
    (hne : c' ≠ h.type) : ∀ d, unpack k h.type (h.announced k) = .ok d → d = [] := by
  intro d hd
  rw [History.announced, hp] at hd
  cases hn : (magic c' :: r).length % 2 ^ 32 with
  | zero =>
    rw [hn, List.take_zero] at hd
    exact unpack_nil hk _ hd
  | succ n =>
    rw [hn, List.take_succ_cons] at hd
    exact absurd hd (unpack_other hk hc hne _ _)

theorem announced_eq {k : Codecs} {h : History} (hlt : (h.payload k).length < 2 ^ 32) :
    h.announced k = h.payload k := by
  rw [History.announced, Nat.mod_eq_of_lt hlt, List.take_length]

/-- Without a cache. -/
theorem delivered_raw {k : Codecs} (hk : LawfulCodecs k) {h : History} (hp : h.packed = none)
    (hlim : ∀ s ∈ h.spans, WithinLimits s) :
    h.delivered k = .ok h.spans ↔ UpToDate h ∧ (h.payload k).length < 2 ^ 32 := by
  have hpay : h.payload k = rawData h.spans := by rw [History.payload, hp]
  by_cases hs : h.spans = []
  · have hdata : h.hasData = false := by rw [History.hasData, hp, hs]; rfl
    refine iff_of_true (by rw [History.delivered, hdata, hs]; rfl) ⟨?_, ?_⟩
    · rw [UpToDate, hp]
      exact Or.inr hs
    · rw [hpay, hs]
      exact Nat.two_pow_pos 32
  · by_cases ht : h.type = .none
    · have hdata : h.hasData = true := by
        rw [History.hasData, List.isEmpty_eq_false_iff.mpr hs]
        simp
      have hup : UpToDate h := by
        rw [UpToDate, hp]
        exact Or.inl ht
      have hdel : h.delivered k = rawSpans (h.announced k) := by
        rw [History.delivered, if_pos hdata, ht]
        rfl
      rw [hdel, and_iff_right hup]
      rcases Nat.lt_or_ge (h.payload k).length (2 ^ 32) with hlt | hge
      · refine iff_of_true ?_ hlt
        rw [announced_eq hlt, hpay]
        exact rawSpans_rawData hlim
      · -- the announced part is short of the spans' own chunks
        refine iff_of_false (fun hraw => ?_) (by omega)
        have hle := length_rawData_le hraw
        have hmod : (h.payload k).length % 2 ^ 32 < 2 ^ 32 := Nat.mod_lt _ (Nat.two_pow_pos 32)
        rw [History.announced, List.length_take, ← hpay] at hle
        omega
    · obtain ⟨r, hr⟩ := rawData_eq_cons hlim hs
      refine iff_of_false (delivered_ne_of_unpack hs ?_) ?_
      · exact unpack_announced_other hk (hpay.trans hr) ht (Ne.symm ht)
      · rintro ⟨hup, -⟩
        rw [UpToDate, hp] at hup
        rcases hup with h | h
        · exact ht h
        · exact hs h

/-- With a cache. -/
theorem delivered_packed {k : Codecs} (hk : LawfulCodecs k) {h : History} {p : Packed}
    (hp : h.packed = some p) (hlim : ∀ s ∈ h.spans, WithinLimits s) :
    h.delivered k = .ok h.spans ↔
      UpToDate h ∧ (h.payload k).length < 2 ^ 32 ∨ Fluke k h := by
  obtain ⟨r, hbytes, hunpack⟩ := p.exists_bytes hk
  have hpay : h.payload k = magic p.type :: r := by
    rw [History.payload, hp]
    simp only [hbytes, Option.getD_some]
  have hgrown := h.grown p hp
  have hs := h.spans_ne_nil hp
  have hup : UpToDate h ↔ h.type = p.type ∧ h.spans = p.spans := by rw [UpToDate, hp]
  have hdata : h.hasData = true := by rw [History.hasData, hp]; rfl
  by_cases hnone : h.type = .none
  · -- compressed bytes read as raw chunks
    have hdel : h.delivered k = rawSpans (h.announced k) := by
      rw [History.delivered, if_pos hdata, hnone]
      rfl
    have hstale : ¬ UpToDate h := fun hu => p.typed ((hup.mp hu).1.symm.trans hnone)
    rw [hdel, Fluke, hp]
    simp [hstale, hnone]
  · have hfluke : ¬ Fluke k h := fun hf => hnone hf.2.1
    rw [or_iff_left hfluke]
    by_cases ht : h.type = p.type
    · rcases Nat.lt_or_ge (h.payload k).length (2 ^ 32) with hlt | hge
      · have hlim' : ∀ s ∈ p.spans, WithinLimits s := fun s hmem => hlim s (hgrown.subset hmem)
        have hdel : h.delivered k = .ok p.spans := by
          rw [History.delivered, if_pos hdata, announced_eq hlt, hpay, ht, hunpack, Exec.ok_bind,
            rawSpans_rawData hlim']
        rw [hdel, hup, Exec.ok.injEq, and_iff_left hlt, and_iff_right ht, eq_comm]
      · refine iff_of_false (delivered_ne_of_unpack hs fun d hd => ?_) (by omega)
        rw [ht, History.announced, hpay] at hd
        rw [hpay] at hge
        exact p.unpack_take hk hbytes (by omega) hd
    · refine iff_of_false (delivered_ne_of_unpack hs ?_) (fun hu => ht (hup.mp hu.1).1)
      exact unpack_announced_other hk hpay hnone (Ne.symm ht)

/-- A chunk that starts with a byte `m` is as long as that byte, in the top place, says. -/
theorem length_of_frame_eq_cons {x r t : Bytes} {m : UInt8} (hx : x.length < 2 ^ 32)
    (h : frame x ++ r = m :: t) : m.toNat * 2 ^ 24 ≤ x.length := by
  obtain ⟨u, hu⟩ := u32Be_eq_cons (UInt32.ofNat x.length)
  rw [toNat_ofNat_length hx] at hu
  rw [frame, hu] at h
  have hm : UInt8.ofNat (x.length / 2 ^ 24) = m := (List.cons.inj h).1
  have hm' : x.length / 2 ^ 24 % 2 ^ 8 = m.toNat := by rw [← hm, UInt8.toNat_ofNat']
  omega

/-- Compressed bytes start with a chunk length of half a gigabyte. -/
theorem fluke_large {k : Codecs} (hk : LawfulCodecs k) {h : History} (hf : Fluke k h) :
    0x1F000000 < (h.payload k).length := by
  obtain ⟨hsome, -, hraw⟩ := hf
  obtain ⟨p, hp⟩ := Option.isSome_iff_exists.mp hsome
  obtain ⟨r, hbytes, -⟩ := p.exists_bytes hk
  have hpay : h.payload k = magic p.type :: r := by
    rw [History.payload, hp]
    simp only [hbytes, Option.getD_some]
  obtain ⟨x, t, hx, hann⟩ := exists_frame_of_rawSpans hraw (h.spans_ne_nil hp)
  have hlen : 4 + x.length ≤ (h.payload k).length := by
    have hle : (h.announced k).length ≤ (h.payload k).length := List.length_take_le' ..
    rw [hann, List.length_append, length_frame] at hle
    omega
  have hsplit : frame x ++ (t ++ (h.payload k).drop ((h.payload k).length % 2 ^ 32))
      = magic p.type :: r := by
    rw [← List.append_assoc, ← hann, History.announced, List.take_append_drop, hpay]
  have htop := length_of_frame_eq_cons hx hsplit
  have hmagic : 0x1F ≤ (magic p.type).toNat := by
    cases hc : p.type with
    | none => exact absurd hc p.typed
    | zstd => decide
    | gzip => decide
  omega

/-! ## A pair of lawful libraries -/

/-- A stand-in format: each byte behind a `1`, and a `0` at the end. -/
def spell : Bytes → Bytes
  | [] => [0]
  | b :: d => 1 :: b :: spell d

/-- Its reader: anything short of the final `0`, or behind it, is an error. -/
def unspell : Bytes → Option Bytes
  | [] => none
  | [t] => if t = 0 then some [] else none
  | t :: b :: r => if t = 1 then (unspell r).map (b :: ·) else none

theorem unspell_spell : ∀ d, unspell (spell d) = some d
  | [] => rfl
  | b :: d => by
    show (if (1 : UInt8) = 1 then (unspell (spell d)).map (b :: ·) else none) = _
    rw [if_pos rfl, unspell_spell d]
    rfl

theorem unspell_take : ∀ d n, n < (spell d).length → unspell ((spell d).take n) = none
  | [], 0, _ => rfl
  | [], n + 1, hn => absurd hn (by simp [spell])
  | b :: d, 0, _ => rfl
  | b :: d, 1, _ => rfl
  | b :: d, n + 2, hn => by
    have hn' : n < (spell d).length := by
      simp only [spell, List.length_cons] at hn
      omega
    show (if (1 : UInt8) = 1 then (unspell ((spell d).take n)).map (b :: ·) else none) = _
    rw [if_pos rfl, unspell_take d n hn']
    rfl

/-- The stand-in under the magic byte of a type. -/
def spellUnder (c : CompressionType) (d : Bytes) : Option Bytes := some (magic c :: spell d)

def unspellUnder (c : CompressionType) : Bytes → Option Bytes
  | [] => none
  | m :: r => if m = magic c then unspell r else none

theorem lawful_spell (c : CompressionType) :
    Lawful c (fun _ => spellUnder c) (unspellUnder c) := by
  refine ⟨fun level d => ⟨spell d, rfl, ?_⟩, fun level d z n d' hz hn hd => ?_, fun c' r hne => ?_⟩
  · rw [unspellUnder, if_pos rfl, unspell_spell]
  · obtain rfl : magic c :: spell d = z := Option.some.inj hz
    cases n with
    | zero => exact absurd hd (by simp [unspellUnder])
    | succ n =>
      rw [List.take_succ_cons, unspellUnder, if_pos rfl,
        unspell_take d n (by rw [List.length_cons] at hn; omega)] at hd
      exact absurd hd (by simp)
  · rw [unspellUnder, if_neg]
    revert hne
    cases c <;> cases c' <;> decide

/-- The two libraries with the stand-in format. -/
def spellCodecs : Codecs where
  zstdEncode _ := spellUnder .zstd
  zstdDecode := unspellUnder .zstd
  gzipEncode _ := spellUnder .gzip
  gzipDecode := unspellUnder .gzip

theorem lawful_spellCodecs : LawfulCodecs spellCodecs := ⟨lawful_spell .zstd, lawful_spell .gzip⟩

/-! ## The runs that survive, and one that does not -/

/-- **The round trip over every order of calls.**  The added spans are read back exactly when the
    cache is up to date and the payload fits its length field — or by chance, from compressed bytes
    of more than half a gigabyte under type `None`. -/
theorem builder_round_trip_iff {k : Codecs} (hk : LawfulCodecs k) (seq : UInt64) (now : Int64)
    (calls : List Call) (hlim : ∀ s ∈ added calls, WithinLimits s) :
    (RoundTrips k (build k seq now calls) (added calls) ↔
      UpToDate (history calls) ∧ ((history calls).payload k).length < 2 ^ 32 ∨
      Fluke k (history calls)) ∧
    (Fluke k (history calls) → 0x1F000000 < ((history calls).payload k).length) := by
  refine ⟨?_, fluke_large hk⟩
  rw [roundTrips_iff_delivered hk (build_view hk seq now calls), ← history_spans]
  rw [← history_spans] at hlim
  cases hp : (history calls).packed with
  | none =>
    have hfluke : ¬ Fluke k (history calls) := fun hf => by
      rw [Fluke, hp] at hf
      exact absurd hf.1 (by simp)
    rw [or_iff_left hfluke]
    exact delivered_raw hk hp hlim
  | some p => exact delivered_packed hk hp hlim

/-- A span with empty texts. -/
def blankSpan (status : SpanStatus) : CompactSpan where
  traceId := ⟨List.replicate 16 0, rfl⟩
  spanId := ⟨List.replicate 8 0, rfl⟩
  parentSpanId := ⟨List.replicate 8 0, rfl⟩
  name := ""
  startTimeUnixNano := 0
  endTimeUnixNano := 0
  tEvent := 0
  tSystem := 0
  sensorId := ""
  attributes := []
  status := status

theorem withinLimits_blankSpan (status : SpanStatus) : WithinLimits (blankSpan status) :=
  ⟨Nat.zero_le _, Nat.zero_le _, fun _ h => absurd h List.not_mem_nil, Nat.zero_le _⟩

theorem withinLimits_of_mem_pair {s : CompactSpan} (h : s ∈ [blankSpan .ok, blankSpan .error]) :
    WithinLimits s := by
  rcases List.mem_pair.mp h with rfl | rfl
  · exact withinLimits_blankSpan .ok
  · exact withinLimits_blankSpan .error

/-- Compressed, grown by a span and compressed again. -/
def packedCalls : List Call :=
  [.withCompression .zstd, .addSpan (blankSpan .ok), .compress 3, .addSpan (blankSpan .error), .compress 3]

theorem builder_round_trip_packed :
    RoundTrips spellCodecs (build spellCodecs 1 0 packedCalls) [blankSpan .ok, blankSpan .error] := by
  have hsize : ((history packedCalls).payload spellCodecs).length < 2 ^ 32 := by decide +kernel
  exact (builder_round_trip_iff lawful_spellCodecs 1 0 packedCalls
    fun s hs => withinLimits_of_mem_pair hs).1.mpr (.inl ⟨⟨rfl, rfl⟩, hsize⟩)

/-- A span added behind the cache. -/
def staleCalls : List Call :=
  [.withCompression .zstd, .addSpan (blankSpan .ok), .compress 3, .addSpan (blankSpan .error)]

/-- The second span is lost, whatever the library: the cache still holds the first one alone. -/
theorem builder_stale_cache :
    (∃ k, LawfulCodecs k) ∧ (∀ s ∈ added staleCalls, WithinLimits s) ∧
    ∀ k, LawfulCodecs k → ∀ seq now,
      ¬ RoundTrips k (build k seq now staleCalls) (added staleCalls) := by
  have hlim : ∀ s ∈ added staleCalls, WithinLimits s := fun s hs => withinLimits_of_mem_pair hs
  refine ⟨⟨_, lawful_spellCodecs⟩, hlim, fun k hk seq now h => ?_⟩
  rw [roundTrips_iff_delivered hk (build_view hk seq now staleCalls), ← history_spans] at h
  rw [← history_spans] at hlim
  rcases (delivered_packed hk rfl hlim).mp h with ⟨⟨-, hspans⟩, -⟩ | ⟨-, htype, -⟩
  · exact absurd (congrArg List.length hspans) (by decide)
  · exact absurd (show CompressionType.zstd = .none from htype) (by decide)

end TelemetryBundle

end FloatProtocols
