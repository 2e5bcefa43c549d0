/-
  The spans of a bundle of type `None`, from `encode` to `decode`.

  1. **What arrives (`decode_encode_none`)** — the header comes back as it is, and the chunk loop gets
     the bytes that were SENT: the payload, up to its length as a u32.

  2. **The round trip (`decode_encode_raw`)** — for spans within the limits, of any number.

  3. **No isolation (`isolates_iff`)** — the length in front of a chunk would let the loop step over a
     chunk it cannot read, but the first one ends it.  `CompactSpan::encode` writes the lengths of an
     oversized span modulo 256, so its chunk is readable only by chance, and one span with 256
     attributes loses the others of its bundle.
-/
import FloatProtocols.Otel.Builder

namespace FloatProtocols

open Wire Wire.Reader CompactSpan

namespace TelemetryBundle

/-! ## What arrives -/

/-- The bytes behind the header, as many as its u32 announces. -/
def sent (b : TelemetryBundle) : Bytes := b.payload.take (b.payload.length % 2 ^ 32)

theorem sent_eq_payload {b : TelemetryBundle} (h : b.payload.length < 2 ^ 32) : b.sent = b.payload := by
  rw [sent, Nat.mod_eq_of_lt h, List.take_length]

theorem sent_eq_rawData {b : TelemetryBundle} (hdata : b.compressedData = none)
    (hlen : (rawData b.spans).length < 2 ^ 32) : b.sent = rawData b.spans := by
  have hpay : b.payload = rawData b.spans := by rw [payload, hdata, Option.getD_none]
  exact (sent_eq_payload (hpay ▸ hlen)).trans hpay

/-- A bundle under type `None` is read back with the spans of the chunks that were sent. -/
theorem decode_encode_none (k : Codecs) {b : TelemetryBundle} (hc : b.compressionType = .none) :
    decode k b.encode = rawSpans b.sent >>= fun spans => .ok { b with spans, compressedData := none } := by
  have hspans : (if (if b.compressedData.isSome || !b.spans.isEmpty then 1 else 0 : UInt8) = 1 then
      rawSpans b.sent else .ok []) = rawSpans b.sent := by
    -- without the flag nothing is sent, and the loop finds nothing in it
    cases hflag : b.compressedData.isSome || !b.spans.isEmpty with
    | true => rfl
    | false =>
      obtain ⟨hdata, hnil⟩ := Bool.or_eq_false_iff.mp hflag
      have hpay : b.payload = [] := by
        rw [payload, Option.isSome_eq_false_iff.mp hdata |> Option.isNone_iff_eq_none.mp]
        rw [Bool.not_eq_false', List.isEmpty_iff] at hnil
        rw [hnil]
        rfl
      rw [sent, hpay]
      rfl
  have hle : b.payload.length % 2 ^ 32 ≤ b.payload.length := Nat.mod_le ..
  rw [encode_eq_header, decode_header, UInt32.toNat_ofNat', if_pos hle, ← sent, hc, unpack,
    Exec.ok_bind, hspans]

/-! ## The round trip -/

/-- **The round trip.**  A bundle of type `None` that caches nothing, with spans within the limits and
    less than 2³² bytes of chunks, comes back as it was. -/
theorem decode_encode_raw (k : Codecs) {b : TelemetryBundle} (hc : b.compressionType = .none)
    (hdata : b.compressedData = none) (hs : ∀ s ∈ b.spans, WithinLimits s)
    (hlen : (rawData b.spans).length < 2 ^ 32) : decode k b.encode = .ok b := by
  rw [decode_encode_none k hc, sent_eq_rawData hdata hlen, rawSpans_rawData hs, Exec.ok_bind, ← hdata]

/-- A bundle as `new` and `add_span` leave it, and an empty one. -/
theorem decode_encode_raw_built :
    decode spellCodecs ((new 7 (-1)).addSpan (blankSpan .error)).encode =
      .ok ((new 7 (-1)).addSpan (blankSpan .error)) ∧
    decode spellCodecs (new 7 (-1)).encode = .ok (new 7 (-1)) := by
  refine ⟨decode_encode_raw _ rfl rfl ?_ (by decide),
    decode_encode_raw _ rfl rfl (by simp [new]) (by decide)⟩
  intro s hs
  obtain rfl : s = blankSpan .error := List.mem_singleton.mp hs
  exact withinLimits_blankSpan .error

/-! ## No isolation -/

/-- Every span within the limits is at its place again. -/
def Keeps (spans l : List CompactSpan) : Prop :=
  ∀ (i : Nat) (s : CompactSpan), spans[i]? = some s → WithinLimits s → l[i]? = some s

/-- `decode(encode(b))` returns, with every span within the limits at its place. -/
def Isolates (k : Codecs) (b : TelemetryBundle) : Prop :=
  ∃ b', decode k b.encode = .ok b' ∧ Keeps b.spans b'.spans

theorem scans_frame {x r : Bytes} (hx : x.length < 2 ^ 32) {l : List CompactSpan} :
    Scans (frame x ++ r) l ↔
      ∃ s l', l = s :: l' ∧ WithinLimits s ∧ s.encode <+: x ∧ Scans r l' := by
  constructor
  · intro h
    generalize hb : frame x ++ r = b at h
    cases h with
    | done h =>
      rw [← hb, List.length_append, length_frame] at h
      omega
    | chunk hy hs henc hrest =>
      obtain ⟨rfl, rfl⟩ := frame_append_inj hx hy hb
      exact ⟨_, _, rfl, hs, henc, hrest⟩
  · rintro ⟨s, l', rfl, hs, henc, hrest⟩
    exact .chunk hx hs henc hrest

/-- Every chunk of a scan can be read. -/
theorem Scans.isSpan {spans : List CompactSpan} :
    ∀ {l : List CompactSpan}, (∀ s ∈ spans, s.encode.length < 2 ^ 32) → Scans (rawData spans) l →
      ∀ s ∈ spans, IsSpan s.encode := by
  induction spans with
  | nil =>
    intro l _ _ s hs
    cases hs
  | cons s spans ih =>
    intro l hlen h t ht
    rw [rawData_cons, scans_frame (hlen s List.mem_cons_self)] at h
    obtain ⟨s', l', -, hs', ⟨r, hr⟩, hrest⟩ := h
    rcases List.mem_cons.mp ht with rfl | ht
    · exact ⟨s', r, hs', hr.symm⟩
    · exact ih (fun u hu => hlen u (List.mem_cons_of_mem s hu)) hrest t ht

/-- If every chunk can be read, the spans within the limits are read as themselves. -/
theorem exists_scans {spans : List CompactSpan} :
    (∀ s ∈ spans, s.encode.length < 2 ^ 32) → (∀ s ∈ spans, IsSpan s.encode) →
    ∃ l, Scans (rawData spans) l ∧ Keeps spans l := by
  induction spans with
  | nil =>
    intro _ _
    refine ⟨[], .done (by decide), ?_⟩
    intro i s h
    simp at h
  | cons s spans ih =>
    intro hlen hspan
    obtain ⟨l, hl, hplaces⟩ := ih (fun u hu => hlen u (List.mem_cons_of_mem s hu))
      fun u hu => hspan u (List.mem_cons_of_mem s hu)
    obtain ⟨s', hs', henc, hsame⟩ :
        ∃ s', WithinLimits s' ∧ s'.encode <+: s.encode ∧ (WithinLimits s → s' = s) := by
      by_cases hs : WithinLimits s
      · exact ⟨s, hs, List.prefix_refl _, fun _ => rfl⟩
      · obtain ⟨s', r, hs', hr⟩ := hspan s List.mem_cons_self
        exact ⟨s', hs', ⟨r, hr.symm⟩, fun h => absurd h hs⟩
    refine ⟨s' :: l, .chunk (hlen s List.mem_cons_self) hs' henc hl, ?_⟩
    intro i t ht hlim
    cases i with
    | zero =>
      obtain rfl : s = t := by simpa using ht
      rw [List.getElem?_cons_zero, hsame hlim]
    | succ i =>
      rw [List.getElem?_cons_succ] at ht ⊢
      exact hplaces i t ht hlim

theorem length_encode_lt {spans : List CompactSpan} (h : (rawData spans).length < 2 ^ 32) :
    ∀ s ∈ spans, s.encode.length < 2 ^ 32 := by
  intro s hs
  obtain ⟨before, after, rfl⟩ := List.append_of_mem hs
  rw [rawData, List.flatMap_append, List.flatMap_cons, List.length_append, List.length_append,
    length_frame] at h
  omega

/-- **Which bundles of type `None` keep their legal spans.**  Those whose sent bytes scan, with these
    spans at their places.  Of a bundle that caches nothing and has less than 2³² bytes of chunks this
    asks that EVERY encoding, also that of an oversized span, starts with one of a legal span. -/
theorem isolates_iff (k : Codecs) {b : TelemetryBundle} (hc : b.compressionType = .none) :
    (Isolates k b ↔ ∃ l, Scans b.sent l ∧ Keeps b.spans l) ∧
    (b.compressedData = none → (rawData b.spans).length < 2 ^ 32 →
      (Isolates k b ↔ ∀ s ∈ b.spans, IsSpan s.encode)) := by
  have hscans : Isolates k b ↔ ∃ l, Scans b.sent l ∧ Keeps b.spans l := by
    rw [Isolates, decode_encode_none k hc]
    constructor
    · rintro ⟨b', hb', hplaces⟩
      obtain ⟨l, hl, hb'⟩ := Exec.bind_eq_ok.mp hb'
      obtain rfl := Exec.ok.inj hb'
      exact ⟨l, rawSpans_eq_ok.mp hl, hplaces⟩
    · rintro ⟨l, hl, hplaces⟩
      rw [rawSpans_eq_ok.mpr hl]
      exact ⟨_, rfl, hplaces⟩
  refine ⟨hscans, fun hdata hlen => ?_⟩
  rw [hscans, sent_eq_rawData hdata hlen]
  constructor
  · rintro ⟨l, hl, -⟩
    exact hl.isSpan (length_encode_lt hlen)
  · exact exists_scans (length_encode_lt hlen)

/-- A legal span, and one of 256 empty attributes: its chunk is read as a span without attributes. -/
theorem isolates_iff_lucky :
    let lucky := { blankSpan .ok with attributes := List.replicate 256 ("", "") }
    ¬ WithinLimits lucky ∧
      Isolates spellCodecs (((new 1 0).addSpan (blankSpan .error)).addSpan lucky) := by
  intro lucky
  constructor
  · intro h
    have hcount := h.count
    rw [List.length_replicate] at hcount
    omega
  · refine ((isolates_iff spellCodecs rfl).2 rfl (by decide +kernel)).mpr ?_
    intro s hs
    have hmem : s ∈ [blankSpan .error, lucky] := hs
    rcases List.mem_pair.mp hmem with rfl | rfl
    · exact ⟨_, [], withinLimits_blankSpan .error, (List.append_nil _).symm⟩
    · have hdec : CompactSpan.decode lucky.encode = .ok (blankSpan .ok) := by decide +kernel
      obtain ⟨hlim, r, hr⟩ := decode_eq_ok.mp hdec
      exact ⟨_, r, hlim, hr⟩

/-- A span of 256 attributes with keys of two bytes: the first length byte of a key is read as its
    status. -/
def crowded : CompactSpan := { blankSpan .ok with attributes := List.replicate 256 ("ab", "") }

/-- **One oversized span loses the other**: the whole bundle is an error. -/
theorem crowded_loses_others :
    WithinLimits (blankSpan .ok) ∧
    ∀ k, decode k (((new 1 0).addSpan (blankSpan .ok)).addSpan crowded).encode =
        .err "Invalid status byte" ∧
      ¬ Isolates k (((new 1 0).addSpan (blankSpan .ok)).addSpan crowded) := by
  have hraw : rawSpans (((new 1 0).addSpan (blankSpan .ok)).addSpan crowded).sent =
      .err "Invalid status byte" := by
    decide +kernel
  refine ⟨withinLimits_blankSpan .ok, fun k => ?_⟩
  have herr : decode k (((new 1 0).addSpan (blankSpan .ok)).addSpan crowded).encode =
      .err "Invalid status byte" := by
    rw [decode_encode_none k rfl, hraw, Exec.err_bind]
  refine ⟨herr, ?_⟩
  rintro ⟨b', hb', -⟩
  rw [herr] at hb'
  cases hb'

end TelemetryBundle

end FloatProtocols
