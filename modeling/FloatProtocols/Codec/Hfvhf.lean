/-
  `hfvhf.rs`: the HF/VHF audio frame — frequency, modulation, 16-bit little-endian samples.

  The parser wants eight bytes and reads from the sixth on in pairs, dropping an odd last byte; the
  encoder allots exactly five bytes and two per sample and copies sample after sample into its own
  window.  `wire` is the form of a message: `encode` writes it (`encode_eq`), and `parse` accepts it
  with at most a byte behind (`parse_eq_some_iff`).  Both rest on the two sample loops, which are
  inductions over the samples (`putSamples_eq`, `parseSamples_pcm`).
-/
import FloatProtocols.Lib.Exec

namespace FloatProtocols

open Wire

namespace Hfvhf

/-- `ModulationType`. -/
inductive ModulationType where
  | am
  | fm
  | ssb
  | cw
  deriving DecidableEq, Repr

/-- `HFVHFMessage`. -/
structure HFVHFMessage where
  frequencyKhz : UInt32
  modulation : ModulationType
  audioSamples : List Int16
  deriving DecidableEq, Repr

/-- The modulation byte, read. -/
def ModulationType.ofU8 (b : UInt8) : Option ModulationType :=
  if b = 0 then some .am
  else if b = 1 then some .fm
  else if b = 2 then some .ssb
  else if b = 3 then some .cw
  else none

/-- The modulation byte, written. -/
def ModulationType.toU8 : ModulationType → UInt8
  | .am => 0
  | .fm => 1
  | .ssb => 2
  | .cw => 3

/-- `chunks(2)`. -/
def chunks2 : Bytes → List Bytes
  | [] => []
  | [a] => [[a]]
  | a :: b :: rest => [a, b] :: chunks2 rest

/-- The sample loop of `parse`: a chunk of one byte is skipped. -/
def parseSamples {ε : Type} : List Bytes → Exec ε (List Int16)
  | [] => .ok []
  | chunk :: rest =>
    if chunk.length = 2 then do
      let sample ← Exec.indices chunk [0, 1]
      let samples ← parseSamples rest
      .ok (ofI16Le sample :: samples)
    else parseSamples rest

/-- `parse`. -/
def parse {ε : Type} (data : Bytes) : Exec ε (Option HFVHFMessage) :=
  if data.length < 8 then .ok none
  else do
    let frequency ← Exec.indices data [0, 1, 2, 3]
    let b ← Exec.index data 4
    match ModulationType.ofU8 b with
    | none => .ok none
    | some modulation => do
      let audio ← Exec.slice data 5 data.length
      let audioSamples ← parseSamples (chunks2 audio)
      .ok (some { frequencyKhz := ofU32Be frequency, modulation, audioSamples })

/-- The sample loop of `encode`, from sample `i` on. -/
def putSamples {ε : Type} (i : Nat) : List Int16 → Bytes → Exec ε Bytes
  | [], buffer => .ok buffer
  | sample :: samples, buffer => do
    let offset := 5 + i * 2
    let buffer ← Exec.copyInto buffer offset (offset + 2) (i16Le sample)
    putSamples (i + 1) samples buffer

/-- `encode`. -/
def encode {ε : Type} (m : HFVHFMessage) : Exec ε Bytes := do
  let buffer := List.replicate (5 + m.audioSamples.length * 2) 0
  let buffer ← Exec.copyInto buffer 0 4 (u32Be m.frequencyKhz)
  let buffer ← Exec.copyInto buffer 4 5 [m.modulation.toU8]
  putSamples 0 m.audioSamples buffer

/-- `codec_translate_to_digital`. -/
def codecTranslateToDigital {ε : Type} (m : HFVHFMessage) : Exec ε Bytes := encode m

/-! ## Samples on the wire -/

/-- The samples, two bytes each. -/
def pcm (samples : List Int16) : Bytes := samples.flatMap i16Le

theorem length_pcm (samples : List Int16) : (pcm samples).length = 2 * samples.length := by
  induction samples with
  | nil => rfl
  | cons sample samples ih =>
    rw [pcm, List.flatMap_cons, List.length_append, length_i16Le, List.length_cons]
    rw [pcm] at ih
    omega

/-- Any bytes are samples and at most one byte more. -/
theorem exists_pcm : ∀ bs : Bytes, ∃ samples tail, tail.length < 2 ∧ bs = pcm samples ++ tail
  | [] => ⟨[], [], by decide, rfl⟩
  | [a] => ⟨[], [a], Nat.lt_succ_self 1, rfl⟩
  | a :: b :: rest => by
    obtain ⟨samples, tail, htail, hrest⟩ := exists_pcm rest
    refine ⟨ofI16Le [a, b] :: samples, tail, htail, ?_⟩
    rw [pcm, List.flatMap_cons, i16Le_ofI16Le rfl, hrest]
    rfl

/-- The loop of `parse` reads the samples back and skips the byte behind them. -/
theorem parseSamples_pcm {ε : Type} (samples : List Int16) {tail : Bytes} (h : tail.length < 2) :
    (parseSamples (chunks2 (pcm samples ++ tail)) : Exec ε _) = .ok samples := by
  induction samples with
  | nil =>
    cases tail with
    | nil => rfl
    | cons a tail =>
      cases tail with
      | nil => rfl
      | cons b tail => exact absurd h (by simp)
  | cons sample samples ih =>
    obtain ⟨a, b, hab⟩ := List.length_eq_two.mp (length_i16Le sample)
    have hcut : pcm (sample :: samples) ++ tail = a :: b :: (pcm samples ++ tail) := by
      rw [pcm, List.flatMap_cons, hab]
      rfl
    have htwo : [a, b].length = 2 := rfl
    rw [hcut, chunks2, parseSamples, if_pos htwo, ih]
    show Exec.ok (ofI16Le [a, b] :: samples) = _
    rw [← hab, ofI16Le_i16Le]

/-- The loop of `encode`: behind the bytes already written, the zeros become the samples. -/
theorem putSamples_eq {ε : Type} (samples : List Int16) : ∀ (i : Nat) (done : Bytes),
    done.length = 5 + i * 2 →
    (putSamples i samples (done ++ List.replicate (samples.length * 2) 0) : Exec ε Bytes)
      = .ok (done ++ pcm samples) := by
  induction samples with
  | nil =>
    intro i done _
    rfl
  | cons sample samples ih =>
    intro i done hdone
    have hlen := length_i16Le sample
    have hrest : (sample :: samples).length * 2 - (i16Le sample).length = samples.length * 2 := by
      rw [List.length_cons, hlen]
      omega
    rw [putSamples, Exec.copyInto_zeros hdone.symm (by rw [hlen]) (by rw [hlen, List.length_cons]; omega),
      hrest, Exec.ok_bind, ih (i + 1) _ (by rw [List.length_append, hlen]; omega), pcm, pcm,
      List.flatMap_cons, List.append_assoc]

/-! ## Messages on the wire -/

/-- The bytes of a message. -/
def wire (m : HFVHFMessage) : Bytes :=
  u32Be m.frequencyKhz ++ m.modulation.toU8 :: pcm m.audioSamples

/-- The bytes a message takes on the wire. -/
def HFVHFMessage.size (m : HFVHFMessage) : Nat := 5 + 2 * m.audioSamples.length

theorem length_wire (m : HFVHFMessage) : (wire m).length = m.size := by
  rw [wire, List.length_append, length_u32Be, List.length_cons, length_pcm, HFVHFMessage.size]
  omega

theorem encode_eq {ε : Type} (m : HFVHFMessage) : (encode m : Exec ε Bytes) = .ok (wire m) := by
  have hzeros : 5 + m.audioSamples.length * 2 - (u32Be m.frequencyKhz).length
      - [m.modulation.toU8].length = m.audioSamples.length * 2 := by
    rw [length_u32Be, List.length_singleton]
    omega
  rw [encode, ← List.nil_append (List.replicate _ _),
    Exec.copyInto_zeros (by simp) (by simp) (by simp; omega), Exec.ok_bind,
    Exec.copyInto_zeros (by simp) (by simp) (by simp; omega), Exec.ok_bind, hzeros,
    putSamples_eq _ 0 _ (by simp), wire]
  simp

theorem ModulationType.ofU8_toU8 (modulation : ModulationType) :
    ModulationType.ofU8 modulation.toU8 = some modulation := by
  cases modulation <;> rfl

theorem ModulationType.toU8_of_ofU8 {b : UInt8} {modulation : ModulationType}
    (h : ModulationType.ofU8 b = some modulation) : modulation.toU8 = b := by
  unfold ModulationType.ofU8 at h
  split at h
  · cases h
    exact ‹b = 0›.symm
  · split at h
    · cases h
      exact ‹b = 1›.symm
    · split at h
      · cases h
        exact ‹b = 2›.symm
      · split at h
        · cases h
          exact ‹b = 3›.symm
        · cases h

/-- `parse` on an input cut into frequency, modulation byte and audio. -/
theorem parse_cut {ε : Type} {f : Bytes} {b : UInt8} {samples : List Int16} {tail : Bytes}
    (hf : f.length = 4) (htail : tail.length < 2)
    (h8 : 8 ≤ (f ++ b :: (pcm samples ++ tail)).length) :
    (parse (f ++ b :: (pcm samples ++ tail)) : Exec ε _) =
      .ok ((ModulationType.ofU8 b).map fun modulation => ⟨ofU32Be f, modulation, samples⟩) := by
  generalize haudio : pcm samples ++ tail = audio at h8 ⊢
  have hfreq : (Exec.indices (f ++ b :: audio) [0, 1, 2, 3] : Exec ε Bytes) = .ok f := by
    rw [show [0, 1, 2, 3] = List.range' 0 4 from rfl, Exec.indices_range' (by omega), window,
      List.drop_zero, List.take_left' hf]
  have hmod : (Exec.index (f ++ b :: audio) 4 : Exec ε UInt8) = .ok b := by
    rw [Exec.index, ← hf, List.getElem?_append_right (Nat.le_refl _), Nat.sub_self]
    rfl
  have hslice : (Exec.slice (f ++ b :: audio) 5 (f ++ b :: audio).length : Exec ε Bytes)
      = .ok audio := by
    have hdrop : (f ++ b :: audio).drop 5 = audio := by
      rw [show 5 = f.length + 1 by omega, List.drop_length_add_append]
      rfl
    rw [Exec.slice_eq_ok (by omega) (Nat.le_refl _), hdrop,
      List.take_of_length_le (by rw [List.length_append, List.length_cons]; omega)]
  rw [parse, if_neg (by omega), hfreq, Exec.ok_bind, hmod, Exec.ok_bind]
  cases ModulationType.ofU8 b with
  | none => rfl
  | some modulation =>
    show (Exec.slice (f ++ b :: audio) 5 (f ++ b :: audio).length >>= fun audio => _) = _
    rw [hslice, Exec.ok_bind, ← haudio, parseSamples_pcm samples htail]
    rfl

/-- From five bytes on, an input is a frequency, a modulation byte, samples and at most a byte. -/
theorem exists_cut {data : Bytes} (h : 5 ≤ data.length) :
    ∃ f b samples tail, f.length = 4 ∧ tail.length < 2 ∧ data = f ++ b :: (pcm samples ++ tail) := by
  obtain ⟨samples, tail, htail, haudio⟩ := exists_pcm (data.drop 5)
  have h4 : 4 < data.length := h
  refine ⟨data.take 4, data[4], samples, tail, List.length_take_of_le (by omega), htail, ?_⟩
  rw [← haudio, ← List.drop_eq_getElem_cons h4, List.take_append_drop]

/-- `parse` accepts the inputs of at least eight bytes that are a message and at most a byte more,
    half a sample. -/
theorem parse_eq_some_iff {ε : Type} {data : Bytes} {m : HFVHFMessage} :
    (parse data : Exec ε _) = .ok (some m) ↔
      8 ≤ data.length ∧ ∃ tail, tail.length < 2 ∧ data = wire m ++ tail := by
  constructor
  · intro h
    rcases Nat.lt_or_ge data.length 8 with hlt | h8
    · rw [parse, if_pos hlt] at h
      cases h
    · obtain ⟨f, b, samples, tail, hf, htail, rfl⟩ := exists_cut (by omega : 5 ≤ data.length)
      rw [parse_cut hf htail h8] at h
      obtain ⟨modulation, hmod, rfl⟩ := Option.map_eq_some_iff.mp (Exec.ok.inj h)
      refine ⟨h8, tail, htail, ?_⟩
      rw [wire, u32Be_ofU32Be hf, ModulationType.toU8_of_ofU8 hmod, List.append_assoc,
        List.cons_append]
  · rintro ⟨h8, tail, htail, rfl⟩
    rw [wire, List.append_assoc, List.cons_append] at h8 ⊢
    rw [parse_cut (length_u32Be _) htail h8, ModulationType.ofU8_toU8, Option.map_some, ofU32Be_u32Be]

/-! ## Size, and no panic -/

theorem size_le {ε : Type} {data : Bytes} {m : HFVHFMessage}
    (h : (parse data : Exec ε _) = .ok (some m)) : m.size ≤ data.length := by
  obtain ⟨-, tail, -, rfl⟩ := parse_eq_some_iff.mp h
  rw [List.length_append, length_wire]
  exact Nat.le_add_right _ _

theorem parse_ne_panic {ε : Type} (data : Bytes) :
    (parse data : Exec ε (Option HFVHFMessage)) ≠ .panic := by
  rcases Nat.lt_or_ge data.length 8 with hlt | h8
  · rw [parse, if_pos hlt]
    simp
  · obtain ⟨f, b, samples, tail, hf, htail, rfl⟩ := exists_cut (by omega : 5 ≤ data.length)
    rw [parse_cut hf htail h8]
    simp

theorem encode_ne_panic {ε : Type} (m : HFVHFMessage) : (encode m : Exec ε Bytes) ≠ .panic := by
  rw [encode_eq]
  simp

/-! ## The round trips -/

/-- A message of two samples or more comes back, and re-encoding an accepted input gives it back
    without the half sample it may end in. -/
theorem encode_parse_inverse :
    (∀ m : HFVHFMessage, 2 ≤ m.audioSamples.length →
      (encode m >>= parse : Exec Empty (Option HFVHFMessage)) = .ok (some m)) ∧
    (∀ (data : Bytes) (m : HFVHFMessage),
      (parse data : Exec Empty (Option HFVHFMessage)) = .ok (some m) →
      (encode m : Exec Empty Bytes) = .ok (if data.length % 2 = 1 then data else data.dropLast) ∧
      (codecTranslateToDigital m : Exec Empty Bytes) = encode m) := by
  constructor
  · intro m h2
    rw [encode_eq, Exec.ok_bind]
    refine parse_eq_some_iff.mpr ⟨?_, [], by decide, (List.append_nil _).symm⟩
    rw [length_wire, HFVHFMessage.size]
    omega
  · intro data m h
    obtain ⟨-, tail, htail, rfl⟩ := parse_eq_some_iff.mp h
    refine ⟨?_, rfl⟩
    rw [encode_eq, List.length_append, length_wire, HFVHFMessage.size]
    cases tail with
    | nil =>
      rw [if_pos (by rw [List.length_nil]; omega), List.append_nil]
    | cons a tail =>
      obtain rfl : tail = [] := by
        rw [List.length_cons] at htail
        exact List.eq_nil_of_length_eq_zero (by omega)
      rw [if_neg (by rw [List.length_singleton]; omega), List.dropLast_concat]

theorem encode_parse_inverse_tone :
    (encode ⟨8000, .fm, [1, -1]⟩ >>= parse : Exec Empty (Option HFVHFMessage))
        = .ok (some ⟨8000, .fm, [1, -1]⟩) ∧
    (encode ⟨8000, .fm, [1, -1]⟩ : Exec Empty Bytes)
        = .ok (if (wire ⟨8000, .fm, [1, -1]⟩).length % 2 = 1 then wire ⟨8000, .fm, [1, -1]⟩
            else (wire ⟨8000, .fm, [1, -1]⟩).dropLast) ∧
    (codecTranslateToDigital ⟨8000, .fm, [1, -1]⟩ : Exec Empty Bytes)
        = encode ⟨8000, .fm, [1, -1]⟩ :=
  ⟨encode_parse_inverse.1 ⟨8000, .fm, [1, -1]⟩ (by decide),
    encode_parse_inverse.2 (wire ⟨8000, .fm, [1, -1]⟩) ⟨8000, .fm, [1, -1]⟩ (by decide)⟩

/-- Eight bytes, one sample and a half. -/
def sampleAndHalf : Bytes := [0x00, 0x00, 0x1F, 0x40, 0x01, 0x34, 0x12, 0x56]

theorem half_sample_dropped :
    (parse sampleAndHalf : Exec Empty (Option HFVHFMessage)) = .ok (some ⟨8000, .fm, [0x1234]⟩)
      ∧ (encode ⟨8000, .fm, [0x1234]⟩ : Exec Empty Bytes)
          = .ok [0x00, 0x00, 0x1F, 0x40, 0x01, 0x34, 0x12] := by
  decide

end Hfvhf

end FloatProtocols
