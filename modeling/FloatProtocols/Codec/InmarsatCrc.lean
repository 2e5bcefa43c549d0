/-
  The checksum of `inmarsat_c.rs`: corrupt frames are refused.

  An Inmarsat C frame ends in the CRC of all that stands before it, and has no length field.  So
  a corrupted frame is checked at the same place as the frame it was, and `parse` does compare: unlike
  its Iridium counterpart it refuses every frame that a burst of up to sixteen bits has hit, and with it
  the translation does.

  `CRC_16_IBM_3740` is the register of `Lib.Crc`; a frame is sealed exactly when the register is empty
  behind it (`sealed_iff_run`).
-/
import FloatProtocols.Codec.IridiumCrc

namespace FloatProtocols

open Wire

namespace InmarsatC

/-- `CRC_16_IBM_3740`: polynomial 0x1021, all ones at the start, the highest bit first. -/
def Ibm3740 (checksum : Bytes → UInt16) : Prop :=
  ∀ bs, (checksum bs).toBitVec = Crc.run 0x1021#16 0xFFFF#16 (Crc.bitsOf bs)

/-- The loop of `iridium_sbd.rs` computes the same. -/
theorem ibm3740_crc16Ccitt : Ibm3740 IridiumSbd.crc16Ccitt := fun bs =>
  IridiumSbd.toBitVec_crc16CcittContinue bs IridiumSbd.crc16CcittInit

variable {libs : Libs} {data : Bytes}

/-- The last two bytes are the checksum of the others. -/
def Sealed (libs : Libs) (data : Bytes) : Prop :=
  libs.checksum (window data 0 (data.length - 2)) = ofU16Be (window data (data.length - 2) 2)

/-- The register is empty behind a sealed frame, and behind no other. -/
theorem sealed_iff_run (hcrc : Ibm3740 libs.checksum) (h : 2 ≤ data.length) :
    Sealed libs data ↔ Crc.run 0x1021#16 0xFFFF#16 (Crc.bitsOf data) = 0#16 := by
  have hpoly : (0x1021#16).getLsbD 0 = true := by decide
  have hend : window data (data.length - 2) 2 = data.drop (data.length - 2) := by
    rw [window, List.take_of_length_le (by rw [List.length_drop]; omega)]
  have hfront : window data 0 (data.length - 2) = data.take (data.length - 2) := rfl
  have hbits : Crc.bitsOf data = Crc.bitsOf (window data 0 (data.length - 2)) ++
      Crc.bits (ofU16Be (window data (data.length - 2) 2)).toBitVec := by
    rw [← IridiumSbd.bitsOf_u16Be, u16Be_ofU16Be (length_window (by omega)), ← Crc.bitsOf_append, hend,
      hfront, List.take_append_drop]
  rw [hbits, Crc.run_append, Crc.run_bits_eq_zero_iff hpoly, ← hcrc, UInt16.toBitVec_inj, Sealed]

theorem sealed_of_parse {m : InmarsatCMessage} (h : parse libs data = .ok m) :
    16 ≤ data.length ∧ Sealed libs data := by
  obtain ⟨bs, hlen, -, rfl, -⟩ := parse_eq_ok_iff.mp h
  have hdata := length_checked libs bs
  have hcut : (checked libs bs).length - 2 = bs.length := by omega
  have hbody : window bs 0 bs.length = bs := List.take_length
  refine ⟨by omega, ?_⟩
  rw [Sealed, hcut, window_checked_front libs (Nat.le_refl _), hbody, window_checked_end, ofU16Be_u16Be]

/-- A burst breaks the seal. -/
theorem not_sealed_of_burst (hcrc : Ibm3740 libs.checksum) {e : Bytes} (h : 2 ≤ data.length)
    (hsealed : Sealed libs data) (hlen : e.length = data.length)
    (hburst : Crc.Burst 16 (Crc.bitsOf e)) : ¬ Sealed libs (List.zipWith (· ^^^ ·) data e) := by
  have hcorrupt : 2 ≤ (List.zipWith (· ^^^ ·) data e).length := by
    rw [List.length_zipWith, hlen, Nat.min_self]
    exact h
  rw [sealed_iff_run hcrc h] at hsealed
  rw [sealed_iff_run hcrc hcorrupt, Crc.bitsOf_zipWith_xor hlen.symm]
  refine Crc.burst_detected (by decide) ?_ hsealed hburst
  rw [Crc.length_bitsOf, Crc.length_bitsOf, hlen]

/-- A long enough frame that is not sealed is refused, and the error says for what. -/
theorem parse_of_not_sealed (h : 16 ≤ data.length) (hbroken : ¬ Sealed libs data) :
    parse libs data =
      .err (if ofU32Be (window data 0 4) ≠ magicNumber then
        .invalidMagicNumber (ofU32Be (window data 0 4)) magicNumber
      else .checksumMismatch (libs.checksum (window data 0 (data.length - 2)))
        (ofU16Be (window data (data.length - 2) 2))) := by
  rw [parse_outcome libs h]
  by_cases hmagic : ofU32Be (window data 0 4) ≠ magicNumber
  · rw [if_pos hmagic, if_pos hmagic]
  · rw [if_neg hmagic, if_neg hmagic]
    exact if_pos hbroken

end InmarsatC

namespace Translator

open InmarsatC

/-- **Corrupt frames are refused.**  Of a frame that is accepted, let a burst of at most sixteen bits
    corrupt anything.  `parse` refuses what is left, for its magic number or for its checksum, and no
    message that carries it is translated. -/
theorem burst_refused {libs : Libs} (hcrc : Ibm3740 libs.checksum) {data e : Bytes}
    {m : InmarsatCMessage} (hparse : parse libs.toLibs data = .ok m) (hlen : e.length = data.length)
    (hburst : Crc.Burst 16 (Crc.bitsOf e)) :
    let corrupt := List.zipWith (· ^^^ ·) data e
    parse libs.toLibs corrupt = .err (
      if ofU32Be (window corrupt 0 4) ≠ magicNumber then
        .invalidMagicNumber (ofU32Be (window corrupt 0 4)) magicNumber
      else .checksumMismatch (libs.checksum (window corrupt 0 (data.length - 2)))
        (ofU16Be (window corrupt (data.length - 2) 2))) ∧
    ∀ now message, message.protocol = .inmarsatC → message.data = corrupt →
      translateSync libs now message = .err .invalidProtocol := by
  intro corrupt
  obtain ⟨hlong, hsealed⟩ := sealed_of_parse hparse
  have hsize : corrupt.length = data.length := by
    rw [List.length_zipWith, hlen, Nat.min_self]
  have hbroken : ¬ Sealed libs.toLibs corrupt := not_sealed_of_burst hcrc (by omega) hsealed hlen hburst
  have hrefused := parse_of_not_sealed (by omega) hbroken
  refine ⟨hsize ▸ hrefused, fun now message hprotocol hdata => ?_⟩
  rw [translateSync, hprotocol, hdata, translateData, decodeInmarsatC, hrefused]
  rfl

/-- The libraries of a frame, with the checksum of the loop in `iridium_sbd.rs`. -/
def loopLibs : Libs := { frameLibs with checksum := IridiumSbd.crc16Ccitt }

/-- The body of a frame with a payload of two bytes. -/
def shortBody : Bytes := body 1 [0x0A, 0x1B, 0x2C, 0x3D] [0xFF, 0xFF, 0xFF, 0xFF] [1, 2]

/-- Wrong bits at both ends of sixteen, across the source. -/
def sourceBurst : Bytes := List.replicate 11 0 ++ [0xF8, 0x07] ++ List.replicate 5 0

theorem burst_refused_short :
    ∃ expected found, parse loopLibs.toLibs
      (List.zipWith (· ^^^ ·) (checked loopLibs.toLibs shortBody) sourceBurst) =
        .err (.checksumMismatch expected found) := by
  have hparse : parse loopLibs.toLibs (checked loopLibs.toLibs shortBody) =
      .ok ⟨1, hexText [0x0A, 0x1B, 0x2C, 0x3D], hexText [0xFF, 0xFF, 0xFF, 0xFF], [1, 2]⟩ :=
    (parse_eq_ok_iff_body hexInverts_readHex).mpr ⟨_, _, rfl, rfl, rfl, rfl, rfl⟩
  have hburst : Crc.Burst 16 (Crc.bitsOf sourceBurst) := ⟨by decide, 88, by decide +kernel⟩
  have hmagic : ¬ ofU32Be (window (List.zipWith (· ^^^ ·) (checked loopLibs.toLibs shortBody)
      sourceBurst) 0 4) ≠ magicNumber := by decide +kernel
  have hlen : sourceBurst.length = (checked loopLibs.toLibs shortBody).length := by
    rw [length_checked]
    rfl
  have hrefused := (burst_refused ibm3740_crc16Ccitt hparse hlen hburst).1
  rw [if_neg hmagic] at hrefused
  exact ⟨_, _, hrefused⟩

end Translator

end FloatProtocols
