/-
  The checksum of `iridium_sbd.rs`: what it would catch, and who looks at it.

  1. **The loop is the register** — `crc16_ccitt_continue` xors a byte to the top and shifts eight
     times; that is `Crc.run` over the bits of the byte string (`toBitVec_crc16CcittContinue`), with a
     polynomial that has a constant term.  A frame carries its checksum exactly when the register is
     empty behind it (`carriesCrc_iff_run`).

  2. **Bursts** — so no burst of sixteen bits turns a valid frame into a valid one.

  3. **Nobody looks** — `parse` reads the checksum and does not compare it, against its comment; the
     decoder and the translation do not even read it.  `validate_checksum` has no caller.
-/
import FloatProtocols.Lib.Crc
import FloatProtocols.Codec.IridiumAsts

namespace FloatProtocols

open Wire

namespace IridiumSbd

/-- `CRC16_CCITT_POLY`. -/
def crc16CcittPoly : UInt16 := 0x1021

/-- `CRC16_CCITT_INIT`. -/
def crc16CcittInit : UInt16 := 0xFFFF

/-- One round of the inner loop. -/
def crcRound (crc : UInt16) : UInt16 :=
  if crc &&& 0x8000 ≠ 0 then (crc <<< 1) ^^^ crc16CcittPoly else crc <<< 1

/-- `crc16_ccitt_continue`. -/
def crc16CcittContinue (crc : UInt16) (data : Bytes) : UInt16 :=
  data.foldl (fun crc byte => crcRound^[8] (crc ^^^ (byte.toUInt16 <<< (8 : UInt16)))) crc

/-- `crc16_ccitt`. -/
def crc16Ccitt (data : Bytes) : UInt16 := crc16CcittContinue crc16CcittInit data

/-- `compute_crc`: the header, then the payload from where the header left off. -/
def IridiumSBDMessage.computeCrc {ε : Type} (m : IridiumSBDMessage) : Exec ε UInt16 := do
  let headerData := [m.header.protocol, (m.header.length >>> 8).toUInt8, (m.header.length &&& 0xFF).toUInt8]
  let crc := crc16Ccitt headerData
  let payload ← Exec.slice m.payload.val 0 m.payloadLen.toNat
  .ok (crc16CcittContinue crc payload)

/-- `validate_checksum`. -/
def IridiumSBDMessage.validateChecksum {ε : Type} (m : IridiumSBDMessage) : Exec ε Bool := do
  let crc ← m.computeCrc
  .ok (crc == m.checksum)

theorem crc16Ccitt_append (a b : Bytes) : crc16Ccitt (a ++ b) = crc16CcittContinue (crc16Ccitt a) b :=
  List.foldl_append

/-! ## The loop is the register -/

theorem top_bit_iff (crc : UInt16) : crc &&& 0x8000 ≠ 0 ↔ crc.toBitVec.msb = true := by
  have hand : (crc &&& 0x8000).toBitVec =
      if crc.toBitVec.getLsbD 15 then BitVec.twoPow 16 15 else 0#16 := by
    rw [UInt16.toBitVec_and]
    exact BitVec.and_twoPow crc.toBitVec 15
  rw [BitVec.msb_eq_getLsbD_last, ne_eq, ← UInt16.toBitVec_inj, hand]
  cases crc.toBitVec.getLsbD 15 <;> decide

theorem toBitVec_crcRound (crc : UInt16) :
    (crcRound crc).toBitVec = Crc.shift crc16CcittPoly.toBitVec crc.toBitVec := by
  rw [crcRound, Crc.shift]
  by_cases h : crc &&& 0x8000 ≠ 0
  · rw [if_pos h, if_pos ((top_bit_iff crc).mp h)]
    rfl
  · rw [if_neg h, if_neg (fun hm => h ((top_bit_iff crc).mpr hm))]
    rfl

/-- **The byte loop feeds the register bit by bit.** -/
theorem toBitVec_crc16CcittContinue (data : Bytes) : ∀ crc : UInt16,
    (crc16CcittContinue crc data).toBitVec =
      Crc.run crc16CcittPoly.toBitVec crc.toBitVec (Crc.bitsOf data) := by
  induction data with
  | nil => exact fun _ => rfl
  | cons byte data ih =>
    intro crc
    have hrounds : ∀ x : UInt16, (crcRound^[8] x).toBitVec =
        (Crc.shift crc16CcittPoly.toBitVec)^[8] x.toBitVec :=
      Function.Semiconj.iterate_right (f := UInt16.toBitVec) toBitVec_crcRound 8
    have hbyte : Crc.Holds (byte.toUInt16 <<< (8 : UInt16)).toBitVec (Crc.bits byte.toBitVec) :=
      Crc.holds_bits (w := 16) byte.toBitVec (by decide)
    have hstep := Crc.run_eq_iterate crc16CcittPoly.toBitVec crc.toBitVec hbyte
    rw [Crc.length_bits] at hstep
    show (crc16CcittContinue (crcRound^[8] (crc ^^^ (byte.toUInt16 <<< (8 : UInt16)))) data).toBitVec = _
    rw [ih, hrounds, UInt16.toBitVec_xor, ← hstep, ← Crc.run_append]
    rfl

/-- The two bytes of a word, as `compute_crc` and as `to_be_bytes` write them. -/
theorem u16Be_eq_shifts (x : UInt16) : u16Be x = [(x >>> 8).toUInt8, (x &&& 0xFF).toUInt8] := by
  have hhigh : UInt8.ofNat (x.toNat / 256) = (x >>> 8).toUInt8 := by
    apply UInt8.toNat_inj.mp
    rw [UInt8.toNat_ofNat', UInt16.toNat_toUInt8, UInt16.toNat_shiftRight, Nat.shiftRight_eq_div_pow]
    rfl
  have hlow : UInt8.ofNat x.toNat = (x &&& 0xFF).toUInt8 := by
    have hmask : x.toNat &&& 255 = x.toNat % 256 := Nat.and_two_pow_sub_one_eq_mod x.toNat 8
    apply UInt8.toNat_inj.mp
    rw [UInt8.toNat_ofNat', UInt16.toNat_toUInt8, UInt16.toNat_and]
    show x.toNat % 256 = (x.toNat &&& 255) % 256
    rw [hmask, Nat.mod_mod]
  rw [← hhigh, ← hlow]
  rfl

theorem bitsOf_u16Be (x : UInt16) : Crc.bitsOf (u16Be x) = Crc.bits x.toBitVec := by
  have hx := x.toNat_lt
  have hword : (UInt8.ofNat (x.toNat / 256)).toBitVec ++ (UInt8.ofNat x.toNat).toBitVec = x.toBitVec := by
    have hlow : x.toNat % 256 < 2 ^ 8 := by omega
    apply BitVec.eq_of_toNat_eq
    rw [BitVec.toNat_append]
    show (x.toNat / 256 % 256) <<< 8 ||| x.toNat % 256 = x.toNat
    rw [← Nat.shiftLeft_add_eq_or_of_lt hlow, Nat.shiftLeft_eq]
    omega
  rw [← hword, Crc.bits_append]
  show Crc.bits _ ++ (Crc.bits _ ++ []) = _
  rw [List.append_nil]

/-! ## Whole frames -/

/-- What `parse` accepts. -/
def Accepts (data : Bytes) : Prop :=
  3 ≤ data.length ∧ 3 + (lengthOf data).toNat ≤ data.length ∧ (lengthOf data).toNat ≤ 340

instance (data : Bytes) : Decidable (Accepts data) := inferInstanceAs (Decidable (_ ∧ _))

/-- The two bytes behind the payload are there, and are the CRC of header and payload. -/
def CarriesCrc (data : Bytes) : Prop :=
  3 + (lengthOf data).toNat + 2 ≤ data.length ∧
    window data (3 + (lengthOf data).toNat) 2 = u16Be (crc16Ccitt (data.take (3 + (lengthOf data).toNat)))

instance (data : Bytes) : Decidable (CarriesCrc data) := inferInstanceAs (Decidable (_ ∧ _))

theorem parse_eq_some_iff {ε : Type} {data : Bytes} {m : IridiumSBDMessage} :
    (parse data : Exec ε _) = .ok (some m) ↔ Accepts data ∧ m = frameOf data := by
  rw [parse_outcome]
  constructor
  · intro h
    split at h
    · exact ⟨‹_›, (Option.some.inj (Exec.ok.inj h)).symm⟩
    · cases h
  · rintro ⟨hin, rfl⟩
    exact if_pos hin

theorem exists_parse_iff {ε : Type} {data : Bytes} :
    (∃ m, (parse data : Exec ε _) = .ok (some m)) ↔ Accepts data := by
  constructor
  · rintro ⟨m, hm⟩
    exact (parse_eq_some_iff.mp hm).1
  · intro hin
    exact ⟨_, parse_eq_some_iff.mpr ⟨hin, rfl⟩⟩

theorem computeCrc_frameOf {ε : Type} {data : Bytes} (h : Accepts data) :
    ((frameOf data).computeCrc : Exec ε UInt16) =
      .ok (crc16Ccitt (data.take (3 + (lengthOf data).toNat))) := by
  obtain ⟨h3, hlen, hmax⟩ := h
  have hslice : (Exec.slice (frameOf data).payload.val 0 (lengthOf data).toNat : Exec ε Bytes) =
      .ok (window data 3 (lengthOf data).toNat) := payloadSlice_frameOf hlen hmax
  have hwindow : window data 1 2 = u16Be (lengthOf data) := (u16Be_ofU16Be (length_window h3)).symm
  have hhead : data.take 3 = data.headD 0 :: window data 1 2 := by
    cases data with
    | nil => cases h3
    | cons b data => rfl
  show (Exec.slice (frameOf data).payload.val 0 (lengthOf data).toNat >>= fun payload => _) = _
  rw [hslice, Exec.ok_bind, List.take_add, hhead, hwindow, u16Be_eq_shifts, crc16Ccitt_append]
  rfl

/-- `validate_checksum` on a whole frame. -/
theorem validateChecksum_frameOf {ε : Type} {data : Bytes} (h : Accepts data)
    (hwhole : 3 + (lengthOf data).toNat + 2 ≤ data.length) :
    ((frameOf data).validateChecksum : Exec ε Bool) = .ok (decide (CarriesCrc data)) := by
  have hchecksum : (frameOf data).checksum = ofU16Be (window data (3 + (lengthOf data).toNat) 2) :=
    if_pos hwhole
  have hwindow := u16Be_ofU16Be (length_window hwhole)
  rw [IridiumSBDMessage.validateChecksum, computeCrc_frameOf h, Exec.ok_bind, hchecksum, Bool.beq_eq_decide_eq]
  refine congrArg Exec.ok (decide_eq_decide.mpr ⟨?_, ?_⟩)
  · intro hcrc
    refine ⟨hwhole, ?_⟩
    rw [hcrc, hwindow]
  · rintro ⟨-, hcrc⟩
    rw [hcrc, ofU16Be_u16Be]

/-- The register is empty behind a frame that carries its CRC, and behind no other. -/
theorem carriesCrc_iff_run {data : Bytes} (hend : data.length = 3 + (lengthOf data).toNat + 2) :
    CarriesCrc data ↔
      Crc.run crc16CcittPoly.toBitVec crc16CcittInit.toBitVec (Crc.bitsOf data) = 0#16 := by
  have hpoly : crc16CcittPoly.toBitVec.getLsbD 0 = true := by decide
  have hwindow := u16Be_ofU16Be (length_window (Nat.le_of_eq hend.symm))
  have hdrop : data.drop (3 + (lengthOf data).toNat) = window data (3 + (lengthOf data).toNat) 2 := by
    rw [window, List.take_of_length_le]
    rw [List.length_drop]
    omega
  have hbits : Crc.bitsOf data = Crc.bitsOf (data.take (3 + (lengthOf data).toNat)) ++
      Crc.bits (ofU16Be (window data (3 + (lengthOf data).toNat) 2)).toBitVec := by
    rw [← bitsOf_u16Be, hwindow, ← hdrop, ← Crc.bitsOf_append, List.take_append_drop]
  rw [hbits, Crc.run_append, Crc.run_bits_eq_zero_iff hpoly, ← toBitVec_crc16CcittContinue,
    UInt16.toBitVec_inj]
  constructor
  · rintro ⟨-, hcrc⟩
    rw [hcrc, ofU16Be_u16Be]
    rfl
  · intro hcrc
    refine ⟨Nat.le_of_eq hend.symm, ?_⟩
    rw [crc16Ccitt, hcrc, hwindow]

/-! ## Bursts -/

/-- The length bytes are as they were, so the frame ends where it did. -/
theorem lengthOf_zipWith_xor {data e : Bytes} (h3 : 3 ≤ data.length) (hkept : window e 1 2 = [0, 0]) :
    lengthOf (List.zipWith (· ^^^ ·) data e) = lengthOf data := by
  have hwindow : window (List.zipWith (· ^^^ ·) data e) 1 2 =
      List.zipWith (· ^^^ ·) (window data 1 2) (window e 1 2) := by
    rw [window, List.drop_zipWith, List.take_zipWith]
    rfl
  have hlen : (window data 1 2).length = 2 := length_window h3
  obtain ⟨a, b, hab⟩ := List.length_eq_two.mp hlen
  rw [lengthOf, lengthOf, hwindow, hkept, hab]
  show ofU16Be [a ^^^ 0, b ^^^ 0] = ofU16Be [a, b]
  rw [UInt8.xor_zero, UInt8.xor_zero]

/-- **Bursts are caught.**  A frame that validates, and of which a burst of at most sixteen bits has
    corrupted anything but the length, is parsed and does not validate. -/
theorem validateChecksum_of_burst {ε : Type} {data e : Bytes} {m : IridiumSBDMessage}
    (hparse : (parse data : Exec ε _) = .ok (some m)) (hend : data.length = m.totalSize)
    (hvalid : (m.validateChecksum : Exec ε Bool) = .ok true) (hlen : e.length = data.length)
    (hburst : Crc.Burst 16 (Crc.bitsOf e)) (hkept : window e 1 2 = [0, 0]) :
    ∃ m', (parse (List.zipWith (· ^^^ ·) data e) : Exec ε _) = .ok (some m') ∧
      (m'.validateChecksum : Exec ε Bool) = .ok false := by
  obtain ⟨hin, rfl⟩ := parse_eq_some_iff.mp hparse
  have hend : data.length = 3 + (lengthOf data).toNat + 2 := hend
  have hsame := lengthOf_zipWith_xor hin.1 hkept
  have hcorrupt : (List.zipWith (· ^^^ ·) data e).length = data.length := by
    rw [List.length_zipWith, hlen, Nat.min_self]
  have hin' : Accepts (List.zipWith (· ^^^ ·) data e) := by
    rw [Accepts, hsame, hcorrupt]
    exact hin
  refine ⟨_, parse_eq_some_iff.mpr ⟨hin', rfl⟩, ?_⟩
  rw [validateChecksum_frameOf hin (Nat.le_of_eq hend.symm), Exec.ok.injEq, decide_eq_true_iff,
    carriesCrc_iff_run hend] at hvalid
  rw [validateChecksum_frameOf hin' (by rw [hsame, hcorrupt]; omega), Exec.ok.injEq,
    decide_eq_false_iff_not, carriesCrc_iff_run (by rw [hsame, hcorrupt]; exact hend),
    Crc.bitsOf_zipWith_xor hlen.symm]
  refine Crc.burst_detected (by decide) ?_ hvalid hburst
  rw [Crc.length_bitsOf, Crc.length_bitsOf, hlen]

/-- The frame of the payload `Hello`, with the checksum that is put behind it. -/
def helloFrame (checksum : UInt16) : Bytes :=
  [0x01, 0x00, 0x05, 0x48, 0x65, 0x6C, 0x6C, 0x6F] ++ u16Be checksum

/-- Eleven wrong bits across the first two letters. -/
theorem validateChecksum_of_burst_hello :
    ((frameOf (helloFrame 0xFE3A)).validateChecksum : Exec Empty Bool) = .ok true ∧
    ∃ m', (parse [0x01, 0x00, 0x05, 0x47, 0x9B, 0x6C, 0x6C, 0x6F, 0xFE, 0x3A] : Exec Empty _) =
        .ok (some m') ∧ (m'.validateChecksum : Exec Empty Bool) = .ok false := by
  have hin : Accepts (helloFrame 0xFE3A) := by decide
  have hcrc : CarriesCrc (helloFrame 0xFE3A) := by decide +kernel
  have hvalid : ((frameOf (helloFrame 0xFE3A)).validateChecksum : Exec Empty Bool) = .ok true := by
    rw [validateChecksum_frameOf hin (by decide), decide_eq_true hcrc]
  have hburst : Crc.Burst 16 (Crc.bitsOf [0, 0, 0, 0x0F, 0xFE, 0, 0, 0, 0, 0]) :=
    ⟨by decide, 28, by decide⟩
  exact ⟨hvalid, @validateChecksum_of_burst Empty (helloFrame 0xFE3A) [0, 0, 0, 0x0F, 0xFE, 0, 0, 0, 0, 0]
    _ (parse_eq_some_iff.mpr ⟨hin, rfl⟩) rfl hvalid rfl hburst rfl⟩

/-! ## Nobody looks -/

/-- A payload that is there in full, and behind it less than a checksum, or a wrong one. -/
def Unsealed (data : Bytes) : Prop :=
  Accepts data ∧
    (data.length < 3 + (lengthOf data).toNat + 2 ∨
      ofU16Be (window data (3 + (lengthOf data).toNat) 2) ≠
        crc16Ccitt (data.take (3 + (lengthOf data).toNat)))

theorem not_unsealed_iff (data : Bytes) : ¬ Unsealed data ↔ (Accepts data → CarriesCrc data) := by
  have hseal : CarriesCrc data ↔ ¬ (data.length < 3 + (lengthOf data).toNat + 2 ∨
      ofU16Be (window data (3 + (lengthOf data).toNat) 2) ≠
        crc16Ccitt (data.take (3 + (lengthOf data).toNat))) := by
    rw [not_or, Nat.not_lt, not_ne_iff]
    refine and_congr_right fun hwhole => ?_
    have hwindow := u16Be_ofU16Be (length_window hwhole)
    constructor
    · intro hcrc
      rw [hcrc, ofU16Be_u16Be]
    · intro hcrc
      rw [← hcrc, hwindow]
  rw [Unsealed, hseal, not_and]

end IridiumSbd

namespace Translator

open IridiumSbd

theorem exists_decodeIridiumSbd_iff {data : Bytes} :
    (∃ out, decodeIridiumSbd data = .ok out) ↔ Accepts data := by
  by_cases hin : Accepts data
  · exact iff_of_true ⟨_, (decodeIridiumSbd_outcome data).trans (if_pos hin)⟩ hin
  · refine iff_of_false ?_ hin
    rintro ⟨out, hout⟩
    cases ((decodeIridiumSbd_outcome data).trans (if_neg hin)).symm.trans hout

theorem exists_translateIridiumToAstsSync_iff {sequence : UInt32} {data buffer : Bytes} :
    (∃ out n, translateIridiumToAstsSync sequence data buffer = .ok out ∧ out.result = .ok n) ↔
      Accepts data ∧ 7 + (lengthOf data).toNat ≤ buffer.length := by
  constructor
  · rintro ⟨out, n, hout, hn⟩
    rcases parse_cases (ε := Empty) data with hnone | ⟨m, hsome⟩
    · rw [translateIridiumToAstsSync_of_none hnone] at hout
      cases hout
      cases hn
    · obtain ⟨hin, rfl⟩ := parse_eq_some_iff.mp hsome
      rw [translateIridiumToAstsSync_of_some hsome] at hout
      split at hout
      · exact ⟨hin, ‹_›⟩
      · cases hout
        cases hn
  · rintro ⟨hin, hfits⟩
    have hsome : (parse data : Exec Empty _) = .ok (some (frameOf data)) :=
      parse_eq_some_iff.mpr ⟨hin, rfl⟩
    exact ⟨_, _, (translateIridiumToAstsSync_of_some hsome).trans (if_pos hfits), rfl⟩

/-- **When an accepted frame carries its checksum.**  `parse`, `decode_iridium_sbd` and
    `translate_iridium_to_asts_sync` accept a frame whatever its checksum: what they accept carries the
    right one exactly when the input is not one of the kind that has none or a wrong one. -/
theorem accepted_carriesCrc_iff (data : Bytes) :
    (((∃ m, (parse data : Exec Empty _) = .ok (some m)) → CarriesCrc data) ↔ ¬ Unsealed data) ∧
    (((∃ out, decodeIridiumSbd data = .ok out) → CarriesCrc data) ↔ ¬ Unsealed data) ∧
    ∀ sequence buffer,
      ((∃ out n, translateIridiumToAstsSync sequence data buffer = .ok out ∧ out.result = .ok n) →
        CarriesCrc data) ↔ (7 + (lengthOf data).toNat ≤ buffer.length → ¬ Unsealed data) := by
  refine ⟨?_, ?_, ?_⟩
  · rw [exists_parse_iff, not_unsealed_iff]
  · rw [exists_decodeIridiumSbd_iff, not_unsealed_iff]
  · intro sequence buffer
    rw [exists_translateIridiumToAstsSync_iff, not_unsealed_iff]
    constructor
    · intro h hfits hin
      exact h ⟨hin, hfits⟩
    · rintro h ⟨hin, hfits⟩
      exact h hfits hin

/-- The frame of the parser's own test: its checksum is zero, its CRC is not. -/
theorem unsealed_hello :
    (∃ m, (parse (helloFrame 0) : Exec Empty _) = .ok (some m)) ∧
    decodeIridiumSbd (helloFrame 0) = .ok [0x01, 0x48, 0x65, 0x6C, 0x6C, 0x6F] ∧
    (∃ out, translateIridiumToAstsSync 0 (helloFrame 0) (List.replicate 12 0) = .ok out ∧
      out.result = .ok 12) ∧
    ¬ CarriesCrc (helloFrame 0) := by
  have hin : Accepts (helloFrame 0) := by decide
  have hsome : (parse (helloFrame 0) : Exec Empty _) = .ok (some (frameOf (helloFrame 0))) :=
    parse_eq_some_iff.mpr ⟨hin, rfl⟩
  refine ⟨⟨_, hsome⟩, ?_, ⟨_, (translateIridiumToAstsSync_of_some hsome).trans (if_pos (by decide)), rfl⟩, ?_⟩
  · exact (decodeIridiumSbd_outcome _).trans (if_pos hin)
  · decide +kernel

end Translator

end FloatProtocols
