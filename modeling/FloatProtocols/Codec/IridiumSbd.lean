/-
  `iridium_sbd.rs`: the Iridium short-burst frame, parsed into a fixed array.

  Protocol byte, big-endian length, payload, checksum.  The length must be there in full and fit the
  340-byte array; the checksum need NOT be there, and reads as zero then.  `parse_outcome` is the
  parser in one line: which inputs it takes, and the frame it makes of them (`frameOf`).
-/
import FloatProtocols.Lib.Exec

namespace FloatProtocols

open Wire

namespace IridiumSbd

/-- `IridiumSBDHeader`. -/
structure IridiumSBDHeader where
  protocol : UInt8
  length : UInt16
  deriving DecidableEq

/-- `IridiumSBDMessage`. -/
structure IridiumSBDMessage where
  header : IridiumSBDHeader
  payload : Arr 340
  payloadLen : UInt16
  checksum : UInt16
  deriving DecidableEq

/-- `total_size`. -/
def IridiumSBDMessage.totalSize (m : IridiumSBDMessage) : Nat := 3 + m.payloadLen.toNat + 2

/-- The two bytes at `place`, if they are there. -/
def storedChecksum {ε : Type} (data : Bytes) (place : Nat) : Exec ε UInt16 :=
  if data.length ≥ place + 2 then do
    let bs ← Exec.indices data [place, place + 1]
    .ok (ofU16Be bs)
  else .ok 0

/-- `parse`. -/
def parse {ε : Type} (data : Bytes) : Exec ε (Option IridiumSBDMessage) :=
  if data.length < 3 then .ok none
  else do
    let protocol ← Exec.index data 0
    let lengthBytes ← Exec.indices data [1, 2]
    if data.length < 3 + (ofU16Be lengthBytes).toNat then .ok none
    else if ofU16Be lengthBytes > 340 then .ok none
    else do
      let src ← Exec.slice data 3 (3 + (ofU16Be lengthBytes).toNat)
      let payload ← Exec.fill 340 (ofU16Be lengthBytes).toNat src
      let checksum ← storedChecksum data (3 + (ofU16Be lengthBytes).toNat)
      .ok (some { header := ⟨protocol, ofU16Be lengthBytes⟩, payload,
                  payloadLen := ofU16Be lengthBytes, checksum })

/-! ## The parser in one line -/

/-- The length field. -/
def lengthOf (data : Bytes) : UInt16 := ofU16Be (window data 1 2)

/-- The checksum behind the payload, zero where it is cut off. -/
def checksumOf (data : Bytes) : UInt16 :=
  if 3 + (lengthOf data).toNat + 2 ≤ data.length then
    ofU16Be (window data (3 + (lengthOf data).toNat) 2)
  else 0

/-- The frame in a byte string that holds one. -/
def frameOf (data : Bytes) : IridiumSBDMessage where
  header := ⟨data.headD 0, lengthOf data⟩
  payload := Exec.pad 340 (window data 3 (lengthOf data).toNat)
  payloadLen := lengthOf data
  checksum := checksumOf data

theorem storedChecksum_eq_ok {ε : Type} (data : Bytes) (place : Nat) :
    (storedChecksum data place : Exec ε UInt16) =
      .ok (if place + 2 ≤ data.length then ofU16Be (window data place 2) else 0) := by
  rw [storedChecksum]
  by_cases h : place + 2 ≤ data.length
  · have hbytes : (Exec.indices data [place, place + 1] : Exec ε Bytes) = .ok (window data place 2) :=
      Exec.indices_range' (k := 2) h
    rw [if_pos h, if_pos h, hbytes, Exec.ok_bind]
  · rw [if_neg h, if_neg h]

/-- **What `parse` accepts, and what it makes of it.** -/
theorem parse_outcome {ε : Type} (data : Bytes) :
    (parse data : Exec ε (Option IridiumSBDMessage)) =
      if 3 ≤ data.length ∧ 3 + (lengthOf data).toNat ≤ data.length ∧ (lengthOf data).toNat ≤ 340 then
        .ok (some (frameOf data))
      else .ok none := by
  rw [parse]
  by_cases h3 : data.length < 3
  · rw [if_pos h3, if_neg (by omega)]
  have hlength : (Exec.indices data [1, 2] : Exec ε Bytes) = .ok (window data 1 2) :=
    Exec.indices_range' (k := 2) (by omega)
  rw [if_neg h3, Exec.index_zero (by omega), Exec.ok_bind, hlength, Exec.ok_bind]
  show (if data.length < 3 + (lengthOf data).toNat then _ else _) = _
  by_cases hlen : data.length < 3 + (lengthOf data).toNat
  · rw [if_pos hlen, if_neg (by omega)]
  rw [if_neg hlen]
  by_cases hmax : (lengthOf data).toNat ≤ 340
  · have hfill : (Exec.fill 340 (lengthOf data).toNat (window data 3 (lengthOf data).toNat) :
        Exec ε (Arr 340)) = .ok (Exec.pad 340 (window data 3 (lengthOf data).toNat)) :=
      if_pos ⟨hmax, length_window (by omega)⟩
    have hnot : ¬ ofU16Be (window data 1 2) > 340 := by
      show ¬ (340 : UInt16) < lengthOf data
      rw [UInt16.lt_iff_toNat_lt]
      exact Nat.not_lt.mpr hmax
    rw [if_neg hnot, if_pos ⟨by omega, by omega, hmax⟩]
    show (Exec.slice data 3 (3 + (lengthOf data).toNat) >>= fun src => _) = _
    rw [Exec.slice_window (by omega), Exec.ok_bind]
    show (Exec.fill 340 (lengthOf data).toNat _ >>= fun payload => _) = _
    rw [hfill, Exec.ok_bind]
    show (storedChecksum data (3 + (lengthOf data).toNat) >>= fun checksum => _) = _
    rw [storedChecksum_eq_ok, Exec.ok_bind]
    rfl
  · have hgt : ofU16Be (window data 1 2) > 340 := by
      show (340 : UInt16) < lengthOf data
      rw [UInt16.lt_iff_toNat_lt]
      exact Nat.not_le.mp hmax
    rw [if_pos hgt, if_neg (by omega)]

/-! ## A frame cut at 340 bytes -/

theorem lengthOf_take {data : Bytes} : lengthOf (data.take 340) = lengthOf data := by
  rw [lengthOf, lengthOf, window_take (by omega)]

/-- The payload survives, the checksum does not: its second byte at least is gone. -/
theorem frameOf_take {data : Bytes} (hlen : (lengthOf data).toNat ≤ 337)
    (hcut : 340 < 3 + (lengthOf data).toNat + 2) :
    frameOf (data.take 340) = { frameOf data with checksum := 0 } := by
  have hhead : (data.take 340).headD 0 = data.headD 0 := by
    cases data <;> rfl
  have hchecksum : checksumOf (data.take 340) = 0 := by
    rw [checksumOf, lengthOf_take, List.length_take, if_neg (by omega)]
  rw [frameOf, frameOf, hhead, hchecksum, lengthOf_take, window_take (by omega)]

/-- A frame of more than 340 bytes is parsed as before only if no payload byte is cut and the
    checksum was zero anyway. -/
theorem parse_take_eq_iff {ε : Type} {data : Bytes} {m : IridiumSBDMessage}
    (h : (parse data : Exec ε _) = .ok (some m)) (hend : data.length ≤ m.totalSize)
    (hcut : 340 < data.length) :
    (parse (data.take 340) : Exec ε _) = parse data ↔ m.payloadLen.toNat ≤ 337 ∧ m.checksum = 0 := by
  rw [h]
  rw [parse_outcome] at h
  split at h
  · rename_i hin
    obtain rfl := Option.some.inj (Exec.ok.inj h)
    have hend : data.length ≤ 3 + (lengthOf data).toNat + 2 := hend
    have hlen : (data.take 340).length = 340 := List.length_take_of_le (by omega)
    rw [parse_outcome, lengthOf_take, hlen]
    show _ ↔ (lengthOf data).toNat ≤ 337 ∧ (frameOf data).checksum = 0
    by_cases hfit : (lengthOf data).toNat ≤ 337
    · rw [if_pos ⟨by omega, by omega, by omega⟩, frameOf_take hfit (by omega), Exec.ok.injEq,
        Option.some.injEq]
      constructor
      · intro heq
        exact ⟨hfit, congrArg IridiumSBDMessage.checksum heq.symm⟩
      · rintro ⟨-, hzero⟩
        rw [← hzero]
    · rw [if_neg (by omega)]
      constructor
      · intro heq
        cases heq
      · intro hle
        exact absurd hle.1 hfit
  · cases h

end IridiumSbd

end FloatProtocols
