/-
  Modbus RTU on the serial line: what is sent is read, and what is corrupted is not.

  `send_modbus_request` closes its frame with the CRC of the bytes before it, low byte first, and both
  readers check it there.  The loop shifts down, so it is the register of `Lib.Crc` in the mirror, over
  the bits as the line sends them (`reverse_crc16`); low byte first is the order in which that register
  wants its own content.  So a frame is sealed exactly when the register is empty behind it
  (`sealed_iff_run`), and a burst of up to sixteen bits ON THE LINE never goes unnoticed.
-/
import FloatProtocols.Lib.Crc
import FloatProtocols.Sensor.Serial

namespace FloatProtocols

open Wire

namespace Serial

/-- `u16::to_le_bytes`. -/
def u16Le (x : UInt16) : Bytes := leBytes 2 x.toNat

theorem ofU16Le_u16Le (x : UInt16) : ofU16Le (u16Le x) = x := by
  have hx := x.toNat_lt
  rw [ofU16Le, u16Le, leNat_leBytes, Nat.mod_eq_of_lt (by omega)]
  exact UInt16.ofNat_toNat

theorem u16Le_ofU16Le (lo hi : UInt8) : u16Le (ofU16Le [lo, hi]) = [lo, hi] := by
  have hlt : leNat [lo, hi] < 2 ^ 16 := by
    have hlo := lo.toNat_lt
    have hhi := hi.toNat_lt
    simp only [leNat]
    omega
  have hword : (UInt16.ofNat (leNat [lo, hi])).toNat = leNat [lo, hi] := by
    rw [UInt16.toNat_ofNat', Nat.mod_eq_of_lt hlt]
  rw [u16Le, ofU16Le, hword]
  exact leBytes_leNat [lo, hi]

/-- The frame that `Rs485Reader::send_modbus_request` writes. -/
def modbusRequest (addr func : UInt8) (data : Bytes) : Bytes :=
  let frame := addr :: func :: data
  frame ++ u16Le (computeModbusCrc frame)

/-! ## The loop is the register -/

theorem low_bit_iff (crc : UInt16) : crc &&& 0x0001 ≠ 0 ↔ crc.toBitVec.getLsbD 0 = true := by
  have hand : (crc &&& 0x0001).toBitVec =
      if crc.toBitVec.getLsbD 0 then BitVec.twoPow 16 0 else 0#16 := by
    rw [UInt16.toBitVec_and]
    exact BitVec.and_twoPow crc.toBitVec 0
  rw [ne_eq, ← UInt16.toBitVec_inj, hand]
  cases crc.toBitVec.getLsbD 0 <;> decide

theorem toBitVec_crcBit (crc : UInt16) : (crcBit crc).toBitVec = Crc.shiftDown 0xA001#16 crc.toBitVec := by
  rw [crcBit, Crc.shiftDown]
  by_cases h : crc &&& 0x0001 ≠ 0
  · rw [if_pos h, if_pos ((low_bit_iff crc).mp h)]
    rfl
  · rw [if_neg h, if_neg (fun hm => h ((low_bit_iff crc).mpr hm))]
    rfl

theorem reverse_crcBit (crc : UInt16) :
    (crcBit crc).toBitVec.reverse = Crc.shift 0x8005#16 crc.toBitVec.reverse := by
  rw [toBitVec_crcBit, Crc.reverse_shiftDown]
  rfl

theorem reverse_crcByte (crc : UInt16) (byte : UInt8) :
    (crcByte crc byte).toBitVec.reverse =
      Crc.run 0x8005#16 crc.toBitVec.reverse (Crc.bits (Crc.mirror byte).toBitVec) := by
  have hrounds : ∀ x : UInt16, (Nat.repeat crcBit 8 x).toBitVec.reverse =
      (Crc.shift 0x8005#16)^[8] x.toBitVec.reverse := by
    intro x
    exact Function.Semiconj.iterate_right (f := fun x : UInt16 => x.toBitVec.reverse) reverse_crcBit 8 x
  have hbyte : Crc.Holds (byte.toBitVec.setWidth 16).reverse (Crc.bits (Crc.mirror byte).toBitVec) := by
    rw [Crc.reverse_setWidth byte.toBitVec (by decide)]
    exact Crc.holds_bits (w := 16) byte.toBitVec.reverse (by decide)
  have hstep := Crc.run_eq_iterate 0x8005#16 crc.toBitVec.reverse hbyte
  rw [Crc.length_bits] at hstep
  rw [hstep, crcByte, hrounds, UInt16.toBitVec_xor, Crc.reverse_xor]
  rfl

/-- **The byte loop feeds the register bit by bit**, in the order of the line. -/
theorem reverse_crc16 (data : Bytes) :
    (computeCrc16 data).toBitVec.reverse = Crc.run 0x8005#16 0xFFFF#16 (Crc.lineBits data) := by
  suffices hloop : ∀ (data : Bytes) (crc : UInt16), (data.foldl crcByte crc).toBitVec.reverse =
      Crc.run 0x8005#16 crc.toBitVec.reverse (Crc.lineBits data) by
    exact hloop data 0xFFFF
  intro data
  induction data with
  | nil => exact fun _ => rfl
  | cons byte data ih =>
    intro crc
    rw [List.foldl_cons, ih, reverse_crcByte, ← Crc.run_append]
    rfl

/-! ## Frames -/

/-- The two bytes of a checksum on the line are its bits, the lowest first. -/
theorem lineBits_crc (lo hi : UInt8) :
    Crc.lineBits [lo, hi] = Crc.bits (ofU16Le [lo, hi]).toBitVec.reverse := by
  have hword : (ofU16Le [lo, hi]).toBitVec = hi.toBitVec ++ lo.toBitVec := by
    have hlo := lo.toNat_lt
    have hhi := hi.toNat_lt
    apply BitVec.eq_of_toNat_eq
    rw [BitVec.toNat_append]
    show (lo.toNat + 256 * (hi.toNat + 256 * 0)) % 2 ^ 16 = hi.toNat <<< 8 ||| lo.toNat
    rw [← Nat.shiftLeft_add_eq_or_of_lt hlo, Nat.shiftLeft_eq]
    omega
  rw [hword, BitVec.reverse_append, BitVec.cast_eq, Crc.bits_append]
  rfl

/-- A frame is its bytes and two more. -/
theorem exists_frame {data : Bytes} (h : 4 ≤ data.length) :
    ∃ addr func payload lo hi, data = addr :: func :: payload ++ [lo, hi] := by
  rcases data with _ | ⟨addr, _ | ⟨func, rest⟩⟩
  · cases h
  · exact absurd h (by simp)
  · rw [List.length_cons, List.length_cons] at h
    have hend : (rest.drop (rest.length - 2)).length = 2 := by
      rw [List.length_drop]
      omega
    obtain ⟨lo, hi, hlast⟩ := List.length_eq_two.mp hend
    refine ⟨addr, func, rest.take (rest.length - 2), lo, hi, ?_⟩
    rw [List.cons_append, List.cons_append, ← hlast, List.take_append_drop]

theorem parseModbusRtu_frame (now : UInt64) (addr func lo hi : UInt8) (payload : Bytes) :
    Rs232.parseModbusRtu now (addr :: func :: payload ++ [lo, hi]) =
      if computeModbusCrc (addr :: func :: payload) = ofU16Le [lo, hi] then
        .ok (sensorMessage now (addr :: func :: payload))
      else .err .crcMismatch := by
  have hfront : (addr :: func :: payload).length = 2 + payload.length := by
    rw [List.length_cons, List.length_cons]
    omega
  have hlen : (addr :: func :: payload ++ [lo, hi]).length = 2 + payload.length + 2 := by
    rw [List.length_append, hfront]
    rfl
  have hpayload : Exec.slice (addr :: func :: payload ++ [lo, hi]) 2 (2 + payload.length) =
      (.ok payload : Exec SerialError Bytes) :=
    (Exec.slice_window (by omega)).trans (congrArg Exec.ok List.take_left)
  have hchecked : Exec.slice (addr :: func :: payload ++ [lo, hi]) 0 (2 + payload.length) =
      (.ok (addr :: func :: payload) : Exec SerialError Bytes) :=
    (Exec.slice_eq_ok (Nat.zero_le _) (by omega)).trans (congrArg Exec.ok (List.take_left' hfront))
  have hcrc : Exec.indices (addr :: func :: payload ++ [lo, hi])
      [2 + payload.length, 2 + payload.length + 1] = (.ok [lo, hi] : Exec SerialError Bytes) := by
    refine (Exec.indices_range' (k := 2) (by omega)).trans (congrArg Exec.ok ?_)
    rw [window, List.drop_left' hfront]
    rfl
  rw [Rs232.parseModbusRtu, hlen, if_neg (by omega), Nat.add_sub_cancel]
  show (Exec.slice (addr :: func :: payload ++ [lo, hi]) 2 (2 + payload.length) >>= fun _ => _) = _
  rw [hpayload, Exec.ok_bind]
  show (Exec.indices (addr :: func :: payload ++ [lo, hi])
    [2 + payload.length, 2 + payload.length + 1] >>= fun _ => _) = _
  rw [hcrc, Exec.ok_bind, hchecked, Exec.ok_bind, ite_not]

/-- The register is empty behind a sealed frame, and behind no other. -/
theorem sealed_iff_run (bytes : Bytes) (lo hi : UInt8) :
    computeModbusCrc bytes = ofU16Le [lo, hi] ↔
      Crc.run 0x8005#16 0xFFFF#16 (Crc.lineBits (bytes ++ [lo, hi])) = 0#16 := by
  have hpoly : (0x8005#16).getLsbD 0 = true := by decide
  rw [Crc.lineBits_append, lineBits_crc, Crc.run_append, Crc.run_bits_eq_zero_iff hpoly, ← reverse_crc16,
    computeModbusCrc, ← UInt16.toBitVec_inj]
  exact ⟨fun h => congrArg BitVec.reverse h, fun h => by
    rw [← BitVec.reverse_reverse_eq (x := (computeCrc16 bytes).toBitVec), h, BitVec.reverse_reverse_eq]⟩

/-- The message of a reader, spelled out: it is labelled Iridium SBD, so `Message::new` cuts it at 340
    bytes. -/
theorem sensorMessage_eq (now : UInt64) (bytes : Bytes) :
    sensorMessage now bytes = ⟨.iridiumSBD, bytes.take 340, .operational, now, now, now⟩ := by
  have hdata : (sensorMessage now bytes).data = bytes.take 340 :=
    Message.new_data .iridiumSBD bytes .operational now
  rw [← hdata]
  rfl

/-- **Modbus frames.**  The reader, one text for both ports, accepts exactly the frames that
    `send_modbus_request` writes, and takes out of them what was put in: address, function and data, as
    far as 340 bytes go.  Let a burst of at most sixteen bits on the line corrupt one, in its bytes, its
    checksum or both: it is refused for its checksum. -/
theorem modbus_frames (now : UInt64) :
    (∀ frame m, Rs485.parseModbusRtu now frame = .ok m ↔
      ∃ addr func data, frame = modbusRequest addr func data ∧
        m = ⟨.iridiumSBD, (addr :: func :: data).take 340, .operational, now, now, now⟩) ∧
    ∀ addr func data e, e.length = (modbusRequest addr func data).length →
      Crc.Burst 16 (Crc.lineBits e) →
      Rs485.parseModbusRtu now (List.zipWith (· ^^^ ·) (modbusRequest addr func data) e) =
        .err .crcMismatch := by
  have hrequest : ∀ addr func data, ∃ lo hi, modbusRequest addr func data = addr :: func :: data ++ [lo, hi] ∧
      computeModbusCrc (addr :: func :: data) = ofU16Le [lo, hi] := by
    intro addr func data
    exact ⟨_, _, rfl, (ofU16Le_u16Le _).symm⟩
  refine ⟨fun frame m => ⟨fun h => ?_, ?_⟩, fun addr func data e hlen hburst => ?_⟩
  · rcases Nat.lt_or_ge frame.length 4 with hshort | hlong
    · rw [Rs485.parseModbusRtu, Rs232.parseModbusRtu, if_pos hshort] at h
      cases h
    · obtain ⟨addr, func, payload, lo, hi, rfl⟩ := exists_frame hlong
      rw [Rs485.parseModbusRtu, parseModbusRtu_frame] at h
      split at h
      · rename_i hcrc
        cases h
        refine ⟨addr, func, payload, ?_, sensorMessage_eq now _⟩
        rw [modbusRequest, hcrc, u16Le_ofU16Le]
      · cases h
  · rintro ⟨addr, func, data, rfl, rfl⟩
    obtain ⟨lo, hi, hframe, hcrc⟩ := hrequest addr func data
    rw [Rs485.parseModbusRtu, hframe, parseModbusRtu_frame, if_pos hcrc, sensorMessage_eq]
  · obtain ⟨lo, hi, hframe, hcrc⟩ := hrequest addr func data
    have hempty := (sealed_iff_run (addr :: func :: data) lo hi).mp hcrc
    rw [← hframe] at hempty
    have hlong : 4 ≤ (List.zipWith (· ^^^ ·) (modbusRequest addr func data) e).length := by
      rw [List.length_zipWith, hlen, Nat.min_self, hframe]
      simp only [List.length_append, List.length_cons, List.length_nil]
      omega
    obtain ⟨addr', func', payload, lo', hi', hcorrupt⟩ := exists_frame hlong
    rw [Rs485.parseModbusRtu, hcorrupt, parseModbusRtu_frame]
    refine if_neg fun hsealed => ?_
    rw [sealed_iff_run, ← hcorrupt, Crc.lineBits_zipWith_xor hlen.symm] at hsealed
    refine Crc.burst_detected (by decide) ?_ hempty hburst hsealed
    rw [Crc.length_lineBits, Crc.length_lineBits, hlen]

/-- "Read register 1 of unit 1", with the two lowest bits of the checksum and the highest of the byte
    before it wrong: neighbours on the line. -/
theorem modbus_frames_request :
    Rs485.parseModbusRtu 0 (List.zipWith (· ^^^ ·) (modbusRequest 1 3 [0, 1, 0, 1])
      [0, 0, 0, 0, 0, 0x80, 0x03, 0]) = .err .crcMismatch :=
  (modbus_frames 0).2 1 3 [0, 1, 0, 1] [0, 0, 0, 0, 0, 0x80, 0x03, 0] (by decide +kernel)
    ⟨by decide +kernel, 47, by decide +kernel⟩

end Serial

end FloatProtocols
