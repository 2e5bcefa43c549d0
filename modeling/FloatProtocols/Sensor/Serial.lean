/-
  `sensor/rs232.rs` and `sensor/rs485.rs`: serial frames, and what becomes of their bytes.

  Each reader checks its frame, strips what is around the sensor bytes and hands them on in a message
  LABELLED `IridiumSBD`, without building the short-burst frame that label stands for.  The
  translator then reads a length out of the second and third sensor byte.  Whatever it finds there,
  it drops those two bytes, so no frame comes through whole (`translateSync_sbd_shorter`).
-/
import Mathlib.Data.List.Perm.Subperm
import FloatProtocols.Translator

namespace FloatProtocols

open Wire

namespace Serial

/-- `Rs232Error` and `Rs485Error`: the two answers of their parsers. -/
inductive SerialError where
  | invalidFrame
  | crcMismatch
  deriving DecidableEq, Repr

/-! ## Checksums -/

/-- One bit of the reflected CRC-16. -/
def crcBit (crc : UInt16) : UInt16 :=
  if crc &&& 0x0001 ≠ 0 then (crc >>> 1) ^^^ 0xA001 else crc >>> 1

/-- One byte. -/
def crcByte (crc : UInt16) (byte : UInt8) : UInt16 := Nat.repeat crcBit 8 (crc ^^^ byte.toUInt16)

/-- `compute_crc16`. -/
def computeCrc16 (data : Bytes) : UInt16 := data.foldl crcByte 0xFFFF

/-- `compute_modbus_crc`, in both readers: the same loop. -/
def computeModbusCrc (data : Bytes) : UInt16 := computeCrc16 data

/-- The XOR checksum of a Thermo King frame. -/
def xorChecksum (data : Bytes) : UInt8 := data.foldl (· ^^^ ·) 0

/-! ## The parsers -/

/-- The message a reader makes of sensor bytes, with the clock reading of `Message::new`. -/
def sensorMessage (now : UInt64) (messageData : Bytes) : Message :=
  Message.new .iridiumSBD messageData .operational now

/-- `u16::from_le_bytes`. -/
def ofU16Le (bs : Bytes) : UInt16 := UInt16.ofNat (leNat bs)

/-- `Rs232Reader::parse_carrier_micro_link`. -/
def parseCarrierMicroLink (now : UInt64) (data : Bytes) : Exec SerialError Message :=
  if data.length < 5 then .err .invalidFrame
  else do
    let header ← Exec.slice data 0 2
    if header ≠ [0x43, 0x4D] then .err .invalidFrame
    else do
      let lengthBytes ← Exec.indices data [2, 3]
      let length := (ofU16Be lengthBytes).toNat
      if data.length < 5 + length + 2 then .err .invalidFrame
      else do
        let frameType ← Exec.index data 4
        let payload ← Exec.slice data 5 (5 + length)
        let crc ← Exec.indices data [5 + length, 5 + length + 1]
        let checked ← Exec.slice data 0 (5 + length)
        if computeCrc16 checked ≠ ofU16Be crc then .err .crcMismatch
        else .ok (sensorMessage now (frameType :: payload))

/-- `Rs232Reader::parse_thermo_king`. -/
def parseThermoKing (now : UInt64) (data : Bytes) : Exec SerialError Message :=
  if data.length < 5 then .err .invalidFrame
  else do
    let stx ← Exec.index data 0
    let etx ← Exec.index data (data.length - 2)
    if stx ≠ 0x02 ∨ etx ≠ 0x03 then .err .invalidFrame
    else do
      let addr ← Exec.index data 1
      let cmd ← Exec.index data 2
      let payload ← Exec.slice data 3 (data.length - 2)
      let crc ← Exec.index data (data.length - 1)
      let checked ← Exec.slice data 1 (data.length - 1)
      if xorChecksum checked ≠ crc then .err .crcMismatch
      else .ok (sensorMessage now (addr :: cmd :: payload))

/-- `Rs232Reader::parse_modbus_rtu`. -/
def Rs232.parseModbusRtu (now : UInt64) (data : Bytes) : Exec SerialError Message :=
  if data.length < 4 then .err .invalidFrame
  else do
    let addr ← Exec.index data 0
    let func ← Exec.index data 1
    let payload ← Exec.slice data 2 (data.length - 2)
    let crc ← Exec.indices data [data.length - 2, data.length - 1]
    let checked ← Exec.slice data 0 (data.length - 2)
    if computeModbusCrc checked ≠ ofU16Le crc then .err .crcMismatch
    else .ok (sensorMessage now (addr :: func :: payload))

/-- `Rs485Reader::parse_modbus_rtu`: the same text. -/
def Rs485.parseModbusRtu (now : UInt64) (data : Bytes) : Exec SerialError Message :=
  Rs232.parseModbusRtu now data

/-- A frame that one of the four parsers accepts, and the message it makes of it. -/
inductive Accepted (now : UInt64) (data : Bytes) (m : Message) : Prop where
  | carrierMicroLink (h : parseCarrierMicroLink now data = .ok m)
  | thermoKing (h : parseThermoKing now data = .ok m)
  | modbusRs232 (h : Rs232.parseModbusRtu now data = .ok m)
  | modbusRs485 (h : Rs485.parseModbusRtu now data = .ok m)

theorem parseCarrierMicroLink_eq_ok {now : UInt64} {data : Bytes} {m : Message}
    (h : parseCarrierMicroLink now data = .ok m) : ∃ bytes, m = sensorMessage now bytes := by
  rw [parseCarrierMicroLink] at h
  split at h
  · cases h
  · obtain ⟨header, -, h⟩ := Exec.bind_eq_ok.mp h
    split at h
    · cases h
    · obtain ⟨lengthBytes, -, h⟩ := Exec.bind_eq_ok.mp h
      simp only at h
      split at h
      · cases h
      · obtain ⟨frameType, -, h⟩ := Exec.bind_eq_ok.mp h
        obtain ⟨payload, -, h⟩ := Exec.bind_eq_ok.mp h
        obtain ⟨crc, -, h⟩ := Exec.bind_eq_ok.mp h
        obtain ⟨checked, -, h⟩ := Exec.bind_eq_ok.mp h
        split at h
        · cases h
        · exact ⟨_, (Exec.ok.inj h).symm⟩

theorem parseThermoKing_eq_ok {now : UInt64} {data : Bytes} {m : Message}
    (h : parseThermoKing now data = .ok m) : ∃ bytes, m = sensorMessage now bytes := by
  rw [parseThermoKing] at h
  split at h
  · cases h
  · obtain ⟨stx, -, h⟩ := Exec.bind_eq_ok.mp h
    obtain ⟨etx, -, h⟩ := Exec.bind_eq_ok.mp h
    split at h
    · cases h
    · obtain ⟨addr, -, h⟩ := Exec.bind_eq_ok.mp h
      obtain ⟨cmd, -, h⟩ := Exec.bind_eq_ok.mp h
      obtain ⟨payload, -, h⟩ := Exec.bind_eq_ok.mp h
      obtain ⟨crc, -, h⟩ := Exec.bind_eq_ok.mp h
      obtain ⟨checked, -, h⟩ := Exec.bind_eq_ok.mp h
      split at h
      · cases h
      · exact ⟨_, (Exec.ok.inj h).symm⟩

theorem parseModbusRtu_eq_ok {now : UInt64} {data : Bytes} {m : Message}
    (h : Rs232.parseModbusRtu now data = .ok m) : ∃ bytes, m = sensorMessage now bytes := by
  rw [Rs232.parseModbusRtu] at h
  split at h
  · cases h
  · obtain ⟨addr, -, h⟩ := Exec.bind_eq_ok.mp h
    obtain ⟨func, -, h⟩ := Exec.bind_eq_ok.mp h
    obtain ⟨payload, -, h⟩ := Exec.bind_eq_ok.mp h
    obtain ⟨crc, -, h⟩ := Exec.bind_eq_ok.mp h
    obtain ⟨checked, -, h⟩ := Exec.bind_eq_ok.mp h
    split at h
    · cases h
    · exact ⟨_, (Exec.ok.inj h).symm⟩

/-- Whichever parser it was, the message is labelled as a short burst. -/
theorem Accepted.protocol {now : UInt64} {data : Bytes} {m : Message} (h : Accepted now data m) :
    m.protocol = .iridiumSBD := by
  have hbytes : ∃ bytes, m = sensorMessage now bytes := by
    cases h with
    | carrierMicroLink h => exact parseCarrierMicroLink_eq_ok h
    | thermoKing h => exact parseThermoKing_eq_ok h
    | modbusRs232 h => exact parseModbusRtu_eq_ok h
    | modbusRs485 h => exact parseModbusRtu_eq_ok h
  obtain ⟨bytes, rfl⟩ := hbytes
  rfl

/-! ## In the translator -/

/-- The decoder gives back at least two bytes fewer than it got: the length field. -/
theorem decodeIridiumSbd_shorter {data out : Bytes}
    (h : Translator.decodeIridiumSbd data = .ok out) : out.length + 2 ≤ data.length := by
  rw [Translator.decodeIridiumSbd_outcome] at h
  split at h
  · rename_i hin
    obtain rfl := Exec.ok.inj h
    rw [List.length_cons, length_window hin.2.1]
    omega
  · cases h

theorem translateSync_sbd_shorter {libs : Translator.Libs} {now : UInt64} {m t : Message}
    (hm : m.protocol = .iridiumSBD) (h : Translator.translateSync libs now m = .ok t) :
    t.data.length + 2 ≤ m.data.length := by
  rw [Translator.translateSync, hm] at h
  obtain ⟨out, hout, h⟩ := Exec.bind_eq_ok.mp h
  have hshort := decodeIridiumSbd_shorter hout
  obtain rfl := Exec.ok.inj h
  show (Message.new .astSpaceMobile out m.priority now).data.length + 2 ≤ m.data.length
  rw [Message.new_data, List.length_take]
  omega

/-- **No serial frame comes through the translator whole**: the message is refused, or its
    translation does not hold all the bytes the reader put in, in whatever order. -/
theorem serial_frame_never_whole (libs : Translator.Libs) (now now' : UInt64) (data : Bytes)
    (m : Message) (h : Accepted now data m) :
    ¬ ∃ t, Translator.translateSync libs now' m = .ok t ∧ m.data.Subperm t.data := by
  rintro ⟨t, ht, hsub⟩
  have hshort := translateSync_sbd_shorter h.protocol ht
  have hle := hsub.length_le
  omega

/-- A Thermo King frame whose translation is one byte, the address. -/
theorem serial_frame_never_whole_thermoKing :
    ¬ ∃ t, Translator.translateSync Translator.frameLibs 0
        (sensorMessage 0 [0x01, 0x00, 0x00, 0x10]) = .ok t ∧
      (sensorMessage 0 [0x01, 0x00, 0x00, 0x10]).data.Subperm t.data :=
  serial_frame_never_whole Translator.frameLibs 0 0 [0x02, 0x01, 0x00, 0x00, 0x10, 0x03, 0x12] _
    (.thermoKing (by decide +kernel))

/-- A Modbus answer, "register value 42", is refused: the function code and the byte count are
    taken for a length of 770. -/
theorem modbus_answer_refused :
    Rs485.parseModbusRtu 0 [0x01, 0x03, 0x02, 0x00, 0x2A, 0x39, 0x9B] =
      .ok (sensorMessage 0 [0x01, 0x03, 0x02, 0x00, 0x2A]) ∧
    Translator.translateSync Translator.frameLibs 0
      (sensorMessage 0 [0x01, 0x03, 0x02, 0x00, 0x2A]) = .err .invalidProtocol := by
  decide +kernel

end Serial

end FloatProtocols
