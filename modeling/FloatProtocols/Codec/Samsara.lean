/-
  `samsara.rs`: the Samsara message, parser and encoder.

  The length of the id decides where everything else is.  The check in front of the fixed fields
  asks for 24 bytes behind the id where 28 are read: a message cut inside `payload_len` PANICS, and
  on no other input does the parser fail to return.  What it accepts is what starts with the encoding
  of a message whose two lengths fit their fields (`parse_eq_some_iff`).

  The two coordinates are the bit patterns of the `f64`s, which is all `from_be_bytes` looks at.
-/
import FloatProtocols.Lib.Exec

namespace FloatProtocols

open Wire

namespace Samsara

/-- `SamsaraMessage`. -/
structure SamsaraMessage where
  deviceId : String
  timestamp : UInt64
  latitude : UInt64
  longitude : UInt64
  payload : Bytes
  deriving DecidableEq

/-- `[data[place], .., data[place + 7]]`, big-endian. -/
def u64At {ε : Type} (data : Bytes) (place : Nat) : Exec ε UInt64 := do
  let bs ← Exec.indices data (List.range' place 8)
  .ok (ofU64Be bs)

/-- `parse` behind the device id, which takes `idLen` bytes. -/
def parseFields {ε : Type} (data : Bytes) (idLen : Nat) (deviceId : String) :
    Exec ε (Option SamsaraMessage) := do
  let timestamp ← u64At data (3 + idLen)
  let latitude ← u64At data (3 + idLen + 8)
  let longitude ← u64At data (3 + idLen + 16)
  let payloadLenBytes ← Exec.indices data (List.range' (3 + idLen + 24) 4)
  if data.length < 3 + idLen + 28 + (ofU32Be payloadLenBytes).toNat then .ok none
  else do
    let payload ← Exec.slice data (3 + idLen + 28)
      (3 + idLen + 28 + (ofU32Be payloadLenBytes).toNat)
    .ok (some { deviceId, timestamp, latitude, longitude, payload })

/-- `parse`. -/
def parse {ε : Type} (data : Bytes) : Exec ε (Option SamsaraMessage) :=
  if data.length < 31 then .ok none
  else do
    let version ← Exec.index data 0
    if version ≠ 1 then .ok none
    else do
      let idLenBytes ← Exec.indices data [1, 2]
      if data.length < 3 + (ofU16Be idLenBytes).toNat + 24 then .ok none
      else do
        let idBytes ← Exec.slice data 3 (3 + (ofU16Be idLenBytes).toNat)
        match fromUtf8 idBytes with
        | none => .ok none
        | some deviceId => parseFields data (ofU16Be idLenBytes).toNat deviceId

/-- `encode`: each length is cut to the bits of its field. -/
def encode (m : SamsaraMessage) : Bytes :=
  [1] ++ u16Be (UInt16.ofNat (utf8 m.deviceId).length) ++ utf8 m.deviceId ++ u64Be m.timestamp
    ++ u64Be m.latitude ++ u64Be m.longitude ++ u32Be (UInt32.ofNat m.payload.length) ++ m.payload

/-! ## What `parse` reads, in one line -/

/-- `device_id_len`. -/
def idLenOf (data : Bytes) : Nat := (ofU16Be (window data 1 2)).toNat

/-- `payload_len`, behind an id of `idLen` bytes. -/
def payloadLenOf (data : Bytes) (idLen : Nat) : Nat :=
  (ofU32Be (window data (3 + idLen + 24) 4)).toNat

/-- The message behind an id of `idLen` bytes. -/
def fieldsOf (data : Bytes) (idLen : Nat) (deviceId : String) : SamsaraMessage where
  deviceId := deviceId
  timestamp := ofU64Be (window data (3 + idLen) 8)
  latitude := ofU64Be (window data (3 + idLen + 8) 8)
  longitude := ofU64Be (window data (3 + idLen + 16) 8)
  payload := window data (3 + idLen + 28) (payloadLenOf data idLen)

section Outcome

variable {ε : Type} {data : Bytes}

theorem u64At_eq_ok {place : Nat} (h : place + 8 ≤ data.length) :
    (u64At data place : Exec ε UInt64) = .ok (ofU64Be (window data place 8)) := by
  rw [u64At, Exec.indices_range' h, Exec.ok_bind]

/-- With the 24 bytes the check asks for, the fields are read; the four bytes behind them decide
    between a panic, a refusal and a message. -/
theorem parseFields_outcome {idLen : Nat} (deviceId : String) (h : 3 + idLen + 24 ≤ data.length) :
    (parseFields data idLen deviceId : Exec ε _) =
      if data.length < 3 + idLen + 28 then .panic
      else if data.length < 3 + idLen + 28 + payloadLenOf data idLen then .ok none
      else .ok (some (fieldsOf data idLen deviceId)) := by
  rw [parseFields, u64At_eq_ok (by omega), Exec.ok_bind, u64At_eq_ok (by omega), Exec.ok_bind,
    u64At_eq_ok (by omega), Exec.ok_bind]
  by_cases hcut : data.length < 3 + idLen + 28
  · -- the last of the four bytes is not there
    have hlast : ∃ i ∈ List.range' (3 + idLen + 24) 4, data.length ≤ i :=
      ⟨3 + idLen + 27, List.mem_range'_1.mpr ⟨by omega, by omega⟩, by omega⟩
    rw [if_pos hcut, Exec.indices_eq_panic hlast, Exec.panic_bind]
  · rw [if_neg hcut, Exec.indices_range' (by omega), Exec.ok_bind]
    show (if data.length < 3 + idLen + 28 + payloadLenOf data idLen then _ else _) = _
    by_cases hshort : data.length < 3 + idLen + 28 + payloadLenOf data idLen
    · rw [if_pos hshort, if_pos hshort]
    · rw [if_neg hshort, if_neg hshort]
      show (Exec.slice data _ (3 + idLen + 28 + payloadLenOf data idLen) >>= fun payload => _) = _
      rw [Exec.slice_window (by omega), Exec.ok_bind]
      rfl

theorem parse_outcome (data : Bytes) :
    (parse data : Exec ε _) =
      if 31 ≤ data.length ∧ data.headD 0 = 1 ∧ 3 + idLenOf data + 24 ≤ data.length then
        (fromUtf8 (window data 3 (idLenOf data))).elim (.ok none) (parseFields data (idLenOf data))
      else .ok none := by
  rw [parse]
  by_cases h31 : data.length < 31
  · rw [if_pos h31, if_neg (by omega)]
  have hlen : (Exec.indices data [1, 2] : Exec ε Bytes) = .ok (window data 1 2) :=
    Exec.indices_range' (k := 2) (by omega)
  rw [if_neg h31, Exec.index_zero (by omega), Exec.ok_bind]
  by_cases hversion : data.headD 0 = 1
  · rw [if_neg (not_not_intro hversion), hlen, Exec.ok_bind]
    show (if data.length < 3 + idLenOf data + 24 then _ else _) = _
    by_cases hheader : data.length < 3 + idLenOf data + 24
    · rw [if_pos hheader, if_neg (by omega)]
    · rw [if_neg hheader, if_pos ⟨by omega, hversion, by omega⟩]
      show (Exec.slice data 3 (3 + idLenOf data) >>= fun idBytes => _) = _
      rw [Exec.slice_window (by omega), Exec.ok_bind]
      cases fromUtf8 (window data 3 (idLenOf data)) with
      | none => rfl
      | some deviceId => rfl
  · rw [if_pos hversion, if_neg fun h => hversion h.2.1]

end Outcome

/-! ## The panic -/

/-- The input ends inside `payload_len`, behind an id that is a text. -/
def CutInLength (data : Bytes) : Prop :=
  31 ≤ data.length ∧ data.headD 0 = 1 ∧ (fromUtf8 (window data 3 (idLenOf data))).isSome
    ∧ 27 + idLenOf data ≤ data.length ∧ data.length < 31 + idLenOf data

instance (data : Bytes) : Decidable (CutInLength data) := inferInstanceAs (Decidable (_ ∧ _))

/-- `parse` returns, unless the input is cut inside `payload_len`. -/
theorem parse_returns_iff {ε : Type} (data : Bytes) :
    (∃ o, (parse data : Exec ε _) = .ok o) ↔ ¬ CutInLength data := by
  rw [parse_outcome]
  by_cases hin : 31 ≤ data.length ∧ data.headD 0 = 1 ∧ 3 + idLenOf data + 24 ≤ data.length
  · rw [if_pos hin]
    obtain ⟨h31, hversion, hheader⟩ := hin
    cases hid : fromUtf8 (window data 3 (idLenOf data)) with
    | none => simp [CutInLength, hid]
    | some deviceId =>
      rw [Option.elim_some, parseFields_outcome deviceId hheader]
      by_cases hcut : data.length < 3 + idLenOf data + 28
      · have hpanic : CutInLength data := ⟨h31, hversion, by rw [hid]; rfl, by omega, by omega⟩
        simp [hcut, hpanic]
      · have hsafe : ¬ CutInLength data := by
          rintro ⟨-, -, -, -, hlt⟩
          omega
        rw [if_neg hcut]
        refine iff_of_true ?_ hsafe
        split
        · exact ⟨_, rfl⟩
        · exact ⟨_, rfl⟩
  · rw [if_neg hin]
    refine iff_of_true ⟨none, rfl⟩ ?_
    rintro ⟨h31, hversion, -, hheader, -⟩
    exact hin ⟨h31, hversion, by omega⟩

/-- The shortest input the first check lets through, with an id of four bytes. -/
def shortFrame : Bytes := [1, 0, 4] ++ List.replicate 28 0x41

example : CutInLength shortFrame := by decide

theorem parse_shortFrame :
    shortFrame.length = 31 ∧ (parse shortFrame : Exec Empty (Option SamsaraMessage)) = .panic := by
  decide

/-! ## The messages `parse` accepts -/

/-- Both lengths are kept by their fields. -/
def SamsaraMessage.Fits (m : SamsaraMessage) : Prop :=
  (utf8 m.deviceId).length < 65536 ∧ m.payload.length < 2 ^ 32

/-- The bytes a message takes on the wire. -/
def SamsaraMessage.size (m : SamsaraMessage) : Nat :=
  31 + (utf8 m.deviceId).length + m.payload.length

theorem length_encode (m : SamsaraMessage) : (encode m).length = m.size := by
  simp [encode, SamsaraMessage.size]
  omega

/-- The input is the windows `parse` looks at, one behind the other. -/
theorem eq_windows (data : Bytes) (idLen payloadLen : Nat) :
    data = window data 0 1 ++ (window data 1 2 ++ (window data 3 idLen ++ (window data (3 + idLen) 8
      ++ (window data (3 + idLen + 8) 8 ++ (window data (3 + idLen + 16) 8
      ++ (window data (3 + idLen + 24) 4 ++ (window data (3 + idLen + 28) payloadLen
      ++ data.drop (3 + idLen + 28 + payloadLen)))))))) := by
  rw [window_append_drop data rfl, window_append_drop data rfl, window_append_drop data rfl,
    window_append_drop data rfl, window_append_drop data rfl, window_append_drop data rfl,
    window_append_drop data rfl, window_append_drop data rfl, List.drop_zero]

theorem encode_fieldsOf {data : Bytes} {deviceId : String} (hversion : data.headD 0 = 1)
    (hid : fromUtf8 (window data 3 (idLenOf data)) = some deviceId)
    (hlen : 3 + idLenOf data + 28 + payloadLenOf data (idLenOf data) ≤ data.length) :
    (fieldsOf data (idLenOf data) deviceId).Fits ∧
      ∃ rest, data = encode (fieldsOf data (idLenOf data) deviceId) ++ rest := by
  have hidlen : (utf8 deviceId).length = idLenOf data := by
    rw [utf8_of_fromUtf8 hid, length_window (by omega)]
  have hpaylen : (window data (3 + idLenOf data + 28) (payloadLenOf data (idLenOf data))).length
      = payloadLenOf data (idLenOf data) := length_window hlen
  refine ⟨⟨?_, ?_⟩, data.drop (3 + idLenOf data + 28 + payloadLenOf data (idLenOf data)), ?_⟩
  · show (utf8 deviceId).length < 65536
    rw [hidlen]
    exact UInt16.toNat_lt _
  · show (window data _ _).length < 2 ^ 32
    rw [hpaylen]
    exact UInt32.toNat_lt _
  · have hone : window data 0 1 = [1] := by
      cases data with
      | nil => simp at hlen
      | cons b bs => rw [← hversion]; rfl
    have hu16 : u16Be (UInt16.ofNat (utf8 deviceId).length) = window data 1 2 := by
      rw [hidlen, idLenOf, UInt16.ofNat_toNat, u16Be_ofU16Be (length_window (by omega))]
    have hu32 : u32Be (UInt32.ofNat (payloadLenOf data (idLenOf data)))
        = window data (3 + idLenOf data + 24) 4 := by
      rw [payloadLenOf, UInt32.ofNat_toNat, u32Be_ofU32Be (length_window (by omega))]
    simp only [encode, fieldsOf, List.append_assoc]
    rw [hu16, utf8_of_fromUtf8 hid, hpaylen, hu32, u64Be_ofU64Be (length_window (by omega)),
      u64Be_ofU64Be (length_window (by omega)), u64Be_ofU64Be (length_window (by omega)), ← hone]
    exact eq_windows data _ _

theorem idLenOf_encode {m : SamsaraMessage} (h : (utf8 m.deviceId).length < 65536) (rest : Bytes) :
    idLenOf (encode m ++ rest) = (utf8 m.deviceId).length := by
  have hw : window (encode m ++ rest) 1 2 = u16Be (UInt16.ofNat (utf8 m.deviceId).length) := by
    simp only [encode, List.append_assoc]
    exact window_append rfl (length_u16Be _)
  rw [idLenOf, hw, toNat_ofU16Be_ofNat h]

/-- What `encode` writes is where `parse` looks for it: cut the pieces off one by one. -/
theorem parse_encode_append {ε : Type} {m : SamsaraMessage} (hfits : m.Fits) (rest : Bytes) :
    (parse (encode m ++ rest) : Exec ε _) = .ok (some m) := by
  obtain ⟨hidlt, hpaylt⟩ := hfits
  have hlen : (encode m ++ rest).length = m.size + rest.length := by
    rw [List.length_append, length_encode]
  rw [SamsaraMessage.size] at hlen
  have hidLen := idLenOf_encode hidlt rest
  generalize hdata : encode m ++ rest = data at hlen hidLen ⊢
  -- the pieces written against the windows read, which are as long
  have h := hdata.trans (eq_windows data (utf8 m.deviceId).length m.payload.length)
  simp only [encode, List.append_assoc] at h
  obtain ⟨-, h⟩ := List.append_inj h (by rw [length_window (by omega)]; rfl)
  obtain ⟨-, h⟩ := List.append_inj h (by rw [length_window (by omega), length_u16Be])
  obtain ⟨hid, h⟩ := List.append_inj h (by rw [length_window (by omega)])
  obtain ⟨htime, h⟩ := List.append_inj h (by rw [length_window (by omega), length_u64Be])
  obtain ⟨hlat, h⟩ := List.append_inj h (by rw [length_window (by omega), length_u64Be])
  obtain ⟨hlon, h⟩ := List.append_inj h (by rw [length_window (by omega), length_u64Be])
  obtain ⟨hu32, h⟩ := List.append_inj h (by rw [length_window (by omega), length_u32Be])
  obtain ⟨hpay, -⟩ := List.append_inj h (by rw [length_window (by omega)])
  have hpayLen : payloadLenOf data (utf8 m.deviceId).length = m.payload.length := by
    rw [payloadLenOf, ← hu32, toNat_ofU32Be_ofNat hpaylt]
  have hhead : data.headD 0 = 1 := by
    rw [← hdata]
    rfl
  rw [parse_outcome, hidLen, if_pos ⟨by omega, hhead, by omega⟩, ← hid, fromUtf8_utf8,
    Option.elim_some, parseFields_outcome _ (by omega), hpayLen, if_neg (by omega),
    if_neg (by omega), fieldsOf, hpayLen, ← htime, ← hlat, ← hlon, ← hpay]
  simp only [ofU64Be_u64Be]

/-- `parse` accepts exactly the inputs that start with the encoding of a message whose lengths fit,
    and returns that message. -/
theorem parse_eq_some_iff {ε : Type} {data : Bytes} {m : SamsaraMessage} :
    (parse data : Exec ε _) = .ok (some m) ↔ m.Fits ∧ ∃ rest, data = encode m ++ rest := by
  constructor
  · intro h
    rw [parse_outcome] at h
    split at h
    · rename_i hin
      obtain ⟨-, hversion, hheader⟩ := hin
      cases hid : fromUtf8 (window data 3 (idLenOf data)) with
      | none =>
        rw [hid] at h
        cases h
      | some deviceId =>
        rw [hid, Option.elim_some, parseFields_outcome deviceId hheader] at h
        split at h
        · cases h
        · split at h
          · cases h
          · cases h
            exact encode_fieldsOf hversion hid (by omega)
    · cases h
  · rintro ⟨hfits, rest, rfl⟩
    exact parse_encode_append hfits rest

/-- A message survives the wire exactly when its id is shorter than 65536 bytes and its payload
    shorter than `2 ^ 32`: a wrapped length never parses back to the message. -/
theorem parse_encode_iff {ε : Type} (m : SamsaraMessage) :
    (parse (encode m) : Exec ε _) = .ok (some m) ↔
      (utf8 m.deviceId).length < 65536 ∧ m.payload.length < 2 ^ 32 := by
  rw [parse_eq_some_iff]
  constructor
  · intro h
    exact h.1
  · intro h
    exact ⟨h, [], (List.append_nil _).symm⟩

theorem size_le {ε : Type} {data : Bytes} {m : SamsaraMessage}
    (h : (parse data : Exec ε _) = .ok (some m)) : m.size ≤ data.length := by
  obtain ⟨-, rest, rfl⟩ := parse_eq_some_iff.mp h
  rw [List.length_append, length_encode]
  exact Nat.le_add_right _ _

end Samsara

end FloatProtocols
