/-
  `inmarsat_c.rs`: the Inmarsat C teletype frame, parser and re-encoder.

  A frame is magic number, message number, two 4-byte terminal ids, payload and a CRC over all of it.
  In memory the ids are TEXT, eight lowercase hex digits, so encoding has to get the four bytes back
  with `hex::decode` before it can copy them into a 4-byte window.  Every index, range and copy is in
  `Exec`: `parse_ne_panic` rests on the length check at the top, `encode_eq` on the ids holding four
  bytes.

  `checked (body ..)` is the form of a frame.  `parse` accepts exactly these, of any payload
  (`parse_eq_ok_iff_body`); `encode` writes them with a payload cut to 114 bytes (`encode_hexText`).

  The checksum and `hex::decode` are the parameter `Libs`.
-/
import FloatProtocols.Codec.Hex
import FloatProtocols.Lib.Crc
import FloatProtocols.Lib.Exec

namespace FloatProtocols

open Wire

namespace InmarsatC

/-- The two libraries the frame is checked with. -/
structure Libs where
  /-- `CRC.checksum`. -/
  checksum : Bytes → UInt16
  /-- `hex::decode`, `none` for its errors. -/
  hexDecode : String → Option Bytes

/-- `ParseError`. -/
inductive ParseError where
  | invalidMagicNumber (found expected : UInt32)
  | checksumMismatch (expected found : UInt16)
  | invalidLength (min found : Nat)
  | invalidDestinationId (value : String)
  | invalidSourceId (value : String)
  deriving DecidableEq, Repr

/-- `InmarsatCMessage`. -/
structure InmarsatCMessage where
  messageNumber : UInt16
  destinationId : String
  sourceId : String
  payload : Bytes
  deriving DecidableEq, Repr

/-- `MAGIC_NUMBER`. -/
def magicNumber : UInt32 := 0x494E4D01

/-! ## Parser -/

/-- The bytes behind the ids. -/
def innerPayload {ε : Type} (data : Bytes) : Exec ε Bytes :=
  if data.length > 14 then Exec.slice data 14 data.length else .ok []

/-- A terminal id at the given places, checked to be hex text. -/
def parseId (libs : Libs) (data : Bytes) (places : List Nat) (invalid : String → ParseError) :
    Exec ParseError String := do
  let bs ← Exec.indices data places
  if (libs.hexDecode (hexText bs)).isNone then .err (invalid (hexText bs)) else .ok (hexText bs)

/-- `parse_inner`: the frame without its checksum. -/
def parseInner (libs : Libs) (data : Bytes) : Exec ParseError InmarsatCMessage := do
  let number ← Exec.indices data [4, 5]
  let destinationId ← parseId libs data [6, 7, 8, 9] .invalidDestinationId
  let sourceId ← parseId libs data [10, 11, 12, 13] .invalidSourceId
  let payload ← innerPayload data
  .ok { messageNumber := ofU16Be number, destinationId, sourceId, payload }

/-- `parse`. -/
def parse (libs : Libs) (data : Bytes) : Exec ParseError InmarsatCMessage :=
  if data.length < 16 then .err (.invalidLength 16 data.length)
  else do
    let magic ← Exec.indices data [0, 1, 2, 3]
    if ofU32Be magic ≠ magicNumber then .err (.invalidMagicNumber (ofU32Be magic) magicNumber)
    else do
      let payloadLen := data.length - 2
      let body ← Exec.slice data 0 payloadLen
      let computed := libs.checksum body
      let stored ← Exec.indices data [payloadLen, payloadLen + 1]
      if computed ≠ ofU16Be stored then .err (.checksumMismatch computed (ofU16Be stored))
      else parseInner libs body

/-! ## Encoder -/

/-- The bytes of an id for its window: four zeros where it is no hex text. -/
def idBytes (libs : Libs) (id : String) : Bytes := (libs.hexDecode id).getD (List.replicate 4 0)

/-- `encode`. -/
def encode {ε : Type} (libs : Libs) (m : InmarsatCMessage) : Exec ε Bytes := do
  let buffer := List.replicate 128 0
  let buffer ← Exec.copyInto buffer 0 4 (u32Be magicNumber)
  let buffer ← Exec.copyInto buffer 4 6 (u16Be m.messageNumber)
  let destBytes := idBytes libs m.destinationId
  let dest ← Exec.slice destBytes 0 (min 4 destBytes.length)
  let buffer ← Exec.copyInto buffer 6 10 dest
  let srcBytes := idBytes libs m.sourceId
  let src ← Exec.slice srcBytes 0 (min 4 srcBytes.length)
  let buffer ← Exec.copyInto buffer 10 14 src
  let payloadLen := min m.payload.length 114
  let payload ← Exec.slice m.payload 0 payloadLen
  let buffer ← Exec.copyInto buffer 14 (14 + payloadLen) payload
  let dataLen := 14 + payloadLen
  let buffer := buffer.take dataLen
  let body ← Exec.slice buffer 0 dataLen
  .ok (buffer ++ u16Be (libs.checksum body))

/-! ## No panic -/

theorem innerPayload_ne_panic {ε : Type} (data : Bytes) :
    (innerPayload data : Exec ε Bytes) ≠ .panic := by
  rw [innerPayload]
  split
  · rw [Exec.slice_eq_ok (by omega) (Nat.le_refl _)]
    simp
  · simp

theorem parseId_ne_panic (libs : Libs) {data : Bytes} {places : List Nat}
    (h : ∀ i ∈ places, i < data.length) (invalid : String → ParseError) :
    parseId libs data places invalid ≠ .panic := by
  rw [parseId]
  refine Exec.indices_bind_ne_panic h fun bs _ => ?_
  split <;> simp

theorem parseInner_ne_panic (libs : Libs) {data : Bytes} (h : 14 ≤ data.length) :
    parseInner libs data ≠ .panic := by
  rw [parseInner]
  refine Exec.indices_bind_ne_panic (by simp; omega) fun number _ => ?_
  refine Exec.bind_ne_panic.mpr ⟨parseId_ne_panic libs (by simp; omega) _, fun destId _ => ?_⟩
  refine Exec.bind_ne_panic.mpr ⟨parseId_ne_panic libs (by simp; omega) _, fun srcId _ => ?_⟩
  exact Exec.bind_ne_panic.mpr ⟨innerPayload_ne_panic data, fun _ _ => by simp⟩

theorem parse_ne_panic (libs : Libs) (data : Bytes) : parse libs data ≠ .panic := by
  rw [parse]
  split
  · simp
  · refine Exec.indices_bind_ne_panic (by simp; omega) fun magic _ => ?_
    split
    · simp
    · refine Exec.slice_bind_ne_panic (by omega) (by omega) fun body hbody => ?_
      refine Exec.indices_bind_ne_panic (by simp; omega) fun stored _ => ?_
      split
      · simp
      · exact parseInner_ne_panic libs (by omega)

/-! ## The frame -/

/-- A frame in front of its checksum. -/
def body (number : UInt16) (dest src payload : Bytes) : Bytes :=
  u32Be magicNumber ++ (u16Be number ++ (dest ++ (src ++ payload)))

/-- Bytes and their checksum. -/
def checked (libs : Libs) (bs : Bytes) : Bytes := bs ++ u16Be (libs.checksum bs)

theorem length_checked (libs : Libs) (bs : Bytes) : (checked libs bs).length = bs.length + 2 := by
  rw [checked, List.length_append, length_u16Be]

theorem length_body {number : UInt16} {dest src : Bytes} (hdest : dest.length = 4)
    (hsrc : src.length = 4) (payload : Bytes) :
    (body number dest src payload).length = 14 + payload.length := by
  simp [body, hdest, hsrc]
  omega

theorem checked_inj {libs : Libs} {bs bs' : Bytes} (h : checked libs bs = checked libs bs') :
    bs = bs' :=
  (List.append_inj' h (by rw [length_u16Be, length_u16Be])).1

theorem window_checked_front (libs : Libs) {bs : Bytes} {k : Nat} (h : k ≤ bs.length) :
    window (checked libs bs) 0 k = window bs 0 k := by
  rw [window, checked, List.drop_zero, List.take_append_of_le_length h]
  rfl

theorem window_checked_end (libs : Libs) (bs : Bytes) :
    window (checked libs bs) bs.length 2 = u16Be (libs.checksum bs) := by
  rw [window, checked, List.drop_left, List.take_of_length_le (by rw [length_u16Be])]

/-- Bytes that end in the checksum of the rest. -/
theorem checked_windows {libs : Libs} {data : Bytes} (h : 2 ≤ data.length)
    (hsum : libs.checksum (window data 0 (data.length - 2))
      = ofU16Be (window data (data.length - 2) 2)) :
    checked libs (window data 0 (data.length - 2)) = data := by
  have hend : window data (data.length - 2) 2 = data.drop (data.length - 2) := by
    rw [window, List.take_of_length_le (by rw [List.length_drop]; omega)]
  rw [checked, hsum, u16Be_ofU16Be (length_window (by omega)), hend,
    window_append_drop data (Nat.zero_add _), List.drop_zero]

theorem body_inj {number number' : UInt16} {dest src dest' src' payload payload' : Bytes}
    (hdest : dest.length = dest'.length) (hsrc : src.length = src'.length)
    (h : body number dest src payload = body number' dest' src' payload') :
    number = number' ∧ dest = dest' ∧ src = src' ∧ payload = payload' := by
  have h := List.append_cancel_left h
  obtain ⟨hnumber, h⟩ := List.append_inj h (by rw [length_u16Be, length_u16Be])
  obtain ⟨hd, h⟩ := List.append_inj h hdest
  obtain ⟨hs, hp⟩ := List.append_inj h hsrc
  exact ⟨u16Be_inj hnumber, hd, hs, hp⟩

theorem window_body (number : UInt16) (dest src payload : Bytes) :
    window (body number dest src payload) 0 4 = u32Be magicNumber := by
  rw [window, List.drop_zero, body, List.take_left' (length_u32Be _)]

/-- Fourteen bytes and more behind the magic number are a frame. -/
theorem body_windows {bs : Bytes} (hlen : 14 ≤ bs.length)
    (hmagic : window bs 0 4 = u32Be magicNumber) :
    body (ofU16Be (window bs 4 2)) (window bs 6 4) (window bs 10 4) (bs.drop 14) = bs := by
  rw [body, u16Be_ofU16Be (length_window (by omega)), ← hmagic, window_append_drop bs rfl,
    window_append_drop bs rfl, window_append_drop bs rfl, window_append_drop bs rfl, List.drop_zero]

/-! ### What `parse` accepts -/

theorem parse_outcome (libs : Libs) {data : Bytes} (h : 16 ≤ data.length) :
    parse libs data =
      if ofU32Be (window data 0 4) ≠ magicNumber then
        .err (.invalidMagicNumber (ofU32Be (window data 0 4)) magicNumber)
      else if libs.checksum (window data 0 (data.length - 2))
          ≠ ofU16Be (window data (data.length - 2) 2) then
        .err (.checksumMismatch (libs.checksum (window data 0 (data.length - 2)))
          (ofU16Be (window data (data.length - 2) 2)))
      else parseInner libs (window data 0 (data.length - 2)) := by
  have hmagic : (Exec.indices data [0, 1, 2, 3] : Exec ParseError Bytes) = .ok (window data 0 4) :=
    Exec.indices_range' (k := 4) (by omega)
  have hbody : (Exec.slice data 0 (data.length - 2) : Exec ParseError Bytes)
      = .ok (window data 0 (data.length - 2)) :=
    Exec.slice_eq_ok (Nat.zero_le _) (Nat.sub_le _ _)
  have hstored : (Exec.indices data [data.length - 2, data.length - 2 + 1] : Exec ParseError Bytes)
      = .ok (window data (data.length - 2) 2) :=
    Exec.indices_range' (k := 2) (by omega)
  rw [parse, if_neg (by omega), hmagic, Exec.ok_bind]
  by_cases hm : ofU32Be (window data 0 4) = magicNumber
  · rw [if_neg (not_not_intro hm), if_neg (not_not_intro hm)]
    show (Exec.slice data 0 (data.length - 2) >>= fun _ => _) = _
    rw [hbody, Exec.ok_bind, hstored, Exec.ok_bind]
  · rw [if_pos hm, if_pos hm]

/-- A frame is accepted when its first four bytes are the magic number, its last two the checksum of
    the rest, and the rest is a message. -/
theorem parse_eq_ok_iff {libs : Libs} {data : Bytes} {m : InmarsatCMessage} :
    parse libs data = .ok m ↔
      ∃ bs, 14 ≤ bs.length ∧ window bs 0 4 = u32Be magicNumber ∧ data = checked libs bs
        ∧ parseInner libs bs = .ok m := by
  constructor
  · intro h
    rcases Nat.lt_or_ge data.length 16 with hlt | hle
    · rw [parse, if_pos hlt] at h
      cases h
    · rw [parse_outcome libs hle] at h
      split at h
      · cases h
      rename_i hmagic
      split at h
      · cases h
      rename_i hsum
      refine ⟨window data 0 (data.length - 2), ?_, ?_,
        (checked_windows (by omega) (not_not.mp hsum)).symm, h⟩
      · rw [length_window (by omega)]
        omega
      · rw [← not_not.mp hmagic, u32Be_ofU32Be (length_window (by omega))]
        exact window_take (by omega)
  · rintro ⟨bs, hlen, hmagic, rfl, h⟩
    have hdata := length_checked libs bs
    have hcut : (checked libs bs).length - 2 = bs.length := by omega
    have hbody : window bs 0 bs.length = bs := List.take_length
    rw [parse_outcome libs (by omega), hcut, window_checked_front libs (Nat.le_refl _), hbody,
      window_checked_end, window_checked_front libs (by omega), hmagic, ofU32Be_u32Be, ofU16Be_u16Be,
      if_neg (not_not_intro rfl), if_neg (not_not_intro rfl), h]

theorem innerPayload_eq {ε : Type} {data : Bytes} (h : 14 ≤ data.length) :
    (innerPayload data : Exec ε Bytes) = .ok (data.drop 14) := by
  rw [innerPayload]
  split
  · rw [Exec.slice_eq_ok (by omega) (Nat.le_refl _),
      List.take_of_length_le (by rw [List.length_drop])]
  · rw [List.drop_of_length_le (by omega)]

section HexDecode

variable {libs : Libs} (hhex : HexInverts libs.hexDecode)
include hhex

theorem parseId_eq {data : Bytes} {i : Nat} (h : i + 4 ≤ data.length)
    (invalid : String → ParseError) :
    parseId libs data [i, i + 1, i + 2, i + 3] invalid = .ok (hexText (window data i 4)) := by
  have hin : (Exec.indices data [i, i + 1, i + 2, i + 3] : Exec ParseError Bytes)
      = .ok (window data i 4) := Exec.indices_range' (k := 4) h
  rw [parseId, hin, Exec.ok_bind, hhex, Option.isNone_some]
  rfl

theorem parseInner_eq {data : Bytes} (h : 14 ≤ data.length) :
    parseInner libs data = .ok ⟨ofU16Be (window data 4 2), hexText (window data 6 4),
      hexText (window data 10 4), data.drop 14⟩ := by
  have hnumber : (Exec.indices data [4, 5] : Exec ParseError Bytes) = .ok (window data 4 2) :=
    Exec.indices_range' (k := 2) (by omega)
  have hdest := parseId_eq hhex (i := 6) (by omega : 6 + 4 ≤ data.length) .invalidDestinationId
  have hsrc := parseId_eq hhex (i := 10) (by omega : 10 + 4 ≤ data.length) .invalidSourceId
  rw [parseInner, hnumber, Exec.ok_bind, hdest, Exec.ok_bind, hsrc, Exec.ok_bind, innerPayload_eq h,
    Exec.ok_bind]

/-- The frames `parse` accepts, and the message of each. -/
theorem parse_eq_ok_iff_body {data : Bytes} {m : InmarsatCMessage} :
    parse libs data = .ok m ↔
      ∃ dest src, dest.length = 4 ∧ src.length = 4 ∧ m.destinationId = hexText dest
        ∧ m.sourceId = hexText src
        ∧ data = checked libs (body m.messageNumber dest src m.payload) := by
  rw [parse_eq_ok_iff]
  constructor
  · rintro ⟨bs, hlen, hmagic, rfl, h⟩
    rw [parseInner_eq hhex hlen] at h
    cases h
    exact ⟨window bs 6 4, window bs 10 4, length_window (by omega), length_window (by omega), rfl,
      rfl, congrArg (checked libs) (body_windows hlen hmagic).symm⟩
  · rintro ⟨dest, src, hdest, hsrc, hdestId, hsrcId, rfl⟩
    have hlen : 14 ≤ (body m.messageNumber dest src m.payload).length := by
      rw [length_body hdest hsrc]
      omega
    have hmagic := window_body m.messageNumber dest src m.payload
    refine ⟨_, hlen, hmagic, rfl, ?_⟩
    obtain ⟨hn, hd, hs, hp⟩ := body_inj
      (by rw [length_window (by omega), hdest]) (by rw [length_window (by omega), hsrc])
      (body_windows hlen hmagic)
    rw [parseInner_eq hhex hlen, hn, hd, hs, hp, ← hdestId, ← hsrcId]

end HexDecode

/-! ### What `encode` writes -/

/-- A copyable id: `encode` gets four bytes from it. -/
def FullId (libs : Libs) (id : String) : Prop := 4 ≤ (idBytes libs id).length

theorem fullId_hexText {libs : Libs} (hhex : HexInverts libs.hexDecode) {bs : Bytes}
    (h : bs.length = 4) : FullId libs (hexText bs) := by
  rw [FullId, idBytes, hhex bs, Option.getD_some, h]

/-- With two full ids, `encode` writes the frame of their first four bytes and of as much of the
    payload as there is room for. -/
theorem encode_eq {ε : Type} {libs : Libs} {m : InmarsatCMessage}
    (hdest : FullId libs m.destinationId) (hsrc : FullId libs m.sourceId) :
    (encode libs m : Exec ε Bytes) = .ok (checked libs (body m.messageNumber
      ((idBytes libs m.destinationId).take 4) ((idBytes libs m.sourceId).take 4)
      (m.payload.take 114))) := by
  rw [FullId] at hdest hsrc
  have hd := List.length_take_of_le hdest
  have hs := List.length_take_of_le hsrc
  have hp : (m.payload.take 114).length = min 114 m.payload.length := List.length_take
  have hbody : [] ++ u32Be magicNumber ++ u16Be m.messageNumber
      ++ (idBytes libs m.destinationId).take 4 ++ (idBytes libs m.sourceId).take 4
      ++ m.payload.take 114 = body m.messageNumber ((idBytes libs m.destinationId).take 4)
        ((idBytes libs m.sourceId).take 4) (m.payload.take 114) := by
    simp [body]
  have hlen : (body m.messageNumber ((idBytes libs m.destinationId).take 4)
      ((idBytes libs m.sourceId).take 4) (m.payload.take 114)).length
      = 14 + min 114 m.payload.length := by
    rw [length_body hd hs, hp]
  -- the pieces fill the buffer from the front; what is left of it is cut off
  simp only [encode]
  rw [Nat.min_comm m.payload.length, ← List.nil_append (List.replicate _ _),
    Exec.copyInto_zeros (by simp) (by simp) (by simp), Exec.ok_bind,
    Exec.copyInto_zeros (by simp) (by simp) (by simp), Exec.ok_bind, Exec.slice_min, Exec.ok_bind,
    Exec.copyInto_zeros (by simp) (by rw [hd]) (by rw [hd]; simp), Exec.ok_bind, Exec.slice_min,
    Exec.ok_bind, Exec.copyInto_zeros (by simp [hd]) (by rw [hs]) (by rw [hd, hs]; simp), Exec.ok_bind,
    Exec.slice_min, Exec.ok_bind, Exec.copyInto_zeros (by simp [hd, hs]) (by rw [hp])
      (by rw [hd, hs, hp]; simp), Exec.ok_bind, hbody, List.take_left' hlen,
    Exec.slice_eq_ok (Nat.zero_le _) (Nat.le_of_eq hlen.symm), List.drop_zero, Nat.sub_zero,
    List.take_of_length_le (Nat.le_of_eq hlen), Exec.ok_bind, checked]

theorem encode_ne_panic {ε : Type} {libs : Libs} {m : InmarsatCMessage}
    (hdest : FullId libs m.destinationId) (hsrc : FullId libs m.sourceId) :
    (encode libs m : Exec ε Bytes) ≠ .panic := by
  rw [encode_eq hdest hsrc]
  simp

section HexDecode

variable {libs : Libs} (hhex : HexInverts libs.hexDecode)
include hhex

/-- What `encode` writes of an accepted message: its ids are read back, its payload is cut. -/
theorem encode_hexText {ε : Type} {m : InmarsatCMessage} {dest src : Bytes} (hdest : dest.length = 4)
    (hsrc : src.length = 4) (hdestId : m.destinationId = hexText dest)
    (hsrcId : m.sourceId = hexText src) :
    (encode libs m : Exec ε Bytes)
      = .ok (checked libs (body m.messageNumber dest src (m.payload.take 114))) := by
  have hd : (idBytes libs m.destinationId).take 4 = dest := by
    rw [idBytes, hdestId, hhex, Option.getD_some, List.take_of_length_le (Nat.le_of_eq hdest)]
  have hs : (idBytes libs m.sourceId).take 4 = src := by
    rw [idBytes, hsrcId, hhex, Option.getD_some, List.take_of_length_le (Nat.le_of_eq hsrc)]
  rw [encode_eq (hdestId ▸ fullId_hexText hhex hdest) (hsrcId ▸ fullId_hexText hhex hsrc), hd, hs]

/-- **Re-encoding what was parsed does not panic**: the ids are four bytes of hex text. -/
theorem parse_encode_ne_panic {ε : Type} {data : Bytes} {m : InmarsatCMessage}
    (h : parse libs data = .ok m) : (encode libs m : Exec ε Bytes) ≠ .panic := by
  obtain ⟨dest, src, hdest, hsrc, hdestId, hsrcId, -⟩ := (parse_eq_ok_iff_body hhex).mp h
  rw [encode_hexText hhex hdest hsrc hdestId hsrcId]
  simp

/-- **The round trip and its domain**: a message comes back exactly when its ids are the text of
    four bytes and its payload fits. -/
theorem encode_parse_iff (m : InmarsatCMessage) :
    (encode libs m >>= parse libs) = .ok m ↔
      HexId 4 m.destinationId ∧ HexId 4 m.sourceId ∧ m.payload.length ≤ 114 := by
  constructor
  · intro h
    obtain ⟨data, hencode, hparse⟩ := Exec.bind_eq_ok.mp h
    obtain ⟨dest, src, hdest, hsrc, hdestId, hsrcId, rfl⟩ := (parse_eq_ok_iff_body hhex).mp hparse
    rw [encode_hexText hhex hdest hsrc hdestId hsrcId] at hencode
    -- the frame that was parsed holds the cut payload
    obtain ⟨-, -, -, hpayload⟩ := body_inj rfl rfl (checked_inj (Exec.ok.inj hencode))
    refine ⟨?_, ?_, ?_⟩
    · rw [hdestId, ← hdest]
      exact hexId_hexText dest
    · rw [hsrcId, ← hsrc]
      exact hexId_hexText src
    · rw [← hpayload, List.length_take]
      exact Nat.min_le_left _ _
  · rintro ⟨hdestId, hsrcId, hpayload⟩
    obtain ⟨dest, hdest, hdestId⟩ := hdestId.exists_hexText
    obtain ⟨src, hsrc, hsrcId⟩ := hsrcId.exists_hexText
    rw [encode_hexText hhex hdest hsrc hdestId hsrcId, Exec.ok_bind,
      List.take_of_length_le hpayload]
    exact (parse_eq_ok_iff_body hhex).mpr ⟨dest, src, hdest, hsrc, hdestId, hsrcId, rfl⟩

end HexDecode

/-- `CRC_16_IBM_3740` and the documented decoder. -/
def crcLibs : Libs where
  checksum bs := ⟨Crc.run 0x1021#16 0xFFFF#16 (Crc.bitsOf bs)⟩
  hexDecode s := readHex s.toList

/-- A distress call with a payload. -/
def distress (payload : Bytes) : InmarsatCMessage := ⟨1, "0a1b2c3d", "ffffffff", payload⟩

theorem encode_parse_distress :
    (encode crcLibs (distress [1, 2]) >>= parse crcLibs) = .ok (distress [1, 2]) :=
  (encode_parse_iff hexInverts_readHex (distress [1, 2])).mpr (by decide)

/-! ## Size -/

/-- The bytes a message takes on the wire. -/
def InmarsatCMessage.size (m : InmarsatCMessage) : Nat := 16 + m.payload.length

theorem parseInner_payload {libs : Libs} {data : Bytes} {m : InmarsatCMessage}
    (hdata : 14 ≤ data.length) (h : parseInner libs data = .ok m) : m.payload = data.drop 14 := by
  rw [parseInner] at h
  obtain ⟨number, -, h⟩ := Exec.bind_eq_ok.mp h
  obtain ⟨destId, -, h⟩ := Exec.bind_eq_ok.mp h
  obtain ⟨srcId, -, h⟩ := Exec.bind_eq_ok.mp h
  rw [innerPayload_eq hdata, Exec.ok_bind] at h
  cases h
  rfl

theorem size_le {libs : Libs} {data : Bytes} {m : InmarsatCMessage}
    (h : parse libs data = .ok m) : m.size ≤ data.length := by
  obtain ⟨bs, hlen, -, rfl, hinner⟩ := parse_eq_ok_iff.mp h
  rw [InmarsatCMessage.size, parseInner_payload hlen hinner, List.length_drop, length_checked]
  omega

end InmarsatC

end FloatProtocols
