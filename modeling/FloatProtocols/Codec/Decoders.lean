/-
  The gateway's decoders against the parsers of the formats they decode.

  1. **Samsara** — `decode_samsara` reads the format of `SamsaraMessage::parse` a second time, with
     nom combinators and a limit of its own on the id: it accepts what `parse` accepts, with an id of
     at most 1024 bytes (`decodeSamsara_eq_ok`).  It writes the fields WITHOUT the two lengths.  Given
     the id's length the translation determines the message; without it, every message that has an
     id shares its translation with another one (`exists_same_cellular`).

  2. **Inmarsat C** — `decode_inmarsat_c` parses and encodes again.  The parser takes a payload of any
     length, the encoder writes 114 bytes of it under a fresh checksum.
-/
import FloatProtocols.Codec.Samsara
import FloatProtocols.Translator

namespace FloatProtocols

namespace Translator

open Wire Reader Samsara

/-- The bytes `decode_samsara` makes of a message. -/
def cellular (m : SamsaraMessage) : Bytes :=
  0x07 :: (utf8 m.deviceId ++ u64Be m.timestamp ++ u64Be m.latitude ++ u64Be m.longitude
    ++ m.payload)

/-! ## The combinators read the format of `encode` -/

section

variable {nomTake : Nat → Bytes → Option (Bytes × Bytes)} (hnom : NomTakes nomTake)
include hnom

theorem samsara_encode {m : SamsaraMessage} (hfits : m.Fits) (hid : (utf8 m.deviceId).length ≤ 1024)
    (rest : Bytes) : (samsara nomTake).run (encode m ++ rest) = .ok (cellular m, rest) := by
  obtain ⟨hidlt, hpaylt⟩ := hfits
  simp only [encode, List.append_assoc]
  simp only [samsara, take_eq_takeOr hnom]
  refine takeOr_bind_eq_ok.mpr ⟨_, _, rfl, rfl, ?_⟩
  refine takeOr_bind_eq_ok.mpr ⟨_, _, length_u16Be _, rfl, ?_⟩
  rw [if_neg (by simp), toNat_ofU16Be_ofNat hidlt, if_neg (by omega)]
  refine takeOr_bind_eq_ok.mpr ⟨_, _, rfl, rfl, ?_⟩
  refine takeOr_bind_eq_ok.mpr ⟨_, _, length_u64Be _, rfl, ?_⟩
  refine takeOr_bind_eq_ok.mpr ⟨_, _, length_u64Be _, rfl, ?_⟩
  refine takeOr_bind_eq_ok.mpr ⟨_, _, length_u64Be _, rfl, ?_⟩
  refine takeOr_bind_eq_ok.mpr ⟨_, _, length_u32Be _, rfl, ?_⟩
  refine Reader.bind_eq_ok.mpr ⟨_, _, text_eq_ok.mpr ⟨rfl, rfl⟩, ?_⟩
  rw [toNat_ofU32Be_ofNat hpaylt]
  exact takeOr_bind_eq_ok.mpr ⟨_, _, rfl, rfl, rfl⟩

theorem samsara_long {m : SamsaraMessage} (hidlt : (utf8 m.deviceId).length < 65536)
    (hid : 1024 < (utf8 m.deviceId).length) :
    (samsara nomTake).run (encode m) = .err .invalidProtocol := by
  simp only [encode, List.append_assoc]
  simp only [samsara, take_eq_takeOr hnom]
  rw [run_bind, run_takeOr_append List.length_singleton, Exec.ok_bind, run_bind,
    run_takeOr_append (length_u16Be _), Exec.ok_bind, if_neg (by simp), toNat_ofU16Be_ofNat hidlt,
    if_pos hid]
  rfl

theorem encode_of_samsara {data c rest : Bytes} (h : (samsara nomTake).run data = .ok (c, rest)) :
    ∃ m : SamsaraMessage, m.Fits ∧ (utf8 m.deviceId).length ≤ 1024 ∧ data = encode m ++ rest
      ∧ c = cellular m := by
  simp only [samsara, take_eq_takeOr hnom] at h
  -- the pieces the parsers cut off, one behind the other
  rw [takeOr_bind_eq_ok] at h
  obtain ⟨version, _, -, rfl, h⟩ := h
  rw [takeOr_bind_eq_ok] at h
  obtain ⟨idLenBytes, _, hidLen, rfl, h⟩ := h
  split at h
  · cases h
  rename_i hone
  split at h
  · cases h
  rename_i hmax
  rw [takeOr_bind_eq_ok] at h
  obtain ⟨idBytes, _, hidBytes, rfl, h⟩ := h
  rw [takeOr_bind_eq_ok] at h
  obtain ⟨timestamp, _, htime, rfl, h⟩ := h
  rw [takeOr_bind_eq_ok] at h
  obtain ⟨latitude, _, hlat, rfl, h⟩ := h
  rw [takeOr_bind_eq_ok] at h
  obtain ⟨longitude, _, hlon, rfl, h⟩ := h
  rw [takeOr_bind_eq_ok] at h
  obtain ⟨payloadLenBytes, _, hpayLen, rfl, h⟩ := h
  rw [Reader.bind_eq_ok] at h
  obtain ⟨deviceId, _, htext, h⟩ := h
  obtain ⟨rfl, rfl⟩ := text_eq_ok.mp htext
  rw [takeOr_bind_eq_ok] at h
  obtain ⟨payload, _, hpay, rfl, h⟩ := h
  obtain ⟨rfl, rfl⟩ := Reader.pure_eq_ok.mp h
  refine ⟨⟨deviceId, ofU64Be timestamp, ofU64Be latitude, ofU64Be longitude, payload⟩,
    ⟨?_, ?_⟩, ?_, ?_, ?_⟩
  · show (utf8 deviceId).length < 65536
    rw [hidBytes]
    exact UInt16.toNat_lt _
  · show payload.length < 2 ^ 32
    rw [hpay]
    exact UInt32.toNat_lt _
  · show (utf8 deviceId).length ≤ 1024
    omega
  · simp only [encode, List.append_assoc]
    rw [hidBytes, hpay, UInt16.ofNat_toNat, UInt32.ofNat_toNat, u16Be_ofU16Be hidLen,
      u32Be_ofU32Be hpayLen, u64Be_ofU64Be htime, u64Be_ofU64Be hlat, u64Be_ofU64Be hlon,
      not_not.mp hone]
  · rw [cellular, u64Be_ofU64Be htime, u64Be_ofU64Be hlat, u64Be_ofU64Be hlon]

/-- What `decode_samsara` accepts, and what it returns. -/
theorem decodeSamsara_eq_ok {data c : Bytes} :
    decodeSamsara nomTake data = .ok c ↔
      ∃ (m : SamsaraMessage) (rest : Bytes), m.Fits ∧ (utf8 m.deviceId).length ≤ 1024
        ∧ data = encode m ++ rest ∧ c = cellular m := by
  rw [decodeSamsara, Exec.bind_eq_ok]
  constructor
  · rintro ⟨⟨c', rest⟩, hrun, hc⟩
    obtain ⟨m, hm⟩ := encode_of_samsara hnom hrun
    cases hc
    exact ⟨m, rest, hm⟩
  · rintro ⟨m, rest, hfits, hid, rfl, rfl⟩
    exact ⟨_, samsara_encode hnom hfits hid rest, rfl⟩

/-! ## Two parsers of one format -/

/-- The gateway's decoder is the message parser with a limit on the id. -/
theorem decodeSamsara_iff_parse (data c : Bytes) :
    decodeSamsara nomTake data = .ok c ↔
      ∃ m, (Samsara.parse data : Exec Empty (Option SamsaraMessage)) = .ok (some m)
        ∧ (utf8 m.deviceId).length ≤ 1024
        ∧ c = [0x07] ++ utf8 m.deviceId ++ u64Be m.timestamp ++ u64Be m.latitude
            ++ u64Be m.longitude ++ m.payload := by
  rw [decodeSamsara_eq_ok hnom]
  constructor
  · rintro ⟨m, rest, hfits, hid, hdata, hc⟩
    exact ⟨m, parse_eq_some_iff.mpr ⟨hfits, rest, hdata⟩, hid, hc⟩
  · rintro ⟨m, hparse, hid, hc⟩
    obtain ⟨hfits, rest, hdata⟩ := parse_eq_some_iff.mp hparse
    exact ⟨m, rest, hfits, hid, hdata, hc⟩

end

theorem nomTakes_frameLibs : NomTakes frameLibs.nomTake := fun _ _ => rfl

/-- Every byte of the fixed fields is an `A`. -/
def allA (deviceId : String) (payload : Bytes) : SamsaraMessage where
  deviceId := deviceId
  timestamp := 0x4141414141414141
  latitude := 0x4141414141414141
  longitude := 0x4141414141414141
  payload := payload

theorem decodeSamsara_iff_parse_allA :
    ∃ m, (Samsara.parse (encode (allA "A" [])) : Exec Empty (Option SamsaraMessage)) = .ok (some m)
      ∧ (utf8 m.deviceId).length ≤ 1024
      ∧ cellular (allA "A" []) = [0x07] ++ utf8 m.deviceId ++ u64Be m.timestamp ++ u64Be m.latitude
          ++ u64Be m.longitude ++ m.payload :=
  (decodeSamsara_iff_parse nomTakes_frameLibs (encode (allA "A" [])) (cellular (allA "A" []))).mp
    (by decide)

/-- A message whose id is one byte over the gateway's limit. -/
def longId : SamsaraMessage where
  deviceId := String.ofList (List.replicate 1025 'A')
  timestamp := 0
  latitude := 0
  longitude := 0
  payload := []

theorem longId_refused :
    (Samsara.parse (encode longId) : Exec Empty (Option SamsaraMessage)) = .ok (some longId)
      ∧ decodeSamsara frameLibs.nomTake (encode longId) = .err .invalidProtocol := by
  have hlen : (utf8 longId.deviceId).length = 1025 := by decide +kernel
  have hfits : longId.Fits := ⟨by omega, by decide⟩
  refine ⟨parse_eq_some_iff.mpr ⟨hfits, [], (List.append_nil _).symm⟩, ?_⟩
  rw [decodeSamsara, samsara_long nomTakes_frameLibs hfits.1 (by omega), Exec.err_bind]

/-! ## The translation does not say where the id ends -/

theorem cellular_inj {m₁ m₂ : SamsaraMessage}
    (hlen : (utf8 m₁.deviceId).length = (utf8 m₂.deviceId).length)
    (h : cellular m₁ = cellular m₂) : m₁ = m₂ := by
  obtain ⟨id₁, t₁, lat₁, lon₁, pay₁⟩ := m₁
  obtain ⟨id₂, t₂, lat₂, lon₂, pay₂⟩ := m₂
  have h := List.tail_eq_of_cons_eq h
  simp only [List.append_assoc] at h
  obtain ⟨hid, h⟩ := List.append_inj h hlen
  obtain ⟨ht, h⟩ := List.append_inj h (by rw [length_u64Be, length_u64Be])
  obtain ⟨hlat, h⟩ := List.append_inj h (by rw [length_u64Be, length_u64Be])
  obtain ⟨hlon, rfl⟩ := List.append_inj h (by rw [length_u64Be, length_u64Be])
  rw [utf8_inj hid, u64Be_inj ht, u64Be_inj hlat, u64Be_inj hlon]

/-- Two inputs with one translation hold the same message exactly when they announce ids of one
    length. -/
theorem same_translation_iff {nomTake : Nat → Bytes → Option (Bytes × Bytes)}
    (hnom : NomTakes nomTake) {d₁ d₂ c : Bytes} (h₁ : decodeSamsara nomTake d₁ = .ok c)
    (h₂ : decodeSamsara nomTake d₂ = .ok c) :
    ∃ m₁ m₂, (Samsara.parse d₁ : Exec Empty (Option SamsaraMessage)) = .ok (some m₁)
      ∧ (Samsara.parse d₂ : Exec Empty (Option SamsaraMessage)) = .ok (some m₂)
      ∧ (m₁ = m₂ ↔ idLenOf d₁ = idLenOf d₂) := by
  obtain ⟨m₁, rest₁, hfits₁, -, rfl, rfl⟩ := (decodeSamsara_eq_ok hnom).mp h₁
  obtain ⟨m₂, rest₂, hfits₂, -, rfl, hc⟩ := (decodeSamsara_eq_ok hnom).mp h₂
  refine ⟨m₁, m₂, parse_encode_append hfits₁ rest₁, parse_encode_append hfits₂ rest₂, ?_⟩
  rw [idLenOf_encode hfits₁.1, idLenOf_encode hfits₂.1]
  constructor
  · intro h
    rw [h]
  · intro h
    exact cellular_inj h hc

theorem same_translation_iff_trailing :
    ∃ m₁ m₂, (Samsara.parse (encode (allA "A" [])) : Exec Empty (Option SamsaraMessage))
        = .ok (some m₁)
      ∧ (Samsara.parse (encode (allA "A" []) ++ [9]) : Exec Empty (Option SamsaraMessage))
        = .ok (some m₂)
      ∧ (m₁ = m₂ ↔ idLenOf (encode (allA "A" [])) = idLenOf (encode (allA "A" []) ++ [9])) :=
  @same_translation_iff _ nomTakes_frameLibs (encode (allA "A" [])) (encode (allA "A" []) ++ [9])
    (cellular (allA "A" [])) (by decide) (by decide)

/-- One byte of the id turns up in front of the timestamp. -/
theorem allA_collide :
    decodeSamsara frameLibs.nomTake (encode (allA "A" [0x41, 0x41]))
        = decodeSamsara frameLibs.nomTake (encode (allA "AA" [0x41]))
      ∧ (decodeSamsara frameLibs.nomTake (encode (allA "A" [0x41, 0x41]))).isOk = true
      ∧ (Samsara.parse (encode (allA "A" [0x41, 0x41])) : Exec Empty (Option SamsaraMessage))
          = .ok (some (allA "A" [0x41, 0x41]))
      ∧ (Samsara.parse (encode (allA "AA" [0x41])) : Exec Empty (Option SamsaraMessage))
          = .ok (some (allA "AA" [0x41]))
      ∧ allA "A" [0x41, 0x41] ≠ allA "AA" [0x41] := by
  decide

/-- Whatever the message, if it has an id: the gateway sends the same bytes for another one, whose
    id is empty and whose fields start where the id did. -/
theorem exists_same_cellular {nomTake : Nat → Bytes → Option (Bytes × Bytes)}
    (hnom : NomTakes nomTake) {m : SamsaraMessage} (hid : m.deviceId ≠ "")
    (hlen : (utf8 m.deviceId).length + m.payload.length < 2 ^ 32) :
    ∃ m', m' ≠ m ∧ decodeSamsara nomTake (encode m') = .ok (cellular m) := by
  generalize hw : utf8 m.deviceId ++ u64Be m.timestamp ++ u64Be m.latitude ++ u64Be m.longitude
    ++ m.payload = w
  have hwlen : w.length = (utf8 m.deviceId).length + 24 + m.payload.length := by
    rw [← hw]
    simp
    omega
  refine ⟨⟨"", ofU64Be (window w 0 8), ofU64Be (window w 8 8), ofU64Be (window w 16 8), w.drop 24⟩,
    ?_, (decodeSamsara_eq_ok hnom).mpr ⟨_, [], ⟨?_, ?_⟩, ?_, (List.append_nil _).symm, ?_⟩⟩
  · intro h
    exact hid (congrArg SamsaraMessage.deviceId h).symm
  · show 0 < 65536
    omega
  · show (w.drop 24).length < 2 ^ 32
    rw [List.length_drop]
    omega
  · show 0 ≤ 1024
    omega
  · show 0x07 :: _ = 0x07 :: ([] ++ _ ++ _ ++ _ ++ _)
    rw [hw, u64Be_ofU64Be (length_window (by omega)), u64Be_ofU64Be (length_window (by omega)),
      u64Be_ofU64Be (length_window (by omega))]
    simp only [List.nil_append, List.append_assoc]
    rw [window_append_drop w rfl, window_append_drop w rfl, window_append_drop w rfl, List.drop_zero]

/-! ## Inmarsat C -/

/-- An accepted frame is passed on unchanged exactly up to 130 bytes: 114 of payload. -/
theorem decodeInmarsatC_eq_self_iff {libs : InmarsatC.Libs}
    (hhex : InmarsatC.HexInverts libs.hexDecode) {data : Bytes} {m : InmarsatC.InmarsatCMessage}
    (h : InmarsatC.parse libs data = .ok m) :
    decodeInmarsatC libs data = .ok data ↔ data.length ≤ 130 := by
  obtain ⟨dest, src, hdest, hsrc, hdestId, hsrcId, hdata⟩ := (InmarsatC.parse_eq_ok_iff_body hhex).mp h
  have hlen : data.length = 16 + m.payload.length := by
    rw [hdata, InmarsatC.length_checked, InmarsatC.length_body hdest hsrc]
    omega
  have hdecode : decodeInmarsatC libs data
      = .ok (InmarsatC.checked libs (InmarsatC.body m.messageNumber dest src (m.payload.take 114))) := by
    rw [decodeInmarsatC, Exec.orErr_eq_ok.mpr h, Exec.ok_bind,
      InmarsatC.encode_hexText hhex hdest hsrc hdestId hsrcId]
  rw [hdecode, Exec.ok.injEq, hlen]
  constructor
  · intro hself
    obtain ⟨-, -, -, hpayload⟩ := InmarsatC.body_inj rfl rfl (InmarsatC.checked_inj (hself.trans hdata))
    have hcut := congrArg List.length hpayload
    rw [List.length_take] at hcut
    omega
  · intro hle
    rw [List.take_of_length_le (by omega), hdata]

/-- The frame of a distress call, on the wire. -/
def distressFrame (payload : Bytes) : Bytes :=
  InmarsatC.checked InmarsatC.crcLibs
    (InmarsatC.body 1 [0x0A, 0x1B, 0x2C, 0x3D] [0xFF, 0xFF, 0xFF, 0xFF] payload)

theorem distress_ids (payload : Bytes) :
    (InmarsatC.distress payload).destinationId = InmarsatC.hexText [0x0A, 0x1B, 0x2C, 0x3D] ∧
    (InmarsatC.distress payload).sourceId = InmarsatC.hexText [0xFF, 0xFF, 0xFF, 0xFF] := by
  show "0a1b2c3d" = _ ∧ "ffffffff" = _
  decide

theorem parse_distressFrame (payload : Bytes) :
    InmarsatC.parse InmarsatC.crcLibs (distressFrame payload) = .ok (InmarsatC.distress payload) :=
  (InmarsatC.parse_eq_ok_iff_body InmarsatC.hexInverts_readHex).mpr
    ⟨_, _, rfl, rfl, (distress_ids payload).1, (distress_ids payload).2, rfl⟩

theorem decodeInmarsatC_eq_self_distress :
    decodeInmarsatC InmarsatC.crcLibs (distressFrame [1, 2]) = .ok (distressFrame [1, 2]) :=
  (@decodeInmarsatC_eq_self_iff InmarsatC.crcLibs InmarsatC.hexInverts_readHex
    (distressFrame [1, 2]) (InmarsatC.distress [1, 2]) (parse_distressFrame [1, 2])).mpr
      (by decide +kernel)

/-- One byte of payload too many: accepted, cut, and checked again. -/
theorem long_distress_cut :
    InmarsatC.parse InmarsatC.crcLibs (distressFrame (List.replicate 115 7))
        = .ok (InmarsatC.distress (List.replicate 115 7))
      ∧ decodeInmarsatC InmarsatC.crcLibs (distressFrame (List.replicate 115 7))
        = .ok (distressFrame (List.replicate 114 7)) := by
  have hparse := parse_distressFrame (List.replicate 115 7)
  obtain ⟨hdest, hsrc⟩ := distress_ids (List.replicate 115 7)
  refine ⟨hparse, ?_⟩
  rw [decodeInmarsatC, Exec.orErr_eq_ok.mpr hparse, Exec.ok_bind,
    InmarsatC.encode_hexText InmarsatC.hexInverts_readHex rfl rfl hdest hsrc]
  rfl

end Translator

end FloatProtocols
