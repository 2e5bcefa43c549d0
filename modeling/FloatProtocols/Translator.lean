/-
  `translator.rs`: from every protocol's frame to the cellular message.

  `translateSync` picks the decoder of the message's protocol, wraps its output in a fresh cellular
  message and puts the two bi-temporal clocks back.  The Iridium decoder works by index and range,
  the Samsara decoder is a chain of nom parsers, the other three re-encode what their own module
  parsed.  `translateData_ne_panic` collects the panic freedom of all nine:
  each window, range and index was checked, by the decoder itself or by the parser in front of it.
-/
import FloatProtocols.Protocol
import FloatProtocols.Codec.Hfvhf
import FloatProtocols.Codec.InmarsatC
import FloatProtocols.Codec.IridiumSbd
import FloatProtocols.Codec.Vsat

namespace FloatProtocols

open Wire Wire.Reader

namespace Translator

/-- `TranslateError`. -/
inductive TranslateError where
  | invalidProtocol
  | dataTooLarge
  | codecError
  | compressionError
  deriving DecidableEq, Repr

/-- The libraries behind the decoders. -/
structure Libs extends InmarsatC.Libs where
  /-- `zstd::encode_all(data, level)`. -/
  zstdEncode : Int32 → Bytes → Option Bytes
  /-- nom's `take(n)`: what was taken and what remains, `none` for its error.  `be_u8`, `be_u16`,
      `be_u32`, `be_u64` and `be_f64` take the bytes of their number. -/
  nomTake : Nat → Bytes → Option (Bytes × Bytes)

/-- What is documented of nom's `take`: it takes exactly `n` bytes, if there are as many. -/
def NomTakes (nomTake : Nat → Bytes → Option (Bytes × Bytes)) : Prop :=
  ∀ n bs, nomTake n bs = if n ≤ bs.length then some (bs.take n, bs.drop n) else none

/-! ## The decoders -/

/-- `decode_iridium_sbd`. -/
def decodeIridiumSbd (data : Bytes) : Exec TranslateError Bytes :=
  if data.length < 3 then .err .invalidProtocol
  else do
    let protocol ← Exec.index data 0
    let lengthBytes ← Exec.indices data [1, 2]
    if (ofU16Be lengthBytes).toNat > 340 then .err .invalidProtocol
    else if data.length < 3 + (ofU16Be lengthBytes).toNat then .err .invalidProtocol
    else do
      let payload ← Exec.slice data 3 (3 + (ofU16Be lengthBytes).toNat)
      .ok (protocol :: payload)

/-- `decode_inmarsat_c`. -/
def decodeInmarsatC (libs : InmarsatC.Libs) (data : Bytes) : Exec TranslateError Bytes := do
  let msg ← Exec.orErr (InmarsatC.parse libs data) .invalidProtocol
  InmarsatC.encode libs msg

/-- `compress_for_cellular`. -/
def compressForCellular (zstdEncode : Int32 → Bytes → Option Bytes) (data : Bytes) :
    Exec TranslateError Bytes := do
  match ← Vsat.parse data with
  | none => .err .invalidProtocol
  | some msg => Vsat.encode zstdEncode msg

/-- `codec_translate_to_digital`. -/
def codecTranslateToDigital (data : Bytes) : Exec TranslateError Bytes := do
  match ← Hfvhf.parse data with
  | none => .err .invalidProtocol
  | some msg => Hfvhf.codecTranslateToDigital msg

/-- `decode_rockblock`. -/
def decodeRockblock (data : Bytes) : Exec TranslateError Bytes := decodeIridiumSbd data

section

variable (nomTake : Nat → Bytes → Option (Bytes × Bytes))

/-- A nom parser of `decode_samsara`, with its error renamed. -/
def take (n : Nat) : Reader TranslateError Bytes := ⟨fun bs => Exec.okOr (nomTake n bs) .invalidProtocol⟩

/-- `decode_samsara`: version and id length, the id, the fixed fields, the payload. -/
def samsara : Reader TranslateError Bytes := do
  let version ← take nomTake 1
  let idLenBytes ← take nomTake 2
  if version ≠ [1] then fail .invalidProtocol
  else if (ofU16Be idLenBytes).toNat > 1024 then fail .invalidProtocol
  else do
    let deviceIdBytes ← take nomTake (ofU16Be idLenBytes).toNat
    let timestamp ← take nomTake 8
    let latitude ← take nomTake 8
    let longitude ← take nomTake 8
    let payloadLenBytes ← take nomTake 4
    let deviceId ← text deviceIdBytes .invalidProtocol
    -- the length check and `&remaining[..actual_payload_len]`
    let payload ← takeOr (ofU32Be payloadLenBytes).toNat .invalidProtocol
    return 0x07 :: (utf8 deviceId ++ timestamp ++ latitude ++ longitude ++ payload)

/-- `decode_samsara` on a whole frame; bytes behind the payload are ignored. -/
def decodeSamsara (data : Bytes) : Exec TranslateError Bytes := do
  let x ← (samsara nomTake).run data
  .ok x.1

end

/-! ## The translation -/

/-- The decoder of each protocol; three pass the bytes through. -/
def translateData (libs : Libs) : Protocol → Bytes → Exec TranslateError Bytes
  | .iridiumSBD, data => decodeIridiumSbd data
  | .inmarsatC, data => decodeInmarsatC libs.toLibs data
  | .vsat, data => compressForCellular libs.zstdEncode data
  | .hfvhf, data => codecTranslateToDigital data
  | .rockBLOCK, data => decodeRockblock data
  | .samsara, data => decodeSamsara libs.nomTake data
  | .nidd, data => .ok data
  | .astSpaceMobile, data => .ok data
  | .loRaMesh, data => .ok data

/-- `translate_sync`, with the clock reading of `Message::new`. -/
def translateSync (libs : Libs) (now : UInt64) (message : Message) :
    Exec TranslateError Message := do
  let data ← translateData libs message.protocol message.data
  .ok { Message.new .astSpaceMobile data message.priority now with
        tEvent := message.tEvent, tSystem := message.tSystem }

/-! ## The Iridium decoder in one line -/

open IridiumSbd (lengthOf)

theorem decodeIridiumSbd_outcome (data : Bytes) :
    decodeIridiumSbd data =
      if 3 ≤ data.length ∧ 3 + (lengthOf data).toNat ≤ data.length ∧ (lengthOf data).toNat ≤ 340 then
        .ok (data.headD 0 :: window data 3 (lengthOf data).toNat)
      else .err .invalidProtocol := by
  rw [decodeIridiumSbd]
  by_cases h3 : data.length < 3
  · rw [if_pos h3, if_neg (by omega)]
  have hlength : (Exec.indices data [1, 2] : Exec TranslateError Bytes) = .ok (window data 1 2) :=
    Exec.indices_range' (k := 2) (by omega)
  rw [if_neg h3, Exec.index_zero (by omega), Exec.ok_bind, hlength, Exec.ok_bind]
  show (if (lengthOf data).toNat > 340 then _ else _) = _
  by_cases hmax : (lengthOf data).toNat > 340
  · rw [if_pos hmax, if_neg (by omega)]
  rw [if_neg hmax]
  show (if data.length < 3 + (lengthOf data).toNat then _ else _) = _
  by_cases hlen : data.length < 3 + (lengthOf data).toNat
  · rw [if_pos hlen, if_neg (by omega)]
  rw [if_neg hlen, if_pos ⟨by omega, by omega, by omega⟩]
  show (Exec.slice data 3 (3 + (lengthOf data).toNat) >>= fun payload => _) = _
  rw [Exec.slice_window (by omega), Exec.ok_bind]

/-! ## No panic -/

theorem decodeIridiumSbd_ne_panic (data : Bytes) : decodeIridiumSbd data ≠ .panic := by
  rw [decodeIridiumSbd]
  split
  · simp
  · rw [Exec.index_eq_ok (by omega), Exec.ok_bind]
    refine Exec.indices_bind_ne_panic (by simp; omega) fun lengthBytes _ => ?_
    split
    · simp
    · split
      · simp
      · exact Exec.slice_bind_ne_panic (by omega) (by omega) fun _ _ => by simp

theorem decodeInmarsatC_ne_panic {libs : InmarsatC.Libs}
    (hhex : InmarsatC.HexInverts libs.hexDecode) (data : Bytes) :
    decodeInmarsatC libs data ≠ .panic := by
  rw [decodeInmarsatC]
  refine Exec.bind_ne_panic.mpr ⟨?_, fun msg hmsg => ?_⟩
  · exact Exec.orErr_ne_panic.mpr (InmarsatC.parse_ne_panic libs data)
  · exact InmarsatC.parse_encode_ne_panic hhex (Exec.orErr_eq_ok.mp hmsg)

theorem compressForCellular_ne_panic (zstdEncode : Int32 → Bytes → Option Bytes) (data : Bytes) :
    compressForCellular zstdEncode data ≠ .panic := by
  rw [compressForCellular]
  refine Exec.bind_ne_panic.mpr ⟨Vsat.parse_ne_panic data, fun msg _ => ?_⟩
  cases msg with
  | none => simp
  | some msg => exact Vsat.encode_ne_panic zstdEncode msg

theorem codecTranslateToDigital_ne_panic (data : Bytes) : codecTranslateToDigital data ≠ .panic := by
  rw [codecTranslateToDigital]
  refine Exec.bind_ne_panic.mpr ⟨Hfvhf.parse_ne_panic data, fun msg _ => ?_⟩
  cases msg with
  | none => simp
  | some msg => exact Hfvhf.encode_ne_panic msg

section

variable {nomTake : Nat → Bytes → Option (Bytes × Bytes)}

/-- A parser that reports is safe whatever remains. -/
theorem safe_take_bind {n : Nat} {k : Bytes → Reader TranslateError Bytes} {b : Bytes}
    (hk : ∀ w r, Safe (k w) r) : Safe (take nomTake n >>= k) b := by
  show (Exec.okOr (nomTake n b) .invalidProtocol >>= fun x => (k x.1).run x.2) ≠ .panic
  cases nomTake n b with
  | none => simp
  | some x => exact hk x.1 x.2

/-- As documented, a parser is a guarded read. -/
theorem take_eq_takeOr (hnom : NomTakes nomTake) (n : Nat) :
    take nomTake n = takeOr n .invalidProtocol := by
  refine congrArg Reader.mk (funext fun bs => ?_)
  rw [hnom n bs]
  refine Eq.trans ?_ (run_takeOr n TranslateError.invalidProtocol bs).symm
  split <;> rfl

end

theorem decodeSamsara_ne_panic (nomTake : Nat → Bytes → Option (Bytes × Bytes)) (data : Bytes) :
    decodeSamsara nomTake data ≠ .panic := by
  have hsafe : Safe (samsara nomTake) data := by
    refine safe_take_bind fun version r => ?_
    refine safe_take_bind fun idLenBytes r => ?_
    split
    · exact safe_fail _ _
    · split
      · exact safe_fail _ _
      · refine safe_take_bind fun deviceIdBytes r => ?_
        refine safe_take_bind fun timestamp r => ?_
        refine safe_take_bind fun latitude r => ?_
        refine safe_take_bind fun longitude r => ?_
        refine safe_take_bind fun payloadLenBytes r => ?_
        refine safe_text_bind fun deviceId => ?_
        exact safe_takeOr_bind fun payload r => safe_pure _ _
  rw [decodeSamsara]
  exact Exec.bind_ne_panic.mpr ⟨hsafe, fun _ _ => by simp⟩

theorem translateData_ne_panic {libs : Libs} (hhex : InmarsatC.HexInverts libs.hexDecode)
    (p : Protocol) (data : Bytes) : translateData libs p data ≠ .panic := by
  cases p with
  | iridiumSBD => exact decodeIridiumSbd_ne_panic data
  | inmarsatC => exact decodeInmarsatC_ne_panic hhex data
  | vsat => exact compressForCellular_ne_panic _ data
  | hfvhf => exact codecTranslateToDigital_ne_panic data
  | rockBLOCK => exact decodeIridiumSbd_ne_panic data
  | samsara => exact decodeSamsara_ne_panic _ data
  | nidd => simp [translateData]
  | astSpaceMobile => simp [translateData]
  | loRaMesh => simp [translateData]

/-- **`translate_sync` returns on every message**, `Ok` or `Err`. -/
theorem translateSync_ne_panic {libs : Libs} (hhex : InmarsatC.HexInverts libs.hexDecode)
    (now : UInt64) (message : Message) : translateSync libs now message ≠ .panic := by
  rw [translateSync]
  exact Exec.bind_ne_panic.mpr ⟨translateData_ne_panic hhex _ _, fun _ _ => by simp⟩

/-- The libraries of a frame, nom as documented, and no compressor. -/
def frameLibs : Libs where
  toLibs := InmarsatC.crcLibs
  zstdEncode _ _ := none
  nomTake n bs := if n ≤ bs.length then some (bs.take n, bs.drop n) else none

/-- A sixteen-byte Inmarsat C frame with no payload is translated. -/
theorem translateSync_ne_panic_inmarsat :
    translateSync frameLibs 0 (.newWithTemporal .inmarsatC
      (u32Be InmarsatC.magicNumber ++ List.replicate 10 0 ++ u16Be 0xDC3E) .operational 1 2)
        ≠ .panic :=
  @translateSync_ne_panic frameLibs InmarsatC.hexInverts_readHex 0 _

end Translator

end FloatProtocols
