/-
  `nidd.rs`: the NIDD packet, nine header bytes and a payload in a fixed array.

  Nothing comes behind the payload, so an accepted packet takes exactly `totalSize` bytes of the
  input (`totalSize_le`).

  The repository has no writer for this format; what a packet is is stated by its layout
  (`NIDDHeader.bytes`), and `parse` accepts exactly the packets, whatever follows them
  (`nidd_accepts_iff`).
-/
import FloatProtocols.Lib.Exec

namespace FloatProtocols

open Wire

namespace Nidd

/-- `NIDDHeader`. -/
structure NIDDHeader where
  pduType : UInt8
  qosPriority : UInt8
  reliability : UInt8
  delayClass : UInt8
  coverageEnhancement : UInt8
  length : UInt16
  sequenceNumber : UInt16
  deriving DecidableEq

/-- `NIDDMessage`. -/
structure NIDDMessage where
  header : NIDDHeader
  payload : Arr 1600
  payloadLen : UInt16
  deriving DecidableEq

/-- `total_size`. -/
def NIDDMessage.totalSize (m : NIDDMessage) : Nat := 9 + m.payloadLen.toNat

/-- The header, of a packet of nine bytes and more. -/
def parseHeader {ε : Type} (data : Bytes) : Exec ε NIDDHeader := do
  let pduType ← Exec.index data 0
  let qosPriority ← Exec.index data 1
  let reliability ← Exec.index data 2
  let delayClass ← Exec.index data 3
  let coverageEnhancement ← Exec.index data 4
  let length ← Exec.indices data [5, 6]
  let sequenceNumber ← Exec.indices data [7, 8]
  .ok { pduType, qosPriority, reliability, delayClass, coverageEnhancement,
        length := ofU16Be length, sequenceNumber := ofU16Be sequenceNumber }

/-- `parse`. -/
def parse {ε : Type} (data : Bytes) : Exec ε (Option NIDDMessage) :=
  if data.length < 9 then .ok none
  else do
    let header ← parseHeader data
    if data.length < 9 + header.length.toNat then .ok none
    else if header.length > 1600 then .ok none
    else do
      let src ← Exec.slice data 9 (9 + header.length.toNat)
      let payload ← Exec.fill 1600 header.length.toNat src
      .ok (some { header, payload, payloadLen := header.length })

theorem totalSize_le {ε : Type} {data : Bytes} {m : NIDDMessage}
    (h : (parse data : Exec ε _) = .ok (some m)) : m.totalSize ≤ data.length := by
  rw [parse] at h
  split at h
  · cases h
  · obtain ⟨header, -, h⟩ := Exec.bind_eq_ok.mp h
    split at h
    · cases h
    · rename_i hlen
      split at h
      · cases h
      · obtain ⟨src, -, h⟩ := Exec.bind_eq_ok.mp h
        obtain ⟨payload, -, h⟩ := Exec.bind_eq_ok.mp h
        cases h
        exact Nat.not_lt.mp hlen

/-! ## What is accepted -/

/-- `payload_slice`. -/
def NIDDMessage.payloadSlice {ε : Type} (m : NIDDMessage) : Exec ε Bytes :=
  Exec.slice m.payload.val 0 m.payloadLen.toNat

/-- The layout of the header. -/
def NIDDHeader.bytes (h : NIDDHeader) : Bytes :=
  [h.pduType, h.qosPriority, h.reliability, h.delayClass, h.coverageEnhancement] ++ u16Be h.length ++
    u16Be h.sequenceNumber

theorem length_bytes (h : NIDDHeader) : h.bytes.length = 9 := by
  simp [NIDDHeader.bytes]

/-- The header byte by byte. -/
theorem bytes_eq_cons (h : NIDDHeader) : ∃ l l' s s', u16Be h.length = [l, l'] ∧
    u16Be h.sequenceNumber = [s, s'] ∧
    h.bytes = [h.pduType, h.qosPriority, h.reliability, h.delayClass, h.coverageEnhancement, l, l', s, s'] := by
  obtain ⟨l, l', hlength⟩ := List.length_eq_two.mp (length_u16Be h.length)
  obtain ⟨s, s', hseq⟩ := List.length_eq_two.mp (length_u16Be h.sequenceNumber)
  refine ⟨l, l', s, s', hlength, hseq, ?_⟩
  rw [NIDDHeader.bytes, hlength, hseq]
  rfl

/-- Nine bytes are a header. -/
theorem exists_header {data : Bytes} (hlen : 9 ≤ data.length) :
    ∃ (h : NIDDHeader) (body : Bytes), data = h.bytes ++ body := by
  rcases data with _ | ⟨a, _ | ⟨b, _ | ⟨c, _ | ⟨d, _ | ⟨e, _ | ⟨l, _ | ⟨l', _ | ⟨s, _ | ⟨s', body⟩⟩⟩⟩⟩⟩⟩⟩⟩
  iterate 9 · exact absurd hlen (by simp)
  refine ⟨⟨a, b, c, d, e, ofU16Be [l, l'], ofU16Be [s, s']⟩, body, ?_⟩
  rw [NIDDHeader.bytes, u16Be_ofU16Be rfl, u16Be_ofU16Be rfl]
  rfl

theorem parseHeader_bytes {ε : Type} (h : NIDDHeader) (body : Bytes) :
    (parseHeader (h.bytes ++ body) : Exec ε _) = .ok h := by
  obtain ⟨l, l', s, s', hlength, hseq, hbytes⟩ := bytes_eq_cons h
  have hread : (parseHeader (h.bytes ++ body) : Exec ε _) =
      .ok { h with length := ofU16Be [l, l'], sequenceNumber := ofU16Be [s, s'] } := by
    rw [hbytes]
    rfl
  rw [hread, ← hlength, ← hseq, ofU16Be_u16Be, ofU16Be_u16Be]

/-- The message of a header and its payload: the rest of the array is zero. -/
def message (h : NIDDHeader) (payload : Bytes) : NIDDMessage :=
  { header := h, payload := Exec.pad 1600 payload, payloadLen := h.length }

/-- The two length checks, and what comes behind them. -/
theorem parse_bytes {ε : Type} (h : NIDDHeader) (body : Bytes) :
    (parse (h.bytes ++ body) : Exec ε _) =
      .ok (if h.length.toNat ≤ body.length ∧ h.length.toNat ≤ 1600 then
        some (message h (body.take h.length.toNat)) else none) := by
  have hdata : (h.bytes ++ body).length = 9 + body.length := by
    rw [List.length_append, length_bytes]
  have hmax : h.length > 1600 ↔ ¬ h.length.toNat ≤ 1600 := by
    rw [gt_iff_lt, UInt16.lt_iff_toNat_lt, Nat.not_le]
    rfl
  rw [parse, if_neg (by omega), parseHeader_bytes, Exec.ok_bind, hdata]
  by_cases hbody : h.length.toNat ≤ body.length
  · rw [if_neg (by omega)]
    by_cases hfits : h.length.toNat ≤ 1600
    · have hsrc : ((h.bytes ++ body).drop 9).take h.length.toNat = body.take h.length.toNat := by
        rw [List.drop_left' (length_bytes h)]
      rw [if_neg (fun hgt => hmax.mp hgt hfits), Exec.slice_eq_ok (by omega) (by omega), Nat.add_sub_cancel_left,
        hsrc, Exec.ok_bind, Exec.fill, if_pos ⟨hfits, List.length_take_of_le hbody⟩, if_pos ⟨hbody, hfits⟩]
      rfl
    · rw [if_pos (hmax.mpr hfits), if_neg (fun hand => hfits hand.2)]
  · rw [if_pos (by omega), if_neg (fun hand => hbody hand.1)]

theorem payloadSlice_message {ε : Type} {h : NIDDHeader} {payload : Bytes}
    (hlen : payload.length = h.length.toNat) (hfits : payload.length ≤ 1600) :
    ((message h payload).payloadSlice : Exec ε _) = .ok payload := by
  rw [NIDDMessage.payloadSlice, (Exec.slice_arr _ (hlen ▸ hfits)).1]
  show Exec.ok (((payload ++ List.replicate 1600 0).take 1600).take h.length.toNat) = _
  rw [List.take_take, ← hlen, Nat.min_eq_left hfits, List.take_left]

/-- **What `parse` accepts.**  It never panics; it accepts a byte string exactly when that begins with a
    header and as many bytes behind it as the header says, at most 1600, and the message then has that
    header and that payload, whatever follows. -/
theorem nidd_accepts_iff {ε : Type} (data : Bytes) :
    (∃ r, (parse data : Exec ε _) = .ok r) ∧
    ∀ m, (parse data : Exec ε _) = .ok (some m) ↔
      ∃ payload rest, data = m.header.bytes ++ payload ++ rest ∧
        payload.length = m.header.length.toNat ∧ payload.length ≤ 1600 ∧ m = message m.header payload ∧
        (m.payloadSlice : Exec ε _) = .ok payload := by
  constructor
  · rcases Nat.lt_or_ge data.length 9 with hshort | hlen
    · exact ⟨none, if_pos hshort⟩
    · obtain ⟨h, body, rfl⟩ := exists_header hlen
      exact ⟨_, parse_bytes h body⟩
  · intro m
    constructor
    · intro hok
      have hlen : 9 ≤ data.length := (Nat.le_add_right 9 _).trans (totalSize_le hok)
      obtain ⟨h, body, rfl⟩ := exists_header hlen
      rw [parse_bytes] at hok
      split at hok
      · rename_i hchecks
        obtain rfl := Option.some.inj (Exec.ok.inj hok)
        have htake := List.length_take_of_le hchecks.1
        refine ⟨body.take h.length.toNat, body.drop h.length.toNat, ?_, htake, by omega, rfl,
          payloadSlice_message htake (by omega)⟩
        show h.bytes ++ body = h.bytes ++ _ ++ _
        rw [List.append_assoc, List.take_append_drop]
      · cases hok
    · rintro ⟨payload, rest, rfl, hlen, hfits, hm, -⟩
      rw [List.append_assoc, parse_bytes, ← hlen, List.take_left, if_pos, ← hm]
      exact ⟨by simp, hfits⟩

end Nidd

end FloatProtocols
