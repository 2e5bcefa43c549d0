/-
  `vsat.rs`: the VSAT packet — id, two IPv4 addresses, payload — and its compressed form.

  `parse` wants sixteen bytes, `encode` allots twelve and the payload, copies the four parts and
  compresses; a failing compressor leaves the packet as it is.  zstd is an argument.

  `packet` is the uncompressed form.  `parse` reads it back (`parse_eq_some_iff`) from sixteen bytes
  on, so a packet whose payload is shorter than four bytes is written and never read.
-/
import FloatProtocols.Lib.Exec

namespace FloatProtocols

open Wire

namespace Vsat

/-- `VSATMessage`. -/
structure VSATMessage where
  packetId : UInt32
  sourceIp : Arr 4
  destIp : Arr 4
  payload : Bytes
  deriving DecidableEq

/-- `[data[i], .., data[i + 3]]`. -/
def ipAt {ε : Type} (data : Bytes) (i : Nat) : Exec ε (Arr 4) :=
  match h : (Exec.indices data [i, i + 1, i + 2, i + 3] : Exec ε Bytes) with
  | .ok bs => .ok ⟨bs, Exec.length_indices h⟩
  | .err e => .err e
  | .panic => .panic

/-- `parse`. -/
def parse {ε : Type} (data : Bytes) : Exec ε (Option VSATMessage) :=
  if data.length < 16 then .ok none
  else do
    let packetId ← Exec.indices data [0, 1, 2, 3]
    let sourceIp ← ipAt data 4
    let destIp ← ipAt data 8
    let payload ← Exec.slice data 12 data.length
    .ok (some { packetId := ofU32Be packetId, sourceIp, destIp, payload })

/-- `encode`, with `zstd::encode_all`. -/
def encode {ε : Type} (zstdEncode : Int32 → Bytes → Option Bytes) (m : VSATMessage) :
    Exec ε Bytes := do
  let buffer := List.replicate (12 + m.payload.length) 0
  let buffer ← Exec.copyInto buffer 0 4 (u32Be m.packetId)
  let buffer ← Exec.copyInto buffer 4 8 m.sourceIp.val
  let buffer ← Exec.copyInto buffer 8 12 m.destIp.val
  let buffer ← Exec.copyInto buffer 12 buffer.length m.payload
  .ok ((zstdEncode 3 buffer).getD buffer)

/-- `decompress`, with `zstd::decode_all`. -/
def decompress (zstdDecode : Bytes → Option Bytes) (compressedData : Bytes) : Option Bytes :=
  zstdDecode compressedData

/-! ## The packet -/

/-- What `encode` hands to the compressor. -/
def packet (m : VSATMessage) : Bytes :=
  u32Be m.packetId ++ (m.sourceIp.val ++ (m.destIp.val ++ m.payload))

theorem length_packet (m : VSATMessage) : (packet m).length = 12 + m.payload.length := by
  simp [packet, m.sourceIp.property, m.destIp.property]
  omega

theorem packet_inj {m₁ m₂ : VSATMessage} (h : packet m₁ = packet m₂) : m₁ = m₂ := by
  obtain ⟨id₁, ⟨src₁, hsrc₁⟩, ⟨dst₁, hdst₁⟩, pay₁⟩ := m₁
  obtain ⟨id₂, ⟨src₂, hsrc₂⟩, ⟨dst₂, hdst₂⟩, pay₂⟩ := m₂
  simp only [packet] at h
  obtain ⟨hid, h⟩ := List.append_inj h (by rw [length_u32Be, length_u32Be])
  obtain ⟨hsrc, h⟩ := List.append_inj h (hsrc₁.trans hsrc₂.symm)
  obtain ⟨hdst, hpay⟩ := List.append_inj h (hdst₁.trans hdst₂.symm)
  subst hsrc hdst hpay
  rw [u32Be_inj hid]

theorem encode_eq {ε : Type} (zstdEncode : Int32 → Bytes → Option Bytes) (m : VSATMessage) :
    (encode zstdEncode m : Exec ε Bytes) = .ok ((zstdEncode 3 (packet m)).getD (packet m)) := by
  have hsrc := m.sourceIp.property
  have hdst := m.destIp.property
  have hend : 12 + m.payload.length - 4 - 4 - 4 - m.payload.length = 0 := by omega
  -- the pieces fill the buffer from the front
  rw [encode, ← List.nil_append (List.replicate _ _),
    Exec.copyInto_zeros (by simp) (by simp) (by simp; omega), Exec.ok_bind,
    Exec.copyInto_zeros (by simp) (by simp [hsrc]) (by simp [hsrc]; omega), Exec.ok_bind,
    Exec.copyInto_zeros (by simp [hsrc]) (by simp [hdst]) (by simp [hsrc, hdst]; omega), Exec.ok_bind,
    Exec.copyInto_zeros (by simp [hsrc, hdst]) (by simp [hsrc, hdst]; omega)
      (by simp [hsrc, hdst]; omega), Exec.ok_bind, length_u32Be, hsrc, hdst, hend]
  simp [packet]

/-- What the bytes hold once there are twelve of them. -/
def fieldsOf (data : Bytes) (h : 12 ≤ data.length) : VSATMessage where
  packetId := ofU32Be (window data 0 4)
  sourceIp := ⟨window data 4 4, length_window (by omega)⟩
  destIp := ⟨window data 8 4, length_window (by omega)⟩
  payload := data.drop 12

theorem packet_fieldsOf {data : Bytes} (h : 12 ≤ data.length) : packet (fieldsOf data h) = data := by
  show u32Be (ofU32Be (window data 0 4)) ++ (window data 4 4 ++ (window data 8 4 ++ data.drop 12)) = _
  rw [u32Be_ofU32Be (length_window (by omega)), window_append_drop data rfl,
    window_append_drop data rfl, window_append_drop data rfl, List.drop_zero]

theorem ipAt_eq_ok {ε : Type} {data : Bytes} {i : Nat} (h : i + 4 ≤ data.length) :
    (ipAt data i : Exec ε (Arr 4)) = .ok ⟨window data i 4, length_window h⟩ := by
  have hin : (Exec.indices data [i, i + 1, i + 2, i + 3] : Exec ε Bytes) = .ok (window data i 4) :=
    Exec.indices_range' (k := 4) h
  rw [ipAt]
  split
  · rename_i bs hbs
    obtain rfl := Exec.ok.inj (hin.symm.trans hbs)
    rfl
  · rename_i e he
    cases hin.symm.trans he
  · rename_i hp
    cases hin.symm.trans hp

theorem parse_of_le {ε : Type} {data : Bytes} (h : 16 ≤ data.length) :
    (parse data : Exec ε _) = .ok (some (fieldsOf data (by omega))) := by
  have hid : (Exec.indices data [0, 1, 2, 3] : Exec ε Bytes) = .ok (window data 0 4) :=
    Exec.indices_range' (k := 4) (by omega)
  rw [parse, if_neg (by omega), hid, Exec.ok_bind, ipAt_eq_ok (by omega), Exec.ok_bind,
    ipAt_eq_ok (by omega), Exec.ok_bind, Exec.slice_eq_ok (by omega) (Nat.le_refl _), Exec.ok_bind,
    List.take_of_length_le (by rw [List.length_drop])]
  rfl

theorem parse_of_lt {ε : Type} {data : Bytes} (h : data.length < 16) :
    (parse data : Exec ε (Option VSATMessage)) = .ok none := if_pos h

/-- `parse` accepts the packets of at least sixteen bytes. -/
theorem parse_eq_some_iff {ε : Type} {data : Bytes} {m : VSATMessage} :
    (parse data : Exec ε _) = .ok (some m) ↔ 16 ≤ data.length ∧ data = packet m := by
  constructor
  · intro h
    rcases Nat.lt_or_ge data.length 16 with hlt | hle
    · rw [parse_of_lt hlt] at h
      cases h
    · rw [parse_of_le hle] at h
      cases h
      exact ⟨hle, (packet_fieldsOf _).symm⟩
  · rintro ⟨hle, rfl⟩
    rw [parse_of_le hle, packet_inj (packet_fieldsOf _)]

/-! ## Size -/

/-- The bytes a message takes on the wire. -/
def VSATMessage.size (m : VSATMessage) : Nat := 12 + m.payload.length

theorem size_le {ε : Type} {data : Bytes} {m : VSATMessage}
    (h : (parse data : Exec ε _) = .ok (some m)) : m.size ≤ data.length := by
  obtain ⟨-, rfl⟩ := parse_eq_some_iff.mp h
  exact Nat.le_of_eq (length_packet m).symm

/-! ## No panic -/

theorem parse_ne_panic {ε : Type} (data : Bytes) :
    (parse data : Exec ε (Option VSATMessage)) ≠ .panic := by
  rcases Nat.lt_or_ge data.length 16 with hlt | hle
  · rw [parse_of_lt hlt]
    simp
  · rw [parse_of_le hle]
    simp

theorem encode_ne_panic {ε : Type} (zstdEncode : Int32 → Bytes → Option Bytes) (m : VSATMessage) :
    (encode zstdEncode m : Exec ε Bytes) ≠ .panic := by
  rw [encode_eq]
  simp

/-! ## The round trip -/

/-- Through a compressor that never fails and its decompressor, a message comes back exactly when
    its payload makes up for the four bytes `parse` wants behind the header. -/
theorem decompress_encode_iff {zstdEncode : Int32 → Bytes → Option Bytes}
    {zstdDecode : Bytes → Option Bytes}
    (hzstd : ∀ b, ∃ z, zstdEncode 3 b = some z ∧ zstdDecode z = some b) (m : VSATMessage) :
    (∃ z d, (encode zstdEncode m : Exec Empty Bytes) = .ok z ∧ decompress zstdDecode z = some d
        ∧ (parse d : Exec Empty (Option VSATMessage)) = .ok (some m))
      ↔ 4 ≤ m.payload.length := by
  obtain ⟨z, hz, hd⟩ := hzstd (packet m)
  have hencode : (encode zstdEncode m : Exec Empty Bytes) = .ok z := by
    rw [encode_eq, hz, Option.getD_some]
  have hlen := length_packet m
  constructor
  · rintro ⟨z', d, hz', hd', hparse⟩
    obtain ⟨hle, rfl⟩ := parse_eq_some_iff.mp hparse
    omega
  · intro hle
    exact ⟨z, packet m, hencode, hd, parse_eq_some_iff.mpr ⟨by omega, rfl⟩⟩

/-- A packet between two hosts of a private network. -/
def ping (payload : Bytes) : VSATMessage where
  packetId := 1
  sourceIp := ⟨[10, 0, 0, 1], rfl⟩
  destIp := ⟨[10, 0, 0, 2], rfl⟩
  payload := payload

/-- With the codec that leaves the bytes as they are. -/
theorem decompress_encode_ping :
    ∃ z d, (encode (fun _ b => some b) (ping [1, 2, 3, 4]) : Exec Empty Bytes) = .ok z
      ∧ decompress some z = some d
      ∧ (parse d : Exec Empty (Option VSATMessage)) = .ok (some (ping [1, 2, 3, 4])) :=
  (decompress_encode_iff (fun b => ⟨b, rfl, rfl⟩) (ping [1, 2, 3, 4])).mpr (by decide)

/-- A header without a payload is written and not read. -/
theorem empty_ping_refused :
    (encode (fun _ b => some b) (ping []) : Exec Empty Bytes) = .ok (packet (ping []))
      ∧ decompress some (packet (ping [])) = some (packet (ping []))
      ∧ (parse (packet (ping [])) : Exec Empty (Option VSATMessage)) = .ok none := by
  decide

end Vsat

end FloatProtocols
