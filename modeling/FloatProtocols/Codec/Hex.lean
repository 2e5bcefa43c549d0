/-
  Bytes as hex text: what `format!("{:02x}")` prints, and what the two functions of the `hex` library
  are documented to do.

  `hexText` prints two lowercase digits a byte.  `HexPrints` is the one thing assumed of `hex::encode`,
  `HexInverts` of `hex::decode`, and `readHex` is a decoder of which it holds.  `HexId n` names the
  texts of `n` bytes by their digits alone (`hexId_hexText`, `HexId.exists_hexText`).
-/
import FloatProtocols.Lib.Bytes

namespace FloatProtocols

open Wire

namespace InmarsatC

/-- A lowercase hex digit. -/
def hexDigit (n : Nat) : Char := "0123456789abcdef".toList.getD n '0'

/-- `format!("{:02x}..")` over the bytes of an id. -/
def hexText (bs : Bytes) : String :=
  String.ofList (bs.flatMap fun b => [hexDigit (b.toNat / 16), hexDigit (b.toNat % 16)])

/-- What is documented of `hex::encode`: two lowercase digits a byte. -/
def HexPrints (hexEncode : Bytes → String) : Prop := ∀ bs, hexEncode bs = hexText bs

/-- What is documented of `hex::decode`: it reads back the hex text of bytes. -/
def HexInverts (hexDecode : String → Option Bytes) : Prop := ∀ bs, hexDecode (hexText bs) = some bs

/-- The value of a hex digit, of either case. -/
def hexValue (c : Char) : Option Nat :=
  if '0' ≤ c ∧ c ≤ '9' then some (c.toNat - '0'.toNat)
  else if 'a' ≤ c ∧ c ≤ 'f' then some (c.toNat - 'a'.toNat + 10)
  else if 'A' ≤ c ∧ c ≤ 'F' then some (c.toNat - 'A'.toNat + 10)
  else none

/-- A decoder that is as documented: two digits a byte, nothing else. -/
def readHex : List Char → Option Bytes
  | [] => some []
  | [_] => none
  | a :: b :: rest => do
    let x ← hexValue a
    let y ← hexValue b
    let bs ← readHex rest
    return UInt8.ofNat (16 * x + y) :: bs

theorem hexValue_hexDigit : ∀ n < 16, hexValue (hexDigit n) = some n := by decide

theorem readHex_digits : ∀ bs : Bytes,
    readHex (bs.flatMap fun b : UInt8 => [hexDigit (b.toNat / 16), hexDigit (b.toNat % 16)]) = some bs
  | [] => rfl
  | b :: bs => by
    have hb : b.toNat < 256 := b.toNat_lt
    have hsplit : 16 * (b.toNat / 16) + b.toNat % 16 = b.toNat := Nat.div_add_mod ..
    have ih := readHex_digits bs
    show (do
      let x ← hexValue (hexDigit (b.toNat / 16))
      let y ← hexValue (hexDigit (b.toNat % 16))
      let rest ← readHex (bs.flatMap fun b : UInt8 => [hexDigit (b.toNat / 16), hexDigit (b.toNat % 16)])
      return UInt8.ofNat (16 * x + y) :: rest) = _
    rw [hexValue_hexDigit _ (by omega), hexValue_hexDigit _ (by omega), ih]
    show some (UInt8.ofNat (16 * (b.toNat / 16) + b.toNat % 16) :: bs) = _
    rw [hsplit, UInt8.ofNat_toNat]

theorem hexInverts_readHex : HexInverts fun s => readHex s.toList := by
  intro bs
  show readHex (hexText bs).toList = some bs
  rw [hexText, String.toList_ofList]
  exact readHex_digits bs

end InmarsatC

open InmarsatC

/-! ## The texts of `n` bytes -/

/-- `2 * n` lower-case hex digits. -/
def HexId (n : Nat) (id : String) : Prop :=
  id.toList.length = 2 * n ∧ ∀ c ∈ id.toList, c ∈ "0123456789abcdef".toList

-- the digits of the id one by one, not all characters there are
instance (n : Nat) (id : String) : Decidable (HexId n id) :=
  @instDecidableAnd _ _ _ (List.decidableBAll _ _)

theorem exists_hexDigit {c : Char} (hc : c ∈ "0123456789abcdef".toList) :
    ∃ x < 16, hexDigit x = c := by
  obtain ⟨x, hx, rfl⟩ := List.getElem_of_mem hc
  refine ⟨x, hx, ?_⟩
  rw [hexDigit, List.getD_eq_getElem?_getD, List.getElem?_eq_getElem hx, Option.getD_some]

/-- Two digits are the text of one byte. -/
theorem exists_byte {x y : Nat} (hx : x < 16) (hy : y < 16) :
    ∃ b : UInt8, b.toNat / 16 = x ∧ b.toNat % 16 = y := by
  refine ⟨UInt8.ofNat (16 * x + y), ?_⟩
  rw [UInt8.toNat_ofNat']
  omega

theorem exists_digits : ∀ {n : Nat} {cs : List Char}, cs.length = 2 * n →
    (∀ c ∈ cs, c ∈ "0123456789abcdef".toList) → ∃ bs : Bytes, bs.length = n ∧
      cs = bs.flatMap fun b => [hexDigit (b.toNat / 16), hexDigit (b.toNat % 16)]
  | 0, cs, hlen, _ => ⟨[], rfl, List.eq_nil_of_length_eq_zero hlen⟩
  | n + 1, [], hlen, _ => absurd hlen (by simp)
  | n + 1, [_], hlen, _ => absurd hlen (by simp; omega)
  | n + 1, c :: d :: cs, hlen, hcs => by
    obtain ⟨x, hx, rfl⟩ := exists_hexDigit (hcs c (by simp))
    obtain ⟨y, hy, rfl⟩ := exists_hexDigit (hcs d (by simp))
    obtain ⟨b, rfl, rfl⟩ := exists_byte hx hy
    obtain ⟨bs, hbs, rfl⟩ := @exists_digits n cs
      (by rw [List.length_cons, List.length_cons] at hlen; omega)
      (fun c hc => hcs c (by simp only [List.mem_cons, hc, or_true]))
    exact ⟨b :: bs, by rw [List.length_cons, hbs], rfl⟩

/-- Full hex ids are the texts of bytes. -/
theorem HexId.exists_hexText {n : Nat} {id : String} (h : HexId n id) :
    ∃ bs : Bytes, bs.length = n ∧ id = hexText bs := by
  obtain ⟨bs, hlen, hbs⟩ := exists_digits h.1 h.2
  exact ⟨bs, hlen, by rw [hexText, ← hbs, String.ofList_toList]⟩

theorem mem_hexDigits {bs : Bytes} {c : Char}
    (h : c ∈ bs.flatMap fun b : UInt8 => [hexDigit (b.toNat / 16), hexDigit (b.toNat % 16)]) :
    c ∈ "0123456789abcdef".toList := by
  have hdigit : ∀ n < 16, hexDigit n ∈ "0123456789abcdef".toList := by decide
  obtain ⟨b, -, hc⟩ := List.mem_flatMap.mp h
  have hb : b.toNat < 256 := b.toNat_lt
  rcases List.mem_pair.mp hc with rfl | rfl
  · exact hdigit _ (by omega)
  · exact hdigit _ (by omega)

theorem hexId_hexText (bs : Bytes) : HexId bs.length (hexText bs) := by
  rw [HexId, hexText, String.toList_ofList]
  refine ⟨?_, fun c => mem_hexDigits⟩
  induction bs with
  | nil => rfl
  | cons b bs ih =>
    rw [List.flatMap_cons, List.length_append, ih, List.length_cons]
    simp only [List.length_cons, List.length_nil]
    omega

end FloatProtocols
