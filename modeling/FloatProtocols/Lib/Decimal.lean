/-
  Decimal text of integers: what a printer writes, and what a parser makes of it.

  The digits are `Nat.repr`'s.  `parseI64` reads an optional sign and at least one digit and refuses
  what does not fit 64 bits.  Two facts are used above: different numbers print differently
  (`repr_inj`), and a printed i64 is read back (`parseI64_showI64`).
-/
import Mathlib.Algebra.Group.Nat.Defs
import Mathlib.Data.Int.Basic

namespace Decimal

theorem repr_inj {m n : Nat} (h : m.repr = n.repr) : m = n := by
  rw [← Nat.ofDigitChars_ten_toDigits (n := m), ← Nat.toList_repr, h, Nat.toList_repr,
    Nat.ofDigitChars_ten_toDigits]

/-- The number a non-empty string of digits denotes. -/
def readNat (cs : List Char) : Option Nat :=
  if cs ≠ [] ∧ cs.all Char.isDigit then some (Nat.ofDigitChars 10 cs 0) else none

/-- `x.to_string()` of an i64. -/
def showI64 (x : Int64) : String := toString x.toInt

/-- `s.parse::<i64>().ok()`. -/
def parseI64 (s : String) : Option Int64 :=
  match s.toList with
  | '-' :: cs => (readNat cs).bind fun n => if n ≤ 2 ^ 63 then some (.ofInt (-n)) else none
  | '+' :: cs => (readNat cs).bind fun n => if n < 2 ^ 63 then some (.ofInt n) else none
  | cs => (readNat cs).bind fun n => if n < 2 ^ 63 then some (.ofInt n) else none

theorem isDigit_repr (n : Nat) : n.repr.toList.all Char.isDigit = true := by
  rw [Nat.toList_repr, List.all_eq_true]
  intro c hc
  exact Nat.isDigit_of_mem_toDigits (by omega) (by omega) hc

theorem readNat_repr (n : Nat) : readNat n.repr.toList = some n := by
  have hne : n.repr.toList ≠ [] := by
    rw [Nat.toList_repr]
    exact Nat.toDigits_ne_nil
  rw [readNat, if_pos ⟨hne, isDigit_repr n⟩, Nat.toList_repr, Nat.ofDigitChars_ten_toDigits]

/-- Digits carry no sign. -/
theorem parseI64_repr (n : Nat) :
    parseI64 n.repr = if n < 2 ^ 63 then some (.ofInt n) else none := by
  have hdigits := isDigit_repr n
  have hread := readNat_repr n
  rw [parseI64]
  generalize n.repr.toList = cs at hdigits hread
  split
  · exact absurd hdigits (by simp)
  · exact absurd hdigits (by simp)
  · rw [hread]
    rfl

theorem parseI64_neg_repr (n : Nat) :
    parseI64 ("-" ++ n.repr) = if n ≤ 2 ^ 63 then some (.ofInt (-n)) else none := by
  have hcs : ("-" ++ n.repr).toList = '-' :: n.repr.toList := by
    rw [String.toList_append]
    rfl
  rw [parseI64, hcs]
  show ((readNat n.repr.toList).bind _) = _
  rw [readNat_repr]
  rfl

/-- **A printed i64 is read back**, by cases on the sign. -/
theorem parseI64_showI64 (x : Int64) : parseI64 (showI64 x) = some x := by
  have hlo : -2 ^ 63 ≤ x.toInt := x.le_toInt
  have hhi : x.toInt < 2 ^ 63 := x.toInt_lt
  have hback : Int64.ofInt x.toInt = x := Int64.ofInt_toInt x
  rw [showI64]
  rcases hx : x.toInt with n | n
  · show parseI64 n.repr = _
    rw [hx] at hback hhi
    have hn : n < 2 ^ 63 := Int.ofNat_lt.mp hhi
    rw [parseI64_repr, if_pos hn]
    exact congrArg some hback
  · show parseI64 ("-" ++ (n + 1).repr) = _
    rw [hx] at hback hlo
    have hn : n + 1 ≤ 2 ^ 63 := by
      rw [Int.negSucc_eq] at hlo
      omega
    rw [parseI64_neg_repr, if_pos hn]
    exact congrArg some hback

end Decimal
