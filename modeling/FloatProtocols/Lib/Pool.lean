/-
  Pools of tokens, one for each key, and hands that borrow from them.

  A hand is empty or holds one token together with the key of the pool that it came from.  The `stock`
  of a key, idle tokens and those in hands, does not change when a token is borrowed or given back; so
  a pool with a token for every hand is never empty for an empty hand (`ne_nil_of_free`), and a token
  that comes back finds its place free (`length_lt_of_held`).
-/
import Mathlib.Algebra.Order.BigOperators.Group.Finset
import Mathlib.Data.Multiset.AddSub
import FloatProtocols.Lib.Trace

namespace Pool

variable {κ ι α : Type} [DecidableEq κ] [DecidableEq ι] [Fintype ι]

/-- What a hand holds of the tokens of a key. -/
def held (k : κ) : Option (κ × α) → Multiset α
  | some (k', a) => if k' = k then {a} else 0
  | none => 0

/-- The tokens of a key. -/
def stock (idle : κ → List α) (hand : ι → Option (κ × α)) (k : κ) : Multiset α :=
  (idle k : Multiset α) + ∑ i, held k (hand i)

variable {idle : κ → List α} {hand : ι → Option (κ × α)} {i : ι} {k : κ} {a : α}

theorem held_none (k : κ) : held k (none : Option (κ × α)) = 0 := rfl

theorem card_held_le (k : κ) (h : Option (κ × α)) : (held k h).card ≤ 1 := by
  rcases h with _ | ⟨k', a⟩
  · exact Nat.zero_le 1
  · rw [held]
    split
    · exact (Multiset.card_singleton a).le
    · exact Nat.zero_le 1

/-- A hand takes a token, -/
theorem stock_borrow {rest : List α} (hfree : hand i = none) (hidle : idle k = a :: rest) :
    stock (Function.update idle k rest) (Function.update hand i (some (k, a))) = stock idle hand := by
  funext k'
  have hsum := Trace.sum_update (Finset.mem_univ i) (held k') hand (some (k, a))
  rw [hfree, held_none, add_zero] at hsum
  rw [stock, stock, hsum, held]
  by_cases hk : k = k'
  · subst hk
    rw [Function.update_self, if_pos rfl, hidle, ← Multiset.cons_coe, ← Multiset.singleton_add,
      add_comm (∑ x, held k (hand x)), ← add_assoc, add_comm (rest : Multiset α)]
  · rw [Function.update_of_ne (Ne.symm hk), if_neg hk, add_zero]

/-- and puts it back. -/
theorem stock_giveBack (hheld : hand i = some (k, a)) :
    stock (Function.update idle k (idle k ++ [a])) (Function.update hand i none) = stock idle hand := by
  funext k'
  have hsum := Trace.sum_update (Finset.mem_univ i) (held k') hand none
  rw [hheld, held_none, held, add_zero] at hsum
  rw [stock, stock, ← hsum]
  by_cases hk : k = k'
  · subst hk
    rw [Function.update_self, if_pos rfl, ← Multiset.coe_add, Multiset.coe_singleton, add_assoc]
    exact congrArg _ (add_comm _ _)
  · rw [Function.update_of_ne (Ne.symm hk), if_neg hk, add_zero]

omit [DecidableEq ι] in
theorem card_stock (idle : κ → List α) (hand : ι → Option (κ × α)) (k : κ) :
    (stock idle hand k).card = (idle k).length + ∑ i, (held k (hand i)).card := by
  rw [stock, Multiset.card_add, Multiset.coe_card, Multiset.card_sum]

omit [DecidableEq ι] in
/-- While a hand holds a token, the pool that it came from is not full. -/
theorem length_lt_of_held (idle : κ → List α) (hheld : hand i = some (k, a)) :
    (idle k).length < (stock idle hand k).card := by
  have hone : (held k (hand i)).card = 1 := by
    rw [hheld, held, if_pos rfl, Multiset.card_singleton]
  have hle := Finset.single_le_sum (fun j _ => Nat.zero_le (held k (hand j)).card) (Finset.mem_univ i)
  rw [card_stock]
  omega

/-- With a token for every hand, an empty hand finds one. -/
theorem ne_nil_of_free (hfree : hand i = none) (hcard : Fintype.card ι ≤ (stock idle hand k).card) :
    idle k ≠ [] := by
  intro hnil
  have hothers : ∑ j ∈ Finset.univ.erase i, (held k (hand j)).card ≤ Fintype.card ι - 1 := by
    have hsum := Finset.sum_le_card_nsmul (Finset.univ.erase i) (fun j => (held k (hand j)).card) 1
      fun j _ => card_held_le k (hand j)
    rwa [Finset.card_erase_of_mem (Finset.mem_univ i), Finset.card_univ, Nat.nsmul_eq_mul, mul_one] at hsum
  have hself := Finset.sum_erase_add Finset.univ (fun j => (held k (hand j)).card) (Finset.mem_univ i)
  have hpos : 0 < Fintype.card ι := Fintype.card_pos_iff.mpr ⟨i⟩
  rw [hfree, held_none, Multiset.card_zero, add_zero] at hself
  rw [card_stock, hnil, List.length_nil] at hcard
  omega

end Pool
