/-
  Dealing out round-robin: `a` things to `r` places, one after the other.

  `share r a i` is what place `i` (of `1 .. r`) has after `a` turns: the full rounds, and one more if
  the round under way has passed it.
-/
import Mathlib.Algebra.Order.Group.Nat

namespace RoundRobin

variable {r a i : Nat}

/-- What place `i` has after `a` turns. -/
def share (r a i : Nat) : Nat := a / r + if i ≤ a % r then 1 else 0

theorem share_zero (hi : 1 ≤ i) : share r 0 i = 0 := by
  rw [share, Nat.zero_div, Nat.zero_mod, if_neg (by omega)]

/-- The place whose turn it is has the full rounds so far. -/
theorem share_next : share r a (1 + a % r) = a / r := by
  rw [share, if_neg (by omega), Nat.add_zero]

/-- One more turn: the place after the remainder gets one, the others get nothing. -/
theorem share_succ (hi : 1 ≤ i) (hir : i ≤ r) :
    share r (a + 1) i = share r a i + if i = 1 + a % r then 1 else 0 := by
  have hlt : a % r < r := Nat.mod_lt _ (by omega)
  have hdiv := Nat.div_add_mod a r
  simp only [share]
  rcases Nat.lt_or_ge (a % r + 1) r with hin | hend
  · -- within the round
    have hq : (a + 1) / r = a / r := by
      rw [Nat.div_eq_iff (by omega)]
      rw [Nat.mul_comm] at hdiv
      omega
    have hm : (a + 1) % r = a % r + 1 := by
      have h := Nat.div_add_mod (a + 1) r
      rw [hq] at h
      omega
    rw [hq, hm]
    split <;> split <;> split <;> omega
  · -- the last place of the round
    have hq : (a + 1) / r = a / r + 1 := by
      rw [Nat.div_eq_iff (by omega), Nat.add_mul, Nat.one_mul]
      rw [Nat.mul_comm] at hdiv
      omega
    have hm : (a + 1) % r = 0 := by
      have h := Nat.div_add_mod (a + 1) r
      rw [hq, Nat.mul_add, Nat.mul_one] at h
      omega
    rw [hq, hm]
    split <;> split <;> split <;> omega

/-- A place has something once its first turn has come. -/
theorem share_pos_iff (hi : 1 ≤ i) (hir : i ≤ r) : 0 < share r a i ↔ i ≤ a := by
  rw [share]
  rcases Nat.lt_or_ge a r with hlt | hge
  · rw [Nat.div_eq_of_lt hlt, Nat.mod_eq_of_lt hlt]
    split <;> omega
  · have hround : 0 < a / r := Nat.div_pos hge (by omega)
    omega

/-- No two places are more than one apart. -/
theorem share_le_share_add_one (j : Nat) : share r a i ≤ share r a j + 1 := by
  simp only [share]
  split <;> split <;> omega

end RoundRobin
