/-
  A growable vector under the most economical allocator: it is given the capacity it asks for, and asks
  for more only when it has to.

  `fits` is part of the type, so no vector is ever longer than its capacity.
-/
import Mathlib.Order.Lattice

/-- Contents, and the capacity they stand in. -/
structure GrowVec (α : Type) where
  contents : List α
  capacity : Nat
  fits : contents.length ≤ capacity

namespace GrowVec

variable {α : Type}

/-- Empty, with room for `n`. -/
def withCapacity (n : Nat) : GrowVec α := ⟨[], n, Nat.zero_le n⟩

/-- Room for `k` more than there are. -/
def reserve (v : GrowVec α) (k : Nat) : GrowVec α :=
  ⟨v.contents, max v.capacity (v.contents.length + k), Nat.le_trans v.fits (Nat.le_max_left _ _)⟩

/-- The contents go, the capacity stays. -/
def clear (v : GrowVec α) : GrowVec α := ⟨[], v.capacity, Nat.zero_le _⟩

/-- `xs` at the end; what is missing is reserved first. -/
def extend (v : GrowVec α) (xs : List α) : GrowVec α :=
  ⟨v.contents ++ xs, max v.capacity (v.contents.length + xs.length),
    List.length_append ▸ Nat.le_max_right _ _⟩

/-- Filling a cleared vector needs nothing if the capacity is there. -/
theorem capacity_extend_clear {v : GrowVec α} {xs : List α} (h : xs.length ≤ v.capacity) :
    (v.clear.extend xs).capacity = v.capacity := by
  show max v.capacity (([] : List α).length + xs.length) = _
  rw [List.length_nil, Nat.zero_add, Nat.max_eq_left h]

end GrowVec
