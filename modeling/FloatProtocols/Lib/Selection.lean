/-
  The best element of a list, by a fold that keeps one of two.

  `reduce f` is the fold without a start value.  Where `f` always keeps the better of its two
  arguments (`Keeps f R`), the result is a member, is as good as every member, and does not depend on
  the order of the list as soon as no two different members are equally good (`reduce_perm`).

  `maxByKey` keeps the LATER of two equal keys, `minByKey` the earlier.  So `maxByKey` of a filtered
  list is found by position: nothing before it has a greater key, everything behind it has a smaller
  one (`maxByKey_filter_eq_some_iff`).
-/
import Mathlib.Data.List.Induction
import Mathlib.Data.List.Perm.Basic
import Mathlib.Order.Lattice

namespace Selection

variable {α κ : Type}

/-- The fold of a non-empty list, from its first element. -/
def reduce (f : α → α → α) : List α → Option α
  | [] => none
  | a :: l => some (l.foldl f a)

theorem reduce_eq_none_iff {f : α → α → α} {l : List α} : reduce f l = none ↔ l = [] := by
  cases l <;> simp [reduce]

theorem reduce_concat (f : α → α → α) (l : List α) (y : α) :
    reduce f (l ++ [y]) = some ((reduce f l).elim y (f · y)) := by
  cases l with
  | nil => rfl
  | cons a l => rw [List.cons_append, reduce, reduce, List.foldl_append]; rfl

/-- `f` keeps one of its arguments, one that is `R`-at least as good as both. -/
structure Keeps (f : α → α → α) (R : α → α → Prop) : Prop where
  pick : ∀ x y, f x y = x ∨ f x y = y
  left : ∀ x y, R (f x y) x
  right : ∀ x y, R (f x y) y
  refl : ∀ x, R x x
  trans : ∀ x y z, R x y → R y z → R x z

theorem Keeps.reduce {f : α → α → α} {R : α → α → Prop} (hf : Keeps f R) (l : List α) :
    ∀ x, reduce f l = some x → x ∈ l ∧ ∀ y ∈ l, R x y := by
  induction l using List.reverseRecOn with
  | nil => intro x h; cases h
  | append_singleton l y ih =>
    intro x h
    rw [reduce_concat] at h
    obtain rfl := Option.some.inj h
    cases hl : Selection.reduce f l with
    | none =>
      obtain rfl := reduce_eq_none_iff.mp hl
      simpa using hf.refl y
    | some z =>
      obtain ⟨hmem, hbest⟩ := ih z hl
      refine ⟨?_, fun w hw => ?_⟩
      · rcases hf.pick z y with hz | hy
        · exact List.mem_append_left _ (by rwa [Option.elim_some, hz])
        · exact List.mem_append_right _ (by rw [Option.elim_some, hy]; exact List.mem_singleton_self y)
      · rcases List.mem_append.mp hw with hw | hw
        · exact hf.trans _ _ _ (hf.left z y) (hbest w hw)
        · rw [List.mem_singleton.mp hw]
          exact hf.right z y

/-- Order does not matter where the best is unique. -/
theorem Keeps.reduce_perm {f : α → α → α} {R : α → α → Prop} (hf : Keeps f R) {l l' : List α}
    (hperm : l.Perm l') (hanti : ∀ x ∈ l, ∀ y ∈ l, R x y → R y x → x = y) :
    Selection.reduce f l = Selection.reduce f l' := by
  cases hl : Selection.reduce f l with
  | none =>
    obtain rfl := reduce_eq_none_iff.mp hl
    obtain rfl := hperm.nil_eq
    rfl
  | some x =>
    cases hl' : Selection.reduce f l' with
    | none =>
      obtain rfl := reduce_eq_none_iff.mp hl'
      obtain rfl := hperm.eq_nil
      cases hl
    | some y =>
      obtain ⟨hx, hxbest⟩ := hf.reduce l x hl
      obtain ⟨hy, hybest⟩ := hf.reduce l' y hl'
      have hy' : y ∈ l := hperm.mem_iff.mpr hy
      rw [hanti x hx y hy' (hxbest y hy') (hybest x (hperm.mem_iff.mp hx))]

section Key

variable [LinearOrder κ] (key : α → κ)

/-- The last of the elements with the greatest key. -/
def maxByKey : List α → Option α := reduce fun x y => if key y < key x then x else y

/-- The first of the elements with the smallest key. -/
def minByKey : List α → Option α := reduce fun x y => if key y < key x then y else x

theorem keeps_max : Keeps (fun x y => if key y < key x then x else y) fun x y => key y ≤ key x where
  pick x y := by
    show (if key y < key x then x else y) = x ∨ (if key y < key x then x else y) = y
    split
    · exact .inl rfl
    · exact .inr rfl
  left x y := by
    show key x ≤ key (if key y < key x then x else y)
    split
    · exact le_refl _
    · exact not_lt.mp ‹_›
  right x y := by
    show key y ≤ key (if key y < key x then x else y)
    split
    · exact le_of_lt ‹_›
    · exact le_refl _
  refl x := le_refl _
  trans x y z hxy hyz := le_trans hyz hxy

theorem keeps_min : Keeps (fun x y => if key y < key x then y else x) fun x y => key x ≤ key y where
  pick x y := by
    show (if key y < key x then y else x) = x ∨ (if key y < key x then y else x) = y
    split
    · exact .inr rfl
    · exact .inl rfl
  left x y := by
    show key (if key y < key x then y else x) ≤ key x
    split
    · exact le_of_lt ‹_›
    · exact le_refl _
  right x y := by
    show key (if key y < key x then y else x) ≤ key y
    split
    · exact le_refl _
    · exact not_lt.mp ‹_›
  refl x := le_refl _
  trans x y z hxy hyz := le_trans hxy hyz

variable {key} {l l' : List α}

/-- The greatest key, from a list in any order: keys need only tell the members apart. -/
theorem maxByKey_perm (hperm : l.Perm l') (hsep : ∀ x ∈ l, ∀ y ∈ l, key x = key y → x = y) :
    maxByKey key l = maxByKey key l' :=
  (keeps_max key).reduce_perm hperm fun x hx y hy hyx hxy => hsep x hx y hy (le_antisymm hxy hyx)

theorem minByKey_perm (hperm : l.Perm l') (hsep : ∀ x ∈ l, ∀ y ∈ l, key x = key y → x = y) :
    minByKey key l = minByKey key l' :=
  (keeps_min key).reduce_perm hperm fun x hx y hy hxy hyx => hsep x hx y hy (le_antisymm hxy hyx)

/-- Of the elements of `l` that meet `p`, `x` has the greatest key and stands last among those. -/
def IsLastMax (key : α → κ) (p : α → Prop) (l : List α) (x : α) : Prop :=
  ∃ before after, l = before ++ x :: after ∧ p x ∧
    (∀ y ∈ before, p y → key y ≤ key x) ∧ (∀ y ∈ after, p y → key y < key x)

theorem IsLastMax.concat_of_not {p : α → Prop} {x y : α} (hy : ¬ p y) (h : IsLastMax key p l x) :
    IsLastMax key p (l ++ [y]) x := by
  obtain ⟨before, after, rfl, hx, hbefore, hafter⟩ := h
  refine ⟨before, after ++ [y], by simp, hx, hbefore, fun z hz hpz => ?_⟩
  rcases List.mem_append.mp hz with hz | hz
  · exact hafter z hz hpz
  · rw [List.mem_singleton.mp hz] at hpz
    exact absurd hpz hy

/-- A place that stays the best when `y` is appended, or is taken by `y`. -/
theorem IsLastMax.concat {p : α → Prop} {x y : α} (hy : p y) (h : IsLastMax key p l x) :
    IsLastMax key p (l ++ [y]) (if key y < key x then x else y) := by
  obtain ⟨before, after, rfl, hx, hbefore, hafter⟩ := h
  split
  · rename_i hlt
    refine ⟨before, after ++ [y], by simp, hx, hbefore, fun z hz hpz => ?_⟩
    rcases List.mem_append.mp hz with hz | hz
    · exact hafter z hz hpz
    · rwa [List.mem_singleton.mp hz]
  · rename_i hge
    refine ⟨before ++ x :: after, [], rfl, hy, fun z hz hpz => ?_, fun _ hz => nomatch hz⟩
    refine le_trans ?_ (not_lt.mp hge)
    rcases List.mem_append.mp hz with hz | hz
    · exact hbefore z hz hpz
    · rcases List.mem_cons.mp hz with rfl | hz
      · exact le_refl _
      · exact le_of_lt (hafter z hz hpz)

/-- There is one such place at most. -/
theorem IsLastMax.unique {p : α → Prop} {x y : α} (hx : IsLastMax key p l x)
    (hy : IsLastMax key p l y) : x = y := by
  obtain ⟨b, a, rfl, hpx, hb, ha⟩ := hx
  obtain ⟨b', a', heq, hpy, hb', ha'⟩ := hy
  -- two splits of one list: the same place, or one place lies behind the other
  rcases List.append_eq_append_iff.mp heq with ⟨c, rfl, hc⟩ | ⟨c, rfl, hc⟩
  · cases c with
    | nil => exact (List.cons.inj hc).1
    | cons z c =>
      obtain ⟨rfl, rfl⟩ := List.cons.inj hc
      have hlt := ha y (by simp) hpy
      exact absurd (hb' x (by simp) hpx) (not_le.mpr hlt)
  · cases c with
    | nil => exact (List.cons.inj hc).1.symm
    | cons z c =>
      obtain ⟨rfl, rfl⟩ := List.cons.inj hc
      have hlt := ha' x (by simp) hpx
      exact absurd (hb y (by simp) hpy) (not_le.mpr hlt)

theorem isLastMax_of_maxByKey {p : α → Prop} [DecidablePred p] (l : List α) :
    ∀ x, maxByKey key (l.filter p) = some x → IsLastMax key p l x := by
  induction l using List.reverseRecOn with
  | nil => intro x h; cases h
  | append_singleton l y ih =>
    intro x h
    by_cases hy : p y
    · rw [List.filter_append, List.filter_cons_of_pos (by simpa using hy), List.filter_nil, maxByKey,
        reduce_concat] at h
      obtain rfl := Option.some.inj h
      cases hl : reduce (fun x y => if key y < key x then x else y) (l.filter p) with
      | none =>
        have hnone := List.filter_eq_nil_iff.mp (reduce_eq_none_iff.mp hl)
        exact ⟨l, [], rfl, hy, fun z hz hpz => absurd (by simpa using hpz) (hnone z hz),
          fun _ hz => nomatch hz⟩
      | some z => exact (ih z hl).concat hy
    · rw [List.filter_append, List.filter_cons_of_neg (by simpa using hy), List.filter_nil,
        List.append_nil] at h
      exact (ih x h).concat_of_not hy

/-- **The filtered maximum, by position.** -/
theorem maxByKey_filter_eq_some_iff {p : α → Prop} [DecidablePred p] {x : α} :
    maxByKey key (l.filter p) = some x ↔ IsLastMax key p l x := by
  refine ⟨isLastMax_of_maxByKey l x, fun h => ?_⟩
  cases hl : maxByKey key (l.filter p) with
  | none =>
    obtain ⟨before, after, rfl, hx, -⟩ := h
    have hnone := List.filter_eq_nil_iff.mp (reduce_eq_none_iff.mp hl)
    exact absurd (by simpa using hx) (hnone x (by simp))
  | some y => rw [(isLastMax_of_maxByKey l y hl).unique h]

/-- There is a maximum as soon as one element meets the filter. -/
theorem exists_maxByKey_filter {p : α → Prop} [DecidablePred p] :
    (∃ x, maxByKey key (l.filter p) = some x) ↔ ∃ x ∈ l, p x := by
  rw [← Option.isSome_iff_exists, Option.isSome_iff_ne_none, Ne, maxByKey, reduce_eq_none_iff,
    List.filter_eq_nil_iff]
  simp

end Key

end Selection
