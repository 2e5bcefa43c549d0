/-
  A queue of keys that is purged lazily: keys are pushed again and again, popped from the front only,
  and a key that is no longer LIVE stays until it is popped.

  `Stamped` gives every occurrence the time of its push.  Times grow along the queue, and a live key
  still has the occurrence of its latest push, so the order of the LAST occurrences of two live keys
  is the order of their latest pushes (`Stamped.behind_iff`).  The first occurrence says nothing.
-/
import Mathlib.Data.List.Basic

namespace LazyQueue

variable {α : Type}

/-- `k` stands in the queue behind the last `y`. -/
def Behind (order : List α) (y k : α) : Prop :=
  ∃ front back, order = front ++ y :: back ∧ y ∉ back ∧ k ∈ back

/-- The occurrences of a queue with their times; `latest` is the time of a key's latest push. -/
structure Stamps (order : List α) (live : α → Prop) (latest : α → Nat) (now : Nat)
    (q : List (α × Nat)) : Prop where
  order : order = q.map Prod.fst
  sorted : q.Pairwise fun x y => x.2 < y.2
  past : ∀ x ∈ q, x.2 ≤ latest x.1
  now : ∀ k, latest k ≤ now
  live : ∀ k, live k → (k, latest k) ∈ q

/-- A queue whose occurrences can be given times. -/
def Stamped (order : List α) (live : α → Prop) (latest : α → Nat) (now : Nat) : Prop :=
  ∃ q, Stamps order live latest now q

variable {order : List α} {live : α → Prop} {latest : α → Nat} {now : Nat}

theorem stamped_nil {live : α → Prop} (h : ∀ k, ¬ live k) : Stamped [] live (fun _ => 0) 0 :=
  ⟨[], rfl, .nil, by simp, fun _ => Nat.le_refl _, fun k hk => absurd hk (h k)⟩

/-- Time passes. -/
theorem Stamped.tick (h : Stamped order live latest now) : Stamped order live latest (now + 1) := by
  obtain ⟨q, hq⟩ := h
  exact ⟨q, hq.order, hq.sorted, hq.past, fun k => Nat.le_succ_of_le (hq.now k), hq.live⟩

/-- Occurrences of keys that are no longer live go from the front. -/
theorem Stamped.drop {front back : List α} {live' : α → Prop}
    (h : Stamped (front ++ back) live latest now) (hlive : ∀ k, live' k → live k)
    (hfront : ∀ k ∈ front, ¬ live' k) : Stamped back live' latest now := by
  obtain ⟨q, hq⟩ := h
  obtain ⟨qf, qb, rfl, hqf, hqb⟩ := List.map_eq_append_iff.mp hq.order.symm
  refine ⟨qb, hqb.symm, hq.sorted.sublist (List.sublist_append_right _ _),
    fun x hx => hq.past x (List.mem_append_right _ hx), hq.now, ?_⟩
  intro k hk
  rcases List.mem_append.mp (hq.live k (hlive k hk)) with hmem | hmem
  · refine absurd hk (hfront k ?_)
    rw [← hqf]
    exact List.mem_map_of_mem hmem
  · exact hmem

/-- A push is the latest of its key. -/
theorem Stamped.push [DecidableEq α] (h : Stamped order live latest now) (y : α) :
    Stamped (order ++ [y]) (fun k => k = y ∨ live k)
      (fun k => if k = y then now + 1 else latest k) (now + 1) := by
  obtain ⟨q, hq⟩ := h
  have hgrow : ∀ k, latest k ≤ if k = y then now + 1 else latest k := by
    intro k
    split
    · exact Nat.le_succ_of_le (hq.now k)
    · exact Nat.le_refl _
  refine ⟨q ++ [(y, now + 1)], ?_, ?_, ?_, ?_, ?_⟩
  · rw [List.map_append, ← hq.order]
    rfl
  · refine List.pairwise_append.mpr ⟨hq.sorted, List.pairwise_singleton _ _, ?_⟩
    intro x hx z hz
    rw [List.mem_singleton.mp hz]
    exact Nat.lt_succ_of_le (Nat.le_trans (hq.past x hx) (hq.now x.1))
  · intro x hx
    rcases List.mem_append.mp hx with hx | hx
    · exact Nat.le_trans (hq.past x hx) (hgrow x.1)
    · obtain rfl := List.mem_singleton.mp hx
      exact Nat.le_of_eq (if_pos rfl).symm
  · intro k
    split
    · exact Nat.le_refl _
    · exact Nat.le_succ_of_le (hq.now k)
  · intro k hk
    by_cases hky : k = y
    · rw [hky, if_pos rfl]
      exact List.mem_append_right _ (List.mem_singleton_self _)
    · rw [if_neg hky]
      rcases hk with hk | hk
      · exact absurd hk hky
      · exact List.mem_append_left _ (hq.live k hk)

/-- Times around one occurrence. -/
theorem Stamps.around {front back : List (α × Nat)} {y : α} {t : Nat}
    (h : Stamps order live latest now (front ++ (y, t) :: back)) :
    t ≤ latest y ∧ (∀ x ∈ front, x.2 < t) ∧ ∀ x ∈ back, t < x.2 ∧ x.2 ≤ latest x.1 := by
  obtain ⟨-, hcons, hfront⟩ := List.pairwise_append.mp h.sorted
  obtain ⟨hback, -⟩ := List.pairwise_cons.mp hcons
  refine ⟨h.past (y, t) (List.mem_append_right _ List.mem_cons_self), ?_, ?_⟩
  · intro x hx
    exact hfront x hx (y, t) List.mem_cons_self
  · intro x hx
    exact ⟨hback x hx, h.past x (List.mem_append_right _ (List.mem_cons_of_mem _ hx))⟩

/-- **Last occurrences are in the order of the latest pushes.** -/
theorem Stamped.behind_iff (h : Stamped order live latest now) {y k : α} (hy : live y) (hk : live k) :
    Behind order y k ↔ latest y < latest k := by
  obtain ⟨q, hq⟩ := h
  constructor
  · rintro ⟨front, back, horder, hlast, hmem⟩
    obtain ⟨qf, qyb, rfl, hqf, hqyb⟩ := List.map_eq_append_iff.mp (hq.order.symm.trans horder)
    obtain ⟨⟨y', t⟩, qb, rfl, rfl, rfl⟩ := List.map_eq_cons_iff.mp hqyb
    obtain ⟨hpast, hbefore, hafter⟩ := hq.around
    -- the last occurrence carries the latest time
    have hlatest : latest y' ≤ t := by
      rcases List.mem_append.mp (hq.live y' hy) with hin | hin
      · exact Nat.le_of_lt (hbefore _ hin)
      · rcases List.mem_cons.mp hin with heq | hin
        · exact Nat.le_of_eq (Prod.mk.inj heq).2
        · exact absurd (List.mem_map_of_mem hin) hlast
    obtain ⟨⟨k', t'⟩, hin, rfl⟩ := List.mem_map.mp hmem
    obtain ⟨hlt, hle⟩ := hafter (k', t') hin
    exact Nat.lt_of_le_of_lt hlatest (Nat.lt_of_lt_of_le hlt hle)
  · intro hlt
    obtain ⟨qf, qb, rfl⟩ := List.append_of_mem (hq.live y hy)
    obtain ⟨-, hbefore, hafter⟩ := hq.around
    refine ⟨qf.map Prod.fst, qb.map Prod.fst, ?_, ?_, ?_⟩
    · rw [hq.order, List.map_append, List.map_cons]
    · intro hmem
      obtain ⟨⟨y', t⟩, hin, rfl⟩ := List.mem_map.mp hmem
      obtain ⟨hlt', hle⟩ := hafter (y', t) hin
      exact Nat.not_lt.mpr hle hlt'
    · rcases List.mem_append.mp (hq.live k hk) with hmem | hmem
      · exact absurd hlt (Nat.not_lt.mpr (Nat.le_of_lt (hbefore _ hmem)))
      · rcases List.mem_cons.mp hmem with heq | hmem
        · exact absurd hlt (Nat.not_lt.mpr (Nat.le_of_eq (Prod.mk.inj heq).2))
        · exact List.mem_map_of_mem hmem

end LazyQueue
