/-
  A throttle: of a stream of events, each with its instant, one goes out when at least `d` has passed
  since the last one that did.

  `run` lists the verdicts beside the instants.  The first event goes out (`run_cons_none`), those that
  go out are `d` apart (`run_spaced`), and one is held back only close behind one that went out
  (`run_held`).
-/
import Mathlib.Data.Int.Basic

namespace Throttle

/-- One event: whether it goes out, and when the last one did. -/
def step (d : Int) (last : Option Int) (now : Int) : Bool × Option Int :=
  if ∀ t ∈ last, d ≤ now - t then (true, some now) else (false, last)

/-- A stream of events with their verdicts. -/
def run (d : Int) : Option Int → List Int → List (Int × Bool)
  | _, [] => []
  | last, now :: rest => (now, (step d last now).1) :: run d (step d last now).2 rest

variable {d : Int}

/-- The two verdicts. -/
theorem step_cases (d : Int) (last : Option Int) (now : Int) :
    (step d last now = (true, some now) ∧ ∀ t ∈ last, d ≤ now - t) ∨
    (step d last now = (false, last) ∧ ∃ t, last = some t ∧ now - t < d) := by
  rw [step]
  split
  · rename_i h
    exact .inl ⟨rfl, h⟩
  · rename_i h
    refine .inr ⟨rfl, ?_⟩
    cases last with
    | none => exact absurd (fun t ht => by cases ht) h
    | some t =>
      refine ⟨t, rfl, Int.not_le.mp fun hle => h ?_⟩
      intro t' ht'
      obtain rfl := Option.some.inj ht'
      exact hle

/-- The first event goes out. -/
theorem step_none (d now : Int) : step d none now = (true, some now) :=
  if_pos fun t ht => by cases ht

theorem run_cons_none (d now : Int) (rest : List Int) :
    run d none (now :: rest) = (now, true) :: run d (some now) rest := by
  rw [run, step_none]

/-- **What goes out is `d` apart**, and from the last before it. -/
theorem run_spaced (hd : 0 ≤ d) (ts : List Int) : ∀ last,
    (∀ t ∈ last, ∀ x ∈ (run d last ts).filter (·.2), d ≤ x.1 - t) ∧
    ((run d last ts).filter (·.2)).Pairwise fun x y => d ≤ y.1 - x.1 := by
  induction ts with
  | nil =>
    intro last
    exact ⟨fun _ _ _ hx => absurd hx List.not_mem_nil, .nil⟩
  | cons now ts ih =>
    intro last
    obtain ⟨hfrom, hpair⟩ := ih (step d last now).2
    rw [run]
    rcases step_cases d last now with ⟨hstep, hgap⟩ | ⟨hstep, -⟩
    · rw [hstep] at hfrom hpair ⊢
      rw [List.filter_cons_of_pos rfl]
      have hlater := hfrom now rfl
      refine ⟨?_, List.pairwise_cons.mpr ⟨hlater, hpair⟩⟩
      intro t ht x hx
      have hnow := hgap t ht
      rcases List.mem_cons.mp hx with rfl | hx
      · exact hnow
      · have := hlater x hx
        omega
    · rw [hstep] at hfrom hpair ⊢
      rw [List.filter_cons_of_neg Bool.false_ne_true]
      exact ⟨hfrom, hpair⟩

/-- **What is held back comes close behind the last that went out**: one of the stream, or the last
    before it. -/
theorem run_held (ts : List Int) : ∀ (last : Option Int) (before : List (Int × Bool)) (now : Int)
    (after : List (Int × Bool)), run d last ts = before ++ (now, false) :: after →
    (∃ front sent back, before = front ++ (sent, true) :: back ∧ (∀ x ∈ back, x.2 = false) ∧
      now - sent < d) ∨
    ∃ t, last = some t ∧ (∀ x ∈ before, x.2 = false) ∧ now - t < d := by
  induction ts with
  | nil =>
    intro last before now after h
    rw [run] at h
    exact absurd h.symm (by simp)
  | cons i ts ih =>
    intro last before now after h
    rw [run] at h
    cases before with
    | nil =>
      rw [List.nil_append, List.cons.injEq, Prod.mk.injEq] at h
      obtain ⟨⟨rfl, hverdict⟩, -⟩ := h
      rcases step_cases d last i with ⟨hstep, -⟩ | ⟨-, t, hlast, hclose⟩
      · rw [hstep] at hverdict
        cases hverdict
      · exact .inr ⟨t, hlast, fun _ hx => absurd hx List.not_mem_nil, hclose⟩
    | cons x before =>
      rw [List.cons_append, List.cons.injEq] at h
      obtain ⟨rfl, hrest⟩ := h
      rcases ih _ before now after hrest with ⟨front, sent, back, rfl, hback, hclose⟩ | ⟨t, ht, hall, hclose⟩
      · exact .inl ⟨_ :: front, sent, back, rfl, hback, hclose⟩
      · rcases step_cases d last i with ⟨hstep, -⟩ | ⟨hstep, -⟩
        · -- this one went out, and none after it
          rw [hstep] at ht ⊢
          obtain rfl := Option.some.inj ht
          exact .inl ⟨[], i, before, rfl, hall, hclose⟩
        · rw [hstep] at ht ⊢
          exact .inr ⟨t, ht, List.forall_mem_cons.mpr ⟨rfl, hall⟩, hclose⟩

end Throttle
