/-
  Runs of a step function, and what they preserve.

  A system is `step : σ → α → Option σ`: an action either is possible and gives the next state, or is
  not.  `run` executes a list of actions; `Along C` says that every step of the run meets a condition
  `C` on state and action.  The one induction is `Along.invariant`: what each conditioned step
  preserves, the whole run preserves; `collect` puts on record what the steps of a run did.  A record
  may be a run of a second, more abstract system (`Along.refines`), or say what went into a stock and
  what came out of it (`Along.balance`).  A rank that turns lower, and only entries of a record raise,
  bounds how many turns it takes to finish (`exists_finished`); one that every step of a kind lowers,
  how many of them there can be (`Along.length_le`, `exists_rest`).
  Conversely, a quantity that steps can only add to is unchanged exactly along the runs that meet the
  condition "adds nothing" (`along_iff_of_cost`).

  Where the state has many like parts (threads, queues) and an invariant adds something up over them,
  a step that changes one part changes the sum by the difference (`sum_update`); an invariant of each
  part has to be shown for the changed one alone (`forall_update`).
-/
import Mathlib.Algebra.BigOperators.Group.Finset.Basic
import Mathlib.Logic.Function.Basic

namespace Trace

variable {σ α : Type}

/-- The state after a list of actions, if all of them are possible. -/
def run (step : σ → α → Option σ) : σ → List α → Option σ
  | s, [] => some s
  | s, a :: as => (step s a).bind fun t => run step t as

/-- Every step of the run meets the condition. -/
def Along (step : σ → α → Option σ) (C : σ → α → Prop) : σ → List α → Prop
  | _, [] => True
  | s, a :: as => C s a ∧
    match step s a with
    | some t => Along step C t as
    | none => True

instance decidableAlong (step : σ → α → Option σ) (C : σ → α → Prop) [∀ s a, Decidable (C s a)] :
    ∀ s as, Decidable (Along step C s as)
  | _, [] => inferInstanceAs (Decidable True)
  | s, a :: as => by
    unfold Along
    cases step s a with
    | none => infer_instance
    | some t =>
      have := decidableAlong step C t as
      infer_instance

theorem run_cons {step : σ → α → Option σ} {s t : σ} {a : α} {as : List α}
    (h : step s a = some t) : run step s (a :: as) = run step t as := by
  rw [run, h]
  rfl

theorem run_singleton (step : σ → α → Option σ) (s : σ) (a : α) : run step s [a] = step s a := by
  rw [run]
  cases step s a <;> rfl

/-- **The induction on runs.** -/
theorem Along.invariant {step : σ → α → Option σ} {C : σ → α → Prop} {P : σ → Prop}
    (hstep : ∀ s a t, C s a → step s a = some t → P s → P t) :
    ∀ (as : List α) (s t : σ), Along step C s as → run step s as = some t → P s → P t
  | [], s, t, _, hrun, hs => Option.some.inj hrun ▸ hs
  | a :: as, s, t, hall, hrun, hs => by
    obtain ⟨u, hu, hrun⟩ := Option.bind_eq_some_iff.mp hrun
    rw [Along, hu] at hall
    exact Along.invariant hstep as u t hall.2 hrun (hstep s a u hall.1 hu hs)

/-- A condition on the actions alone holds along any run of such actions. -/
theorem along_of_forall {step : σ → α → Option σ} {C : σ → α → Prop} :
    ∀ (as : List α) (s : σ), (∀ t, ∀ a ∈ as, C t a) → Along step C s as
  | [], _, _ => trivial
  | a :: as, s, h => by
    refine ⟨h s a (List.mem_cons_self ..), ?_⟩
    split
    · exact along_of_forall as _ fun t b hb => h t b (List.mem_cons_of_mem a hb)
    · trivial

/-- Conditions that agree in every state agree along every run. -/
theorem along_congr {step : σ → α → Option σ} {C D : σ → α → Prop} (h : ∀ s a, C s a ↔ D s a) :
    ∀ (as : List α) (s : σ), Along step C s as ↔ Along step D s as
  | [], _ => Iff.rfl
  | a :: as, s => by
    rw [Along, Along, h s a]
    cases step s a with
    | none => rfl
    | some t => exact and_congr_right fun _ => along_congr h as t

/-- The induction without a condition. -/
theorem invariant {step : σ → α → Option σ} {P : σ → Prop}
    (hstep : ∀ s a t, step s a = some t → P s → P t) :
    ∀ (as : List α) (s t : σ), run step s as = some t → P s → P t :=
  fun as s t => Along.invariant (C := fun _ _ => True) (fun s a t _ => hstep s a t) as s t
    (along_of_forall as s fun _ _ _ => trivial)

/-- What an invariant of the conditioned steps says about a state, every step of the run meets. -/
theorem Along.of_invariant {step : σ → α → Option σ} {C D : σ → α → Prop} {P : σ → Prop}
    (hstep : ∀ s a t, C s a → step s a = some t → P s → P t) (hD : ∀ s a, P s → D s a) :
    ∀ (as : List α) (s : σ), Along step C s as → P s → Along step D s as
  | [], _, _, _ => trivial
  | a :: as, s, hall, hs => by
    refine ⟨hD s a hs, ?_⟩
    rw [Along] at hall
    cases hu : step s a with
    | none => trivial
    | some t =>
      rw [hu] at hall
      exact Along.of_invariant hstep hD as t hall.2 (hstep s a t hall.1 hu hs)

/-- An invariant holds all along a run. -/
theorem along_of_invariant {step : σ → α → Option σ} {P : σ → Prop}
    (hstep : ∀ s a t, step s a = some t → P s → P t) (as : List α) (s : σ) (hs : P s) :
    Along step (fun s _ => P s) s as :=
  Along.of_invariant (C := fun _ _ => True) (fun s a t _ => hstep s a t) (fun _ _ hs => hs) as s
    (along_of_forall as s fun _ _ _ => trivial) hs

/-- The step behind a first part of the run meets the condition too. -/
theorem Along.of_append {step : σ → α → Option σ} {C : σ → α → Prop} :
    ∀ {as : List α} {a : α} {bs : List α} {s t : σ}, Along step C s (as ++ a :: bs) →
      run step s as = some t → C t a
  | [], _, _, _, _, hall, hrun => Option.some.inj hrun ▸ hall.1
  | b :: as, a, bs, s, t, hall, hrun => by
    obtain ⟨u, hu, hrun⟩ := Option.bind_eq_some_iff.mp hrun
    rw [List.cons_append, Along, hu] at hall
    exact Along.of_append hall.2 hrun

/-- What the steps of a run put on record. -/
def collect {β : Type} (step : σ → α → Option σ) (f : σ → α → List β) : σ → List α → List β
  | _, [] => []
  | s, a :: as => f s a ++
    match step s a with
    | some t => collect step f t as
    | none => []

/-- The induction on runs, for a state together with its record. -/
theorem Along.invariant_collect {β : Type} {step : σ → α → Option σ} {f : σ → α → List β}
    {C : σ → α → Prop} {P : σ → List β → Prop}
    (hstep : ∀ s a t l, C s a → step s a = some t → P s l → P t (l ++ f s a)) :
    ∀ (as : List α) (s t : σ) (l : List β), Along step C s as → run step s as = some t → P s l →
      P t (l ++ collect step f s as)
  | [], s, t, l, _, hrun, hs => by
    rw [collect, List.append_nil, ← Option.some.inj hrun]
    exact hs
  | a :: as, s, t, l, hall, hrun, hs => by
    obtain ⟨u, hu, hrun⟩ := Option.bind_eq_some_iff.mp hrun
    rw [Along, hu] at hall
    rw [collect, hu, ← List.append_assoc]
    exact Along.invariant_collect hstep as u t _ hall.2 hrun (hstep s a u l hall.1 hu hs)

/-- Every step of a run is among its steps, and what it puts on record among its records. -/
theorem along_collect {β : Type} (step : σ → α → Option σ) (f : σ → α → List β) {bs : List α}
    {l : List β} :
    ∀ (as : List α) (s : σ), as ⊆ bs → collect step f s as ⊆ l →
      Along step (fun t a => a ∈ bs ∧ f t a ⊆ l) s as
  | [], _, _, _ => trivial
  | a :: as, s, has, hl => by
    obtain ⟨ha, has⟩ := List.cons_subset.mp has
    rw [collect] at hl
    obtain ⟨hfirst, hrest⟩ := List.append_subset.mp hl
    refine ⟨⟨ha, hfirst⟩, ?_⟩
    cases hu : step s a with
    | none => trivial
    | some t =>
      rw [hu] at hrest
      exact along_collect step f as t has hrest

/-- A run is a record of itself. -/
theorem collect_self {step : σ → α → Option σ} :
    ∀ (as : List α) (s t : σ), run step s as = some t → collect step (fun _ a => [a]) s as = as
  | [], _, _, _ => rfl
  | a :: as, s, t, hrun => by
    obtain ⟨u, hu, hrun⟩ := Option.bind_eq_some_iff.mp hrun
    rw [collect, hu]
    exact congrArg (a :: ·) (collect_self as u t hrun)

/-- The induction on a run that is its own record. -/
theorem invariant_log {step : σ → α → Option σ} {P : σ → List α → Prop}
    (hstep : ∀ s a t l, step s a = some t → P s l → P t (l ++ [a])) (as : List α) (s t : σ)
    (hrun : run step s as = some t) (hs : P s []) : P t as := by
  have hlog := Along.invariant_collect (f := fun _ a => [a]) (C := fun _ _ => True)
    (fun s a t l _ => hstep s a t l) as s t [] (along_of_forall as s fun _ _ _ => trivial) hrun hs
  rwa [List.nil_append, collect_self as s t hrun] at hlog

theorem run_append (step : σ → α → Option σ) :
    ∀ (as bs : List α) (s : σ), run step s (as ++ bs) = (run step s as).bind fun t => run step t bs
  | [], _, _ => rfl
  | a :: as, bs, s => by
    rw [List.cons_append, run, run]
    cases step s a with
    | none => rfl
    | some t => exact run_append step as bs t

/-- **Refinement.**  If what a step puts on record is a run of a second system between the two views,
    the record of a whole run is one, too. -/
theorem Along.refines {τ β : Type} {step : σ → α → Option σ} {f : σ → α → List β}
    {C : σ → α → Prop} {abstract : τ → β → Option τ} (view : σ → τ)
    (hstep : ∀ s a t, C s a → step s a = some t → run abstract (view s) (f s a) = some (view t))
    (as : List α) (s t : σ) (hall : Along step C s as) (hrun : run step s as = some t) :
    run abstract (view s) (collect step f s as) = some (view t) := by
  refine Along.invariant_collect (P := fun u l => run abstract (view s) l = some (view u))
    (fun u a w l hC hu hl => ?_) as s t [] hall hrun rfl
  rw [run_append, hl]
  exact hstep u a w hC hu

/-- **Balance.**  If each step takes out of a stock and puts into it what its record says, so does a
    whole run. -/
theorem Along.balance {M β : Type} [AddCommMonoid M] {step : σ → α → Option σ} {f : σ → α → List β}
    {C : σ → α → Prop} (stock : σ → M) (gain loss : β → M)
    (hstep : ∀ s a t, C s a → step s a = some t →
      stock t + ((f s a).map loss).sum = stock s + ((f s a).map gain).sum)
    (as : List α) (s t : σ) (hall : Along step C s as) (hrun : run step s as = some t) :
    stock t + ((collect step f s as).map loss).sum =
      stock s + ((collect step f s as).map gain).sum := by
  refine Along.invariant_collect
    (P := fun u l => stock u + (l.map loss).sum = stock s + (l.map gain).sum)
    (fun u a w l hC hu hl => ?_) as s t [] hall hrun (by simp)
  rw [List.map_append, List.map_append, List.sum_append, List.sum_append]
  calc stock w + ((l.map loss).sum + ((f u a).map loss).sum)
      = stock w + ((f u a).map loss).sum + (l.map loss).sum := by
        rw [add_comm (l.map loss).sum, add_assoc]
    _ = stock u + (l.map loss).sum + ((f u a).map gain).sum := by
        rw [hstep u a w hC hu, add_right_comm]
    _ = stock s + ((l.map gain).sum + ((f u a).map gain).sum) := by rw [hl, add_assoc]

/-- The balance of a run that is its own record. -/
theorem balance {M : Type} [AddCommMonoid M] {step : σ → α → Option σ} (stock : σ → M)
    (gain loss : α → M) (hstep : ∀ s a t, step s a = some t → stock t + loss a = stock s + gain a)
    (as : List α) (s t : σ) (hrun : run step s as = some t) :
    stock t + (as.map loss).sum = stock s + (as.map gain).sum := by
  have hlog := Along.balance (f := fun _ a => [a]) (C := fun _ _ => True) stock gain loss
    (fun s a t _ h => by simpa using hstep s a t h) as s t
    (along_of_forall as s fun _ _ _ => trivial) hrun
  rwa [collect_self as s t hrun] at hlog

/-- What every conditioned step puts on record, the record of a run holds. -/
theorem Along.forall_collect {β : Type} {step : σ → α → Option σ} {f : σ → α → List β}
    {C : σ → α → Prop} {Q : β → Prop} (hstep : ∀ s a, C s a → ∀ e ∈ f s a, Q e) :
    ∀ (as : List α) (s : σ), Along step C s as → ∀ e ∈ collect step f s as, Q e
  | [], _, _, _, he => by cases he
  | a :: as, s, hall, e, he => by
    rw [Along] at hall
    rw [collect] at he
    rcases List.mem_append.mp he with he | he
    · exact hstep s a hall.1 e he
    · cases hu : step s a with
      | none =>
        rw [hu] at he
        cases he
      | some t =>
        rw [hu] at he hall
        exact Along.forall_collect hstep as t hall.2 e he

/-- **First in, first out.**  If each step appends to a queue and takes off its front, then a run hands
    on what it took, in order. -/
theorem fifo {β : Type} {step : σ → α → Option σ} (queue : σ → List β) {enter leave : α → List β}
    (hstep : ∀ s a t, step s a = some t → queue s ++ enter a = leave a ++ queue t) :
    ∀ (as : List α) (s t : σ), run step s as = some t →
      queue s ++ as.flatMap enter = as.flatMap leave ++ queue t
  | [], s, t, hrun => by
    cases hrun
    simp
  | a :: as, s, t, hrun => by
    obtain ⟨u, hu, hrun⟩ := Option.bind_eq_some_iff.mp hrun
    rw [List.flatMap_cons, List.flatMap_cons, ← List.append_assoc, hstep s a u hu,
      List.append_assoc, fifo queue hstep as u t hrun, List.append_assoc]

/-- A rank that every conditioned step lowers bounds the length of a run of such steps, -/
theorem Along.length_le {step : σ → α → Option σ} {C : σ → α → Prop} {P : σ → Prop} (rank : σ → Nat)
    (hstep : ∀ s a t, C s a → step s a = some t → P s → P t ∧ rank t < rank s) :
    ∀ (as : List α) (s t : σ), Along step C s as → run step s as = some t → P s →
      P t ∧ rank t + as.length ≤ rank s
  | [], s, t, _, hrun, hs => by
    cases hrun
    exact ⟨hs, Nat.le_refl _⟩
  | a :: as, s, t, hall, hrun, hs => by
    obtain ⟨u, hu, hrun⟩ := Option.bind_eq_some_iff.mp hrun
    rw [Along, hu] at hall
    obtain ⟨hPu, hlt⟩ := hstep s a u hall.1 hu hs
    obtain ⟨hPt, hle⟩ := Along.length_le rank hstep as u t hall.2 hrun hPu
    rw [List.length_cons]
    exact ⟨hPt, by omega⟩

/-- A quantity that steps only ever add to stays put exactly along the runs whose steps all add
    nothing. -/
theorem along_iff_of_cost {step : σ → α → Option σ} {C : σ → α → Prop} {μ : σ → Nat}
    {cost : σ → α → Nat} (hcost : ∀ s a t, step s a = some t → μ t = μ s + cost s a)
    (hC : ∀ s a, C s a ↔ cost s a = 0) :
    ∀ (as : List α) (s t : σ), run step s as = some t → μ s ≤ μ t ∧ (Along step C s as ↔ μ t = μ s)
  | [], s, t, hrun => by
    cases hrun
    exact ⟨le_rfl, iff_of_true trivial rfl⟩
  | a :: as, s, t, hrun => by
    obtain ⟨u, hu, hrun⟩ := Option.bind_eq_some_iff.mp hrun
    obtain ⟨hle, hiff⟩ := along_iff_of_cost hcost hC as u t hrun
    have hstep := hcost s a u hu
    rw [Along, hu, hC]
    refine ⟨by omega, fun ⟨hzero, hrest⟩ => ?_, fun heq => ⟨by omega, hiff.mpr (by omega)⟩⟩
    rw [hiff.mp hrest, hstep, hzero, Nat.add_zero]

/-! ## The parts of a state -/

variable {ι β : Type} [DecidableEq ι]

/-- What holds of every part, and of what replaces one of them, holds of every part after. -/
theorem forall_update {P : ι → β → Prop} {f : ι → β} {i : ι} {v : β} (hv : P i v)
    (h : ∀ j, P j (f j)) : ∀ j, P j (Function.update f i v j) :=
  (Function.forall_update_iff f P).mpr ⟨hv, fun j _ => h j⟩

theorem sum_update {M : Type} [AddCommMonoid M] {s : Finset ι} {i : ι} (hi : i ∈ s) (g : β → M)
    (f : ι → β) (v : β) :
    ∑ x ∈ s, g (Function.update f i v x) + g (f i) = ∑ x ∈ s, g (f x) + g v := by
  have hrest : ∑ x ∈ s.erase i, g (Function.update f i v x) = ∑ x ∈ s.erase i, g (f x) :=
    Finset.sum_congr rfl fun x hx => by rw [Function.update_of_ne (Finset.ne_of_mem_erase hx)]
  have hnew := Finset.sum_erase_add s (fun x => g (Function.update f i v x)) hi
  have hold := Finset.sum_erase_add s (fun x => g (f x)) hi
  rw [← hnew, ← hold, hrest, Function.update_self]
  exact add_right_comm _ _ _

/-- A part that balances what it gains and loses balances the sum. -/
theorem sum_balance {M : Type} [AddCancelCommMonoid M] [Fintype ι] (g : β → M) {f : ι → β} {i : ι}
    {v : β} {gain loss : M} (h : g v + loss = g (f i) + gain) :
    ∑ x, g (Function.update f i v x) + loss = ∑ x, g (f x) + gain := by
  have hsum := sum_update (Finset.mem_univ i) g f v
  refine add_right_cancel (b := g (f i)) ?_
  rw [add_right_comm, hsum, add_assoc, h, add_assoc, add_comm gain]

theorem sum_update_of_notMem {M : Type} [AddCommMonoid M] {s : Finset ι} {i : ι} (hi : i ∉ s)
    (g : β → M) (f : ι → β) (v : β) :
    ∑ x ∈ s, g (Function.update f i v x) = ∑ x ∈ s, g (f x) := by
  refine Finset.sum_congr rfl fun x hx => ?_
  have hne : x ≠ i := by
    rintro rfl
    exact hi hx
  rw [Function.update_of_ne hne]

end Trace
