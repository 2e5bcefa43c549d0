/-
  The retry policy of `reliability.rs`.

  1. **Program** — `execute` calls its function until it succeeds or the attempts are used up, and sleeps
     between two calls; the delay is doubled in `f64` milliseconds and cut to `max_delay`.  A run is
     given by what the calls come to, and returns its outcome, the number of calls and the sleeps.

  2. **Doubling** — `as f64` rounds to 53 bits (`asF64`).  A delay that is long enough to be rounded is
     far beyond the 30 s of `max_delay`, so no rounding is ever seen (`nextDelay_new`).

  3. **The schedule (`retry_schedule`)** — the first sleep is the base delay as it was given, neither cut
     to whole milliseconds nor to `max_delay`; from the second on it is a power of two times its whole
     milliseconds, up to 30 s.
-/
import Mathlib.Algebra.Order.BigOperators.Group.List
import Mathlib.Data.List.Range
import Mathlib.Tactic.Ring

namespace FloatProtocols

/-! ## Program -/

/-- `RetryPolicy`, with its delays in nanoseconds; the `backoff_factor` of every policy is 2. -/
structure RetryPolicy where
  maxAttempts : UInt32
  baseDelay : Nat
  maxDelay : Nat

namespace RetryPolicy

variable {ε α : Type}

/-- `RetryPolicy::new`. -/
def new (maxAttempts : UInt32) (baseDelay : Nat) : RetryPolicy :=
  { maxAttempts, baseDelay, maxDelay := 30000000000 }

/-- An integer `as f64`: 53 bits of it, to nearest, ties to even. -/
def asF64 (n : Nat) : Nat :=
  let unit := 2 ^ (n.log2 - 52)
  let kept := n / unit
  let rest := n % unit
  if unit < 2 * rest ∨ (2 * rest = unit ∧ kept % 2 = 1) then (kept + 1) * unit else kept * unit

/-- `min(Duration::from_millis((delay.as_millis() as f64 * self.backoff_factor) as u64), self.max_delay)`;
    the cast back saturates. -/
def nextDelay (p : RetryPolicy) (delay : Nat) : Nat :=
  min (min (asF64 (delay / 1000000) * 2) (2 ^ 64 - 1) * 1000000) p.maxDelay

/-- What a run comes to. -/
structure Retried (ε α : Type) where
  outcome : Except ε α
  calls : Nat
  sleeps : List Nat

/-- The loop of `execute`, behind `attempt` calls; `f i` is what call `i` comes to. -/
def loop (p : RetryPolicy) (f : Nat → Except ε α) (attempt delay : Nat) : Retried ε α :=
  match f attempt with
  | .ok a => { outcome := .ok a, calls := attempt + 1, sleeps := [] }
  | .error e =>
    if p.maxAttempts.toNat ≤ attempt + 1 then { outcome := .error e, calls := attempt + 1, sleeps := [] }
    else
      let r := p.loop f (attempt + 1) (p.nextDelay delay)
      { r with sleeps := delay :: r.sleeps }
termination_by p.maxAttempts.toNat - attempt

/-- `execute`. -/
def execute (p : RetryPolicy) (f : Nat → Except ε α) : Retried ε α := p.loop f 0 p.baseDelay

/-! ## Doubling -/

theorem asF64_of_lt {n : Nat} (h : n < 2 ^ 53) : asF64 n = n := by
  have hzero : n.log2 - 52 = 0 := by
    rcases Nat.eq_zero_or_pos n with rfl | hpos
    · rfl
    · have := (Nat.log2_lt hpos.ne').mpr h
      omega
  rw [asF64, hzero]
  simp [Nat.mod_one]

/-- Rounding does not take a number below `2 ^ 53` that was not. -/
theorem le_asF64 {n : Nat} (h : 2 ^ 53 ≤ n) : 2 ^ 53 ≤ asF64 n := by
  have hpos : n ≠ 0 := by
    rintro rfl
    exact absurd h (by decide)
  have hlog : 53 ≤ n.log2 := (Nat.le_log2 hpos).mpr h
  obtain ⟨s, hs⟩ : ∃ s, n.log2 - 52 = s + 1 := ⟨n.log2 - 53, by omega⟩
  have hkept : 2 ^ 52 ≤ n / 2 ^ (s + 1) := by
    rw [Nat.le_div_iff_mul_le (Nat.two_pow_pos _), ← Nat.pow_add]
    have hself := Nat.log2_self_le hpos
    rwa [show n.log2 = 52 + (s + 1) by omega] at hself
  have hdown : 2 ^ 53 ≤ n / 2 ^ (s + 1) * 2 ^ (s + 1) :=
    calc 2 ^ 53 = 2 ^ 52 * 2 ^ 1 := by norm_num
      _ ≤ n / 2 ^ (s + 1) * 2 ^ (s + 1) :=
        Nat.mul_le_mul hkept (Nat.pow_le_pow_right (by decide) (by omega))
  rw [asF64, hs]
  split
  · exact hdown.trans (Nat.mul_le_mul_right _ (Nat.le_succ _))
  · exact hdown

/-- Below 2 ^ 53 ms nothing is rounded, above it 30 s are less than half. -/
theorem nextDelay_new (maxAttempts : UInt32) (baseDelay delay : Nat) :
    (new maxAttempts baseDelay).nextDelay delay = min (2 * (delay / 1000000)) 30000 * 1000000 := by
  have hmax : (new maxAttempts baseDelay).maxDelay = 30000000000 := rfl
  rw [nextDelay, hmax]
  generalize delay / 1000000 = ms
  rcases Nat.lt_or_ge ms (2 ^ 53) with hlt | hge
  · rw [asF64_of_lt hlt]
    omega
  · have hround := le_asF64 hge
    generalize asF64 ms = rounded at *
    omega

/-! ## The schedule -/

/-- The sleep behind call `i`. -/
def wait (baseDelay : Nat) : Nat → Nat
  | 0 => baseDelay
  | i + 1 => min (2 ^ (i + 1) * (baseDelay / 1000000)) 30000 * 1000000

theorem nextDelay_wait (maxAttempts : UInt32) (baseDelay i : Nat) :
    (new maxAttempts baseDelay).nextDelay (wait baseDelay i) = wait baseDelay (i + 1) := by
  rw [nextDelay_new]
  cases i with
  | zero => rfl
  | succ i =>
    have hdouble : 2 ^ (i + 1 + 1) * (baseDelay / 1000000) =
        2 * (2 ^ (i + 1) * (baseDelay / 1000000)) := by ring
    rw [wait, wait, hdouble, Nat.mul_div_cancel _ (by decide)]
    generalize 2 ^ (i + 1) * (baseDelay / 1000000) = ms
    omega

/-- The run stops behind call `last`: the first that succeeds, or the last that is allowed. -/
structure StopsAt (maxAttempts : UInt32) (f : Nat → Except ε α) (attempt last : Nat) : Prop where
  le : attempt ≤ last
  failed : ∀ i, attempt ≤ i → i < last → ∃ e, f i = .error e
  allowed : last = attempt ∨ last < maxAttempts.toNat
  done : (∃ e, f last = .error e) → maxAttempts.toNat ≤ last + 1

/-- **The loop from any attempt on** — by induction on the attempts that are left. -/
theorem loop_spec (maxAttempts : UInt32) (baseDelay : Nat) (f : Nat → Except ε α) :
    ∀ left attempt, maxAttempts.toNat - attempt = left →
      ∃ last, StopsAt maxAttempts f attempt last ∧
        (new maxAttempts baseDelay).loop f attempt (wait baseDelay attempt) =
          { outcome := f last, calls := last + 1
            sleeps := (List.range' attempt (last - attempt)).map (wait baseDelay) } := by
  intro left
  induction left using Nat.strong_induction_on with
  | _ left ih =>
    intro attempt hleft
    have hmax : (new maxAttempts baseDelay).maxAttempts = maxAttempts := rfl
    rw [loop, hmax]
    cases hf : f attempt with
    | ok a =>
      refine ⟨attempt, ⟨Nat.le_refl _, fun i hi hi' => by omega, .inl rfl, ?_⟩, ?_⟩
      · rintro ⟨e, he⟩
        rw [hf] at he
        cases he
      · rw [hf, Nat.sub_self]
        rfl
    | error e =>
      by_cases hlast : maxAttempts.toNat ≤ attempt + 1
      · refine ⟨attempt, ⟨Nat.le_refl _, fun i hi hi' => by omega, .inl rfl, fun _ => hlast⟩, ?_⟩
        rw [hf, Nat.sub_self]
        simp only [if_pos hlast]
        rfl
      · obtain ⟨last, ⟨hle, hfailed, hallowed, hdone⟩, hloop⟩ :=
          ih (maxAttempts.toNat - (attempt + 1)) (by omega) (attempt + 1) rfl
        refine ⟨last, ⟨by omega, fun i hi hi' => ?_, .inr (by omega), hdone⟩, ?_⟩
        · rcases Nat.eq_or_lt_of_le hi with rfl | hlt
          · exact ⟨e, hf⟩
          · exact hfailed i hlt hi'
        · have hrange : last - attempt = last - (attempt + 1) + 1 := by omega
          simp only [if_neg hlast, nextDelay_wait, hloop, hrange, List.range'_succ, List.map_cons]

theorem wait_succ_le (baseDelay i : Nat) : wait baseDelay (i + 1) ≤ 30000000000 := by
  rw [wait]
  omega

/-- **What a retried operation costs.**  For every policy and whatever the calls come to, `execute`
    returns behind the first call that succeeds, or with the error of call number
    `max 1 max_attempts`; it has slept the schedule in between, and no longer than the base delay and
    30 s for each further call. -/
theorem retry_schedule (maxAttempts : UInt32) (baseDelay : Nat) (f : Nat → Except ε α) :
    ∃ last < max 1 maxAttempts.toNat,
      (∀ i < last, ∃ e, f i = .error e) ∧
      ((∃ e, f last = .error e) → last + 1 = max 1 maxAttempts.toNat) ∧
      (new maxAttempts baseDelay).execute f =
        { outcome := f last, calls := last + 1, sleeps := (List.range last).map (wait baseDelay) } ∧
      ((List.range last).map (wait baseDelay)).sum ≤ baseDelay + (last - 1) * 30000000000 := by
  obtain ⟨last, ⟨-, hfailed, hallowed, hdone⟩, hloop⟩ := loop_spec maxAttempts baseDelay f _ 0 rfl
  refine ⟨last, by omega, fun i hi => hfailed i (Nat.zero_le i) hi, fun he => ?_, ?_, ?_⟩
  · have := hdone he
    omega
  · rw [execute, List.range_eq_range']
    exact hloop
  · cases last with
    | zero => exact Nat.zero_le _
    | succ n =>
      rw [List.range_succ_eq_map, List.map_cons, List.sum_cons, List.map_map, Nat.add_sub_cancel]
      refine Nat.add_le_add_left ?_ _
      have hsum := List.sum_le_card_nsmul ((List.range n).map (wait baseDelay ∘ Nat.succ)) 30000000000
        (by
          intro x hx
          obtain ⟨i, -, rfl⟩ := List.mem_map.mp hx
          exact wait_succ_le baseDelay i)
      rwa [List.length_map, List.length_range, Nat.nsmul_eq_mul] at hsum

-- the gateway's policy, 3 attempts from 100 ms: its two sleeps
example : (List.range 2).map (wait 100000000) = [100000000, 200000000] := by decide

end RetryPolicy

end FloatProtocols
