/-
  The circuit breaker of `reliability.rs`, one call after the other.

  1. **Program** — `call` as the source runs it when nothing overlaps: the state is read ONCE at
     entry, and that reading decides the recovery check, the half-open limiter and the accounting at
     the end.  A call takes two readings of the elapsed-since-startup clock, one in the recovery
     check and one in `onFailure`.

  2. **Specification** — a run is judged by its log alone: which calls were rejected, which
     succeeded, which failed and when.  `failures log` counts the failures since the last success,
     `lastFailed log` is the time of the latest one.

  3. **The crux (`View.call`)** — four separate atomics have to move together.  `View` ties them to
     the log: Open exactly from `max 1 failureThreshold` failures on, Closed otherwise — so HalfOpen
     never survives a call — with the counter equal to `failures log` and no half-open call left
     over.  A failing probe reopens because the counter was NOT reset when the breaker went HalfOpen.
-/
import Mathlib.Algebra.Group.Nat.Defs
import Mathlib.Data.List.Induction
import Mathlib.Tactic.Tauto

namespace FloatProtocols

/-! ## Data -/

/-- `CircuitState`. -/
inductive CircuitState where
  | closed
  | open
  | halfOpen
  deriving DecidableEq, Repr

/-- `CircuitBreakerError`. -/
inductive CircuitBreakerError (ε : Type) where
  | open
  | inner (e : ε)
  deriving DecidableEq, Repr

namespace CircuitBreaker

/-- The two settings of a breaker; `recoveryTimeout` in nanoseconds, as `Duration` keeps it. -/
structure Config where
  failureThreshold : UInt32
  recoveryTimeout : Nat

/-- The four atomics of a breaker. -/
structure Breaker where
  state : CircuitState
  failureCount : UInt32
  lastFailureTime : UInt64
  halfOpenCalls : UInt32
  deriving DecidableEq, Repr

/-- `CircuitBreaker::new`. -/
def new : Breaker := { state := .closed, failureCount := 0, lastFailureTime := 0, halfOpenCalls := 0 }

/-- `elapsed > self.recovery_timeout`, with `elapsed` in wrapping u64 milliseconds. -/
def recovered (cfg : Config) (now lastFailure : UInt64) : Bool :=
  (now - lastFailure).toNat * 1000000 > cfg.recoveryTimeout

/-- `on_success`. -/
def onSuccess (b : Breaker) : Breaker := { b with failureCount := 0, state := .closed }

/-- `on_failure`. -/
def onFailure (cfg : Config) (b : Breaker) (now : UInt64) : Breaker :=
  let count := b.failureCount + 1
  let b := { b with failureCount := count, lastFailureTime := now }
  if count ≥ cfg.failureThreshold then { b with state := .open } else b

/-- One invocation: the clock at its recovery check, the clock at its completion, and what its
    future comes to if it is run. -/
structure Invocation (ε α : Type) where
  checked : UInt64
  completed : UInt64
  outcome : Except ε α

variable {ε α : Type}

/-- The half-open accounting at the end of a call; `seen` is the state read at entry. -/
def leave (seen : CircuitState) (b : Breaker) : Breaker :=
  if seen = .halfOpen then { b with halfOpenCalls := b.halfOpenCalls - 1 } else b

/-- The future has been awaited. -/
def finish (cfg : Config) (b : Breaker) (seen : CircuitState) (c : Invocation ε α) :
    Except (CircuitBreakerError ε) α × Breaker :=
  match c.outcome with
  | .ok a => (.ok a, leave seen (onSuccess b))
  | .error e => (.error (.inner e), leave seen (onFailure cfg b c.completed))

/-- `call`. -/
def call (cfg : Config) (b : Breaker) (c : Invocation ε α) :
    Except (CircuitBreakerError ε) α × Breaker :=
  match b.state with
  | .closed => finish cfg b .closed c
  | .open =>
    if recovered cfg c.checked b.lastFailureTime then
      finish cfg { b with state := .halfOpen } .open c
    else (.error .open, b)
  | .halfOpen =>
    if b.halfOpenCalls > 0 then (.error .open, b)
    else finish cfg { b with halfOpenCalls := b.halfOpenCalls + 1 } .halfOpen c

/-! ## Runs and their logs -/

/-- What a caller saw of a call. -/
inductive Report where
  | rejected
  | succeeded
  | failed (time : UInt64)
  deriving DecidableEq, Repr

/-- The log entry of a call; only a rejection did not run the future. -/
def report (c : Invocation ε α) : Except (CircuitBreakerError ε) α → Report
  | .ok _ => .succeeded
  | .error .open => .rejected
  | .error (.inner _) => .failed c.completed

/-- The breaker and the log after a run of calls. -/
def runCalls (cfg : Config) (calls : List (Invocation ε α)) : Breaker × List Report :=
  calls.foldl (fun s c => ((call cfg s.1 c).2, s.2 ++ [report c (call cfg s.1 c).1])) (new, [])

/-- Consecutive failures since the last success. -/
def failures (log : List Report) : Nat :=
  log.foldl (fun n r =>
    match r with
    | .rejected => n
    | .succeeded => 0
    | .failed _ => n + 1) 0

/-- The time of the last failure. -/
def lastFailed (log : List Report) : UInt64 :=
  log.foldl (fun t r =>
    match r with
    | .rejected => t
    | .succeeded => t
    | .failed time => time) 0

/-- The clock does not run backwards through the calls. -/
def Timely : UInt64 → List (Invocation ε α) → Prop
  | _, [] => True
  | now, c :: calls => now ≤ c.checked ∧ c.checked ≤ c.completed ∧ Timely c.completed calls

/-- The clock at the end of the calls. -/
def clockAfter : UInt64 → List (Invocation ε α) → UInt64
  | now, [] => now
  | _, c :: calls => clockAfter c.completed calls

/-- At no point of the run are there 2^32 failures in a row. -/
def FewFailures (cfg : Config) (calls : List (Invocation ε α)) : Prop :=
  ∀ pre, pre <+: calls → failures (runCalls cfg pre).2 < 2 ^ 32

/-! ### The log grows by one report a call -/

theorem runCalls_concat (cfg : Config) (calls : List (Invocation ε α)) (c : Invocation ε α) :
    runCalls cfg (calls ++ [c]) =
      ((call cfg (runCalls cfg calls).1 c).2,
       (runCalls cfg calls).2 ++ [report c (call cfg (runCalls cfg calls).1 c).1]) := by
  rw [runCalls, List.foldl_append]
  rfl

@[simp] theorem failures_rejected (log : List Report) :
    failures (log ++ [.rejected]) = failures log := by
  rw [failures, List.foldl_append]
  rfl

@[simp] theorem failures_succeeded (log : List Report) : failures (log ++ [.succeeded]) = 0 := by
  rw [failures, List.foldl_append]
  rfl

@[simp] theorem failures_failed (log : List Report) (time : UInt64) :
    failures (log ++ [.failed time]) = failures log + 1 := by
  rw [failures, List.foldl_append]
  rfl

@[simp] theorem lastFailed_rejected (log : List Report) :
    lastFailed (log ++ [.rejected]) = lastFailed log := by
  rw [lastFailed, List.foldl_append]
  rfl

@[simp] theorem lastFailed_succeeded (log : List Report) :
    lastFailed (log ++ [.succeeded]) = lastFailed log := by
  rw [lastFailed, List.foldl_append]
  rfl

@[simp] theorem lastFailed_failed (log : List Report) (time : UInt64) :
    lastFailed (log ++ [.failed time]) = time := by
  rw [lastFailed, List.foldl_append]
  rfl

/-! ## The breaker is a view of its log -/

/-- Enough failures in a row to be open; one is needed even under a threshold of 0. -/
def Tripped (cfg : Config) (log : List Report) : Prop :=
  max 1 cfg.failureThreshold.toNat ≤ failures log

instance (cfg : Config) (log : List Report) : Decidable (Tripped cfg log) :=
  inferInstanceAs (Decidable (_ ≤ _))

theorem tripped_rejected {cfg : Config} {log : List Report} :
    Tripped cfg (log ++ [.rejected]) ↔ Tripped cfg log := by
  rw [Tripped, Tripped, failures_rejected]

theorem not_tripped_succeeded {cfg : Config} {log : List Report} :
    ¬ Tripped cfg (log ++ [.succeeded]) := by
  rw [Tripped, failures_succeeded]
  omega

theorem tripped_failed {cfg : Config} {log : List Report} {time : UInt64} :
    Tripped cfg (log ++ [.failed time]) ↔ cfg.failureThreshold.toNat ≤ failures log + 1 := by
  rw [Tripped, failures_failed]
  omega

theorem Tripped.mono {cfg : Config} {log : List Report} (h : Tripped cfg log) (time : UInt64) :
    Tripped cfg (log ++ [.failed time]) := by
  rw [Tripped] at h ⊢
  rw [failures_failed]
  omega

/-- Between calls the four atomics are determined by the log. -/
structure View (cfg : Config) (now : UInt64) (log : List Report) (b : Breaker) : Prop where
  state : b.state = if Tripped cfg log then .open else .closed
  count : b.failureCount.toNat = failures log
  last : b.lastFailureTime = lastFailed log
  past : b.lastFailureTime ≤ now
  idle : b.halfOpenCalls = 0

theorem view_new (cfg : Config) : View cfg 0 [] new where
  state := by
    rw [if_neg]
    · rfl
    · show ¬ max 1 cfg.failureThreshold.toNat ≤ 0
      omega
  count := rfl
  last := rfl
  past := by decide
  idle := rfl

/-- On a breaker as its log says, a call is rejected exactly when it is open and the timeout has not
    passed; otherwise its future runs, and the call read Open or Closed. -/
theorem View.call_cases {cfg : Config} {now : UInt64} {log : List Report} {b : Breaker}
    (hv : View cfg now log b) {c : Invocation ε α} (hc : now ≤ c.checked) :
    (Tripped cfg log ∧
      (c.checked.toNat - (lastFailed log).toNat) * 1000000 ≤ cfg.recoveryTimeout ∧
      call cfg b c = (.error .open, b)) ∨
    (Tripped cfg log ∧
      ¬ (c.checked.toNat - (lastFailed log).toNat) * 1000000 ≤ cfg.recoveryTimeout ∧
      call cfg b c = finish cfg { b with state := .halfOpen } .open c) ∨
    (¬ Tripped cfg log ∧ call cfg b c = finish cfg b .closed c) := by
  by_cases ht : Tripped cfg log
  · have hstate : b.state = .open := hv.state.trans (if_pos ht)
    have hle : b.lastFailureTime ≤ c.checked := UInt64.le_trans hv.past hc
    have helapsed : (c.checked - b.lastFailureTime).toNat
        = c.checked.toNat - (lastFailed log).toNat := by
      rw [UInt64.toNat_sub_of_le _ _ hle, hv.last]
    have hrec : recovered cfg c.checked b.lastFailureTime = true ↔
        ¬ (c.checked.toNat - (lastFailed log).toNat) * 1000000 ≤ cfg.recoveryTimeout := by
      rw [recovered, helapsed, decide_eq_true_iff]
      omega
    rw [call, hstate]
    by_cases hr : recovered cfg c.checked b.lastFailureTime
    · exact Or.inr (Or.inl ⟨ht, hrec.mp hr, if_pos hr⟩)
    · exact Or.inl ⟨ht, not_not.mp fun h => hr (hrec.mpr h), if_neg hr⟩
  · have hstate : b.state = .closed := hv.state.trans (if_neg ht)
    rw [call, hstate]
    exact Or.inr (Or.inr ⟨ht, rfl⟩)

/-- `on_failure` with no wrap-around: the counter goes up, the timer restarts, and the state is Open
    from the threshold on. -/
theorem onFailure_spec (cfg : Config) (b : Breaker) (now : UInt64)
    (h : b.failureCount.toNat + 1 < 2 ^ 32) :
    (onFailure cfg b now).failureCount.toNat = b.failureCount.toNat + 1 ∧
    (onFailure cfg b now).lastFailureTime = now ∧
    (onFailure cfg b now).halfOpenCalls = b.halfOpenCalls ∧
    (onFailure cfg b now).state =
      if cfg.failureThreshold.toNat ≤ b.failureCount.toNat + 1 then .open else b.state := by
  have hcount : (b.failureCount + 1).toNat = b.failureCount.toNat + 1 := by
    rw [UInt32.toNat_add]
    exact Nat.mod_eq_of_lt h
  have hge : b.failureCount + 1 ≥ cfg.failureThreshold ↔
      cfg.failureThreshold.toNat ≤ b.failureCount.toNat + 1 := by
    rw [ge_iff_le, UInt32.le_iff_toNat_le, hcount]
  rw [onFailure]
  by_cases ht : cfg.failureThreshold.toNat ≤ b.failureCount.toNat + 1
  · rw [if_pos (hge.mpr ht), if_pos ht]
    exact ⟨hcount, rfl, rfl, rfl⟩
  · rw [if_neg (fun h => ht (hge.mp h)), if_neg ht]
    exact ⟨hcount, rfl, rfl, rfl⟩

/-- Running the future keeps the breaker in step with the log, from Closed as from a probe. -/
theorem finish_view {cfg : Config} {now : UInt64} {log : List Report} {b : Breaker}
    {seen : CircuitState} {c : Invocation ε α} (hseen : seen ≠ .halfOpen)
    (hstate : b.state = .closed ∨ Tripped cfg log) (hcount : b.failureCount.toNat = failures log)
    (hlast : b.lastFailureTime = lastFailed log) (hpast : b.lastFailureTime ≤ now)
    (hidle : b.halfOpenCalls = 0) (hc : now ≤ c.completed)
    (hfew : failures (log ++ [report c (finish cfg b seen c).1]) < 2 ^ 32) :
    View cfg c.completed (log ++ [report c (finish cfg b seen c).1]) (finish cfg b seen c).2 := by
  have hleave : ∀ b', leave seen b' = b' := fun b' => if_neg hseen
  rw [finish] at hfew ⊢
  cases hout : c.outcome with
  | ok a =>
    simp only [report, hleave]
    refine ⟨?_, ?_, ?_, UInt64.le_trans hpast hc, hidle⟩
    · rw [if_neg not_tripped_succeeded]
      rfl
    · rw [failures_succeeded]
      rfl
    · rw [lastFailed_succeeded]
      exact hlast
  | error e =>
    simp only [hout, report, failures_failed] at hfew
    obtain ⟨hc', ht', hi', hs'⟩ := onFailure_spec cfg b c.completed (by omega)
    simp only [report, hleave]
    refine ⟨?_, ?_, ?_, ?_, hi'.trans hidle⟩
    · rw [hs', hcount]
      by_cases ht : cfg.failureThreshold.toNat ≤ failures log + 1
      · rw [if_pos ht, if_pos (tripped_failed.mpr ht)]
      · rw [if_neg ht, if_neg (fun h => ht (tripped_failed.mp h))]
        -- below the threshold the breaker was not open, so this was no probe
        exact hstate.resolve_right fun h => ht (tripped_failed.mp (h.mono c.completed))
    · rw [hc', failures_failed, hcount]
    · rw [ht', lastFailed_failed]
    · rw [ht']
      exact UInt64.le_refl _

/-- **One call keeps breaker and log together.** -/
theorem View.call {cfg : Config} {now : UInt64} {log : List Report} {b : Breaker}
    (hv : View cfg now log b) {c : Invocation ε α} (hc : now ≤ c.checked)
    (hc' : c.checked ≤ c.completed)
    (hfew : failures (log ++ [report c (call cfg b c).1]) < 2 ^ 32) :
    View cfg c.completed (log ++ [report c (call cfg b c).1]) (call cfg b c).2 := by
  have hnow : now ≤ c.completed := UInt64.le_trans hc hc'
  rcases hv.call_cases hc with ⟨-, -, h⟩ | ⟨ht, -, h⟩ | ⟨ht, h⟩
  · rw [h]
    refine ⟨?_, ?_, ?_, UInt64.le_trans hv.past hnow, hv.idle⟩
    · rw [report, hv.state]
      exact if_congr tripped_rejected.symm rfl rfl
    · rw [report, failures_rejected]
      exact hv.count
    · rw [report, lastFailed_rejected]
      exact hv.last
  · rw [h] at hfew ⊢
    exact finish_view (by decide) (Or.inr ht) hv.count hv.last hv.past hv.idle hnow hfew
  · rw [h] at hfew ⊢
    exact finish_view (by decide) (Or.inl (hv.state.trans (if_neg ht))) hv.count hv.last hv.past
      hv.idle hnow hfew

theorem timely_concat (c : Invocation ε α) : ∀ (now : UInt64) (calls : List (Invocation ε α)),
    Timely now (calls ++ [c]) ↔
      Timely now calls ∧ clockAfter now calls ≤ c.checked ∧ c.checked ≤ c.completed
  | now, [] => by simp [Timely, clockAfter]
  | now, d :: calls => by
    rw [List.cons_append, Timely, Timely, clockAfter, timely_concat c d.completed calls]
    tauto

theorem clockAfter_concat (c : Invocation ε α) : ∀ (now : UInt64) (calls : List (Invocation ε α)),
    clockAfter now (calls ++ [c]) = c.completed
  | _, [] => rfl
  | _, d :: calls => clockAfter_concat c d.completed calls

/-- **So does a whole run** — by induction on its end, one call at a time. -/
theorem view_runCalls (cfg : Config) (calls : List (Invocation ε α)) (ht : Timely 0 calls)
    (hf : FewFailures cfg calls) :
    View cfg (clockAfter 0 calls) (runCalls cfg calls).2 (runCalls cfg calls).1 := by
  induction calls using List.reverseRecOn with
  | nil => exact view_new cfg
  | append_singleton calls c ih =>
    obtain ⟨ht, hnow, hc⟩ := (timely_concat c 0 calls).mp ht
    have hv := ih ht fun pre hpre => hf pre (hpre.trans (List.prefix_append ..))
    have hfew := hf _ (List.prefix_refl _)
    rw [runCalls_concat] at hfew ⊢
    rw [clockAfter_concat]
    exact hv.call hnow hc hfew

/-- **The breaker between calls, and the next call.**  After any run of non-overlapping calls it is
    Open from `max 1 failureThreshold` failures in a row on and Closed before; an open breaker
    rejects the next call exactly while at most the recovery timeout has passed since the last
    failure; a probe that succeeds closes it with no failures counted, one that fails leaves it open
    with the timer restarted. -/
theorem breaker_between_calls (cfg : Config) (calls : List (Invocation ε α)) (ht : Timely 0 calls)
    (hf : FewFailures cfg calls) :
    let b := (runCalls cfg calls).1
    let log := (runCalls cfg calls).2
    b.state = (if max 1 cfg.failureThreshold.toNat ≤ failures log then .open else .closed) ∧
    ∀ c : Invocation ε α, clockAfter 0 calls ≤ c.checked →
      ((call cfg b c).1 = .error .open ↔ b.state = .open ∧
        (c.checked.toNat - (lastFailed log).toNat) * 1000000 ≤ cfg.recoveryTimeout) ∧
      (b.state = .open → (call cfg b c).1 ≠ .error .open →
        (∀ a, c.outcome = .ok a → (call cfg b c).1 = .ok a ∧
          (call cfg b c).2.state = .closed ∧ (call cfg b c).2.failureCount = 0) ∧
        (∀ e, c.outcome = .error e → failures log + 1 < 2 ^ 32 →
          (call cfg b c).1 = .error (.inner e) ∧
          (call cfg b c).2.state = .open ∧ (call cfg b c).2.lastFailureTime = c.completed)) := by
  intro b log
  have hv := view_runCalls cfg calls ht hf
  refine ⟨hv.state, fun c hc => ?_⟩
  have hopen : b.state = .open ↔ Tripped cfg log := by
    rw [hv.state]
    by_cases h : Tripped cfg log
    · exact iff_of_true (if_pos h) h
    · exact iff_of_false (by rw [if_neg h]; decide) h
  have hran : ∀ (b' : Breaker) (seen : CircuitState), (finish cfg b' seen c).1 ≠ .error .open := by
    intro b' seen
    rw [finish]
    cases c.outcome with
    | ok a => simp
    | error e => simp
  rcases hv.call_cases hc with ⟨htrip, hle, h⟩ | ⟨htrip, hgt, h⟩ | ⟨htrip, h⟩
  · rw [h]
    exact ⟨iff_of_true rfl ⟨hopen.mpr htrip, hle⟩, fun _ hne => absurd rfl hne⟩
  · rw [h]
    refine ⟨iff_of_false (hran _ _) fun hle => hgt hle.2, fun _ _ => ⟨fun a ha => ?_, ?_⟩⟩
    · rw [finish, ha]
      exact ⟨rfl, rfl, rfl⟩
    · intro e he hfew
      rw [← hv.count] at hfew
      obtain ⟨-, htime, -, hstate⟩ := onFailure_spec cfg { b with state := .halfOpen } c.completed hfew
      rw [finish, he]
      refine ⟨rfl, hstate.trans (if_pos ?_), htime⟩
      have hthr := tripped_failed.mp (htrip.mono c.completed)
      rwa [← hv.count] at hthr
  · rw [h]
    have hclosed : ¬ b.state = .open := fun ho => htrip (hopen.mp ho)
    exact ⟨iff_of_false (hran _ _) fun ho => hclosed ho.1, fun ho => absurd ho hclosed⟩

/-- A call whose future fails at time 3. -/
def failingCall : Invocation Unit Unit := ⟨1, 3, .error ()⟩

/-- Threshold 1, timeout 0: one failure at time 3 opens, and a call at time 3 is rejected. -/
theorem breaker_between_calls_one_failure :
    (call ⟨1, 0⟩ (runCalls ⟨1, 0⟩ [failingCall]).1 ⟨3, 3, .ok ()⟩).1
      = .error (.open : CircuitBreakerError Unit) := by
  have hfew : FewFailures ⟨1, 0⟩ [failingCall] := by
    intro pre hpre
    rcases List.prefix_cons_iff.mp hpre with rfl | ⟨t, rfl, ht⟩
    · decide
    · rw [List.prefix_nil.mp ht]
      decide
  have h := breaker_between_calls ⟨1, 0⟩ [failingCall] ⟨by decide, by decide, trivial⟩ hfew
  exact (h.2 ⟨3, 3, .ok ()⟩ (by decide)).1.mpr ⟨h.1.trans (by decide), by decide⟩

end CircuitBreaker

end FloatProtocols
