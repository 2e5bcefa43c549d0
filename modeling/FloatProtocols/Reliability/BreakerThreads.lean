/-
  The circuit breaker under overlapping calls: one step per atomic operation.

  1. **Program** — a call is a thread with a program counter `Pc`; `move` is its next atomic load,
     store or fetch-and-add on the shared `Breaker`, or the completion of its future.  Calls may be
     dropped at their await (`cancel`).  `solo_call` is the bridge to the sequential model: a thread
     that runs alone does exactly what `call` says.

  2. **The window** — a ghost bit, set when a store takes the breaker from Open to HalfOpen and
     cleared when the future of a call that was admitted after Open completes.

  3. **The crux (`Inv.step`)** — the limiter counts only calls that READ HalfOpen, and the call that
     made the transition read Open; several calls can read Open before the first of them stores.  So
     nothing in the code keeps two futures from running (`two_probes_run`).  What does is the schedule:
     if every admission after Open finds no other call between its admission and its last write of
     the state (`Exclusive`), then in the window at most one future runs.
-/
import Mathlib.Logic.Function.Basic
import Mathlib.Data.Fintype.Basic
import FloatProtocols.Lib.Trace
import FloatProtocols.Reliability.Breaker

namespace FloatProtocols

namespace CircuitBreaker

/-! ## One call as a thread -/

/-- How a call ended. -/
inductive Verdict where
  | rejected
  | succeeded
  | failed
  | dropped
  deriving DecidableEq, Repr

/-- The operation a call is about to do; `seen` is the state it read at entry. -/
inductive Pc where
  | idle
  | loadState
  | loadFailureTime
  | checkClock (lastFailure : UInt64)
  | storeHalfOpen
  | addHalfOpen
  | undoHalfOpen
  | running (seen : CircuitState)
  | resetCount (seen : CircuitState)
  | storeClosed (seen : CircuitState)
  | addFailure (seen : CircuitState)
  | storeFailureTime (seen : CircuitState) (count : UInt32)
  | storeOpen (seen : CircuitState)
  | subHalfOpen (v : Verdict)
  | done (v : Verdict)
  deriving DecidableEq, Repr

/-- Behind `on_success` or `on_failure`: a call that read HalfOpen still counts itself out. -/
def Pc.exit (seen : CircuitState) (v : Verdict) : Pc :=
  if seen = .halfOpen then .subHalfOpen v else .done v

/-- What can happen to a call next; `now` is the clock, where the operation reads it. -/
inductive Move where
  | begin
  | op (now : UInt64)
  | complete (ok : Bool)
  | cancel
  deriving DecidableEq, Repr

/-- One atomic operation. -/
def atomic (cfg : Config) (now : UInt64) (b : Breaker) : Pc → Option (Pc × Breaker)
  | .loadState =>
    match b.state with
    | .closed => some (.running .closed, b)
    | .open => some (.loadFailureTime, b)
    | .halfOpen => some (.addHalfOpen, b)
  | .loadFailureTime => some (.checkClock b.lastFailureTime, b)
  | .checkClock lastFailure =>
    if recovered cfg now lastFailure then some (.storeHalfOpen, b) else some (.done .rejected, b)
  | .storeHalfOpen => some (.running .open, { b with state := .halfOpen })
  | .addHalfOpen =>
    some (if b.halfOpenCalls > 0 then .undoHalfOpen else .running .halfOpen,
      { b with halfOpenCalls := b.halfOpenCalls + 1 })
  | .undoHalfOpen => some (.done .rejected, { b with halfOpenCalls := b.halfOpenCalls - 1 })
  | .resetCount seen => some (.storeClosed seen, { b with failureCount := 0 })
  | .storeClosed seen => some (.exit seen .succeeded, { b with state := .closed })
  | .addFailure seen =>
    some (.storeFailureTime seen (b.failureCount + 1), { b with failureCount := b.failureCount + 1 })
  | .storeFailureTime seen count =>
    some (if count ≥ cfg.failureThreshold then .storeOpen seen else .exit seen .failed,
      { b with lastFailureTime := now })
  | .storeOpen seen => some (.exit seen .failed, { b with state := .open })
  | .subHalfOpen v => some (.done v, { b with halfOpenCalls := b.halfOpenCalls - 1 })
  | _ => none

/-- The next move of a call on the shared breaker. -/
def move (cfg : Config) (x : Pc × Breaker) : Move → Option (Pc × Breaker)
  | .begin => if x.1 = .idle then some (.loadState, x.2) else none
  | .op now => atomic cfg now x.2 x.1
  | .complete ok =>
    match x.1 with
    | .running seen => some (if ok then .resetCount seen else .addFailure seen, x.2)
    | _ => none
  | .cancel =>
    match x.1 with
    | .running _ => some (.done .dropped, x.2)
    | _ => none

/-! ## The bridge to the sequential model -/

variable {ε α : Type}

def verdict : Except (CircuitBreakerError ε) α → Verdict
  | .ok _ => .succeeded
  | .error .open => .rejected
  | .error (.inner _) => .failed

/-- The half-open accounting at the end, alone. -/
theorem solo_exit (cfg : Config) (b : Breaker) (seen : CircuitState) (v : Verdict) :
    ∃ moves, Trace.run (move cfg) (.exit seen v, b) moves = some (.done v, leave seen b) := by
  by_cases h : seen = .halfOpen
  · refine ⟨[.op 0], ?_⟩
    rw [Pc.exit, leave, if_pos h, if_pos h]
    rfl
  · refine ⟨[], ?_⟩
    rw [Pc.exit, leave, if_neg h, if_neg h]
    rfl

/-- From the await on, alone. -/
theorem solo_finish (cfg : Config) (b : Breaker) (seen : CircuitState) (c : Invocation ε α) :
    ∃ moves, Trace.run (move cfg) (.running seen, b) moves =
      some (.done (verdict (finish cfg b seen c).1), (finish cfg b seen c).2) := by
  rw [finish]
  cases c.outcome with
  | ok a =>
    obtain ⟨moves, hmoves⟩ := solo_exit cfg (onSuccess b) seen .succeeded
    exact ⟨.complete true :: .op 0 :: .op 0 :: moves, hmoves⟩
  | error e =>
    obtain ⟨moves, hmoves⟩ := solo_exit cfg (onFailure cfg b c.completed) seen .failed
    rw [onFailure] at hmoves ⊢
    by_cases ht : b.failureCount + 1 ≥ cfg.failureThreshold
    · rw [if_pos ht] at hmoves ⊢
      refine ⟨.complete false :: .op 0 :: .op c.completed :: .op 0 :: moves, ?_⟩
      rw [Trace.run_cons rfl, Trace.run_cons rfl, Trace.run_cons rfl, if_pos ht]
      exact hmoves
    · rw [if_neg ht] at hmoves ⊢
      refine ⟨.complete false :: .op 0 :: .op c.completed :: moves, ?_⟩
      rw [Trace.run_cons rfl, Trace.run_cons rfl, Trace.run_cons rfl, if_neg ht]
      exact hmoves

/-- **A call that runs alone is `call`.** -/
theorem solo_call (cfg : Config) (b : Breaker) (c : Invocation ε α) :
    ∃ moves, Trace.run (move cfg) (.idle, b) moves =
      some (.done (verdict (call cfg b c).1), (call cfg b c).2) := by
  obtain ⟨state, count, last, calls⟩ := b
  rw [call]
  cases state with
  | closed =>
    obtain ⟨moves, hmoves⟩ := solo_finish cfg ⟨.closed, count, last, calls⟩ .closed c
    exact ⟨.begin :: .op 0 :: moves, hmoves⟩
  | «open» =>
    by_cases hr : recovered cfg c.checked last
    · obtain ⟨moves, hmoves⟩ := solo_finish cfg ⟨.halfOpen, count, last, calls⟩ .open c
      refine ⟨.begin :: .op 0 :: .op 0 :: .op c.checked :: .op 0 :: moves, ?_⟩
      rw [Trace.run_cons rfl, Trace.run_cons rfl, Trace.run_cons rfl, Trace.run_cons (if_pos hr)]
      simp only [hr, if_true]
      exact hmoves
    · refine ⟨[.begin, .op 0, .op 0, .op c.checked], ?_⟩
      rw [Trace.run_cons rfl, Trace.run_cons rfl, Trace.run_cons rfl, Trace.run_cons (if_neg hr)]
      simp only [hr]
      rfl
  | halfOpen =>
    by_cases hc : calls > 0
    · refine ⟨[.begin, .op 0, .op 0, .op 0], ?_⟩
      have hback : calls + 1 - 1 = calls := UInt32.add_sub_cancel _ _
      rw [Trace.run_cons rfl, Trace.run_cons rfl, Trace.run_cons rfl]
      simp only [hc, if_true]
      show some (Pc.done .rejected, (⟨.halfOpen, count, last, calls + 1 - 1⟩ : Breaker)) = _
      rw [hback]
      rfl
    · obtain ⟨moves, hmoves⟩ := solo_finish cfg ⟨.halfOpen, count, last, calls + 1⟩ .halfOpen c
      refine ⟨.begin :: .op 0 :: .op 0 :: moves, ?_⟩
      rw [Trace.run_cons rfl, Trace.run_cons rfl, Trace.run_cons rfl]
      simp only [hc, if_false]
      exact hmoves

/-! ## Overlapping calls -/

/-- `n` calls on one breaker, with the ghost window. -/
structure Sys (n : Nat) where
  breaker : Breaker
  pc : Fin n → Pc
  window : Bool

variable {n : Nat}

/-- Nothing called yet. -/
def Sys.init (n : Nat) : Sys n := { breaker := new, pc := fun _ => .idle, window := false }

/-- The window opens with the store that takes the breaker from Open to HalfOpen, and closes when
    the future of a call admitted after Open completes. -/
def Sys.windowAfter (s : Sys n) (pc : Pc) (m : Move) : Bool :=
  match m, pc with
  | .op _, .storeHalfOpen => s.window || s.breaker.state == .open
  | .complete _, .running seen => s.window && seen == .closed
  | _, _ => s.window

/-- Call `i` moves. -/
def Sys.step (cfg : Config) (s : Sys n) (a : Fin n × Move) : Option (Sys n) :=
  (move cfg (s.pc a.1, s.breaker) a.2).map fun x =>
    { breaker := x.2, pc := Function.update s.pc a.1 x.1, window := s.windowAfter (s.pc a.1) a.2 }

/-- Behind its await, on the way through `on_success` or `on_failure`. -/
def Pc.finishing : Pc → Bool
  | .resetCount _ => true
  | .storeClosed _ => true
  | .addFailure _ => true
  | .storeFailureTime _ _ => true
  | .storeOpen _ => true
  | _ => false

/-- Between its admission and its last write of the state. -/
def Pc.engaged : Pc → Bool
  | .storeHalfOpen => true
  | .running _ => true
  | pc => pc.finishing

/-- No call but `i` is engaged. -/
def Sys.Alone (s : Sys n) (i : Fin n) : Prop := ∀ j, j ≠ i → (s.pc j).engaged = false

instance (s : Sys n) (i : Fin n) : Decidable (s.Alone i) :=
  inferInstanceAs (Decidable (∀ j, j ≠ i → (s.pc j).engaged = false))

/-- A call that passes the recovery check finds the breaker still Open and no other call engaged; so
    does, without the first, a call that the half-open limiter lets through. -/
def Exclusive (cfg : Config) (s : Sys n) (a : Fin n × Move) : Prop :=
  match a.2, s.pc a.1 with
  | .op now, .checkClock lastFailure =>
    recovered cfg now lastFailure → s.breaker.state = .open ∧ s.Alone a.1
  | .op _, .addHalfOpen => s.breaker.halfOpenCalls = 0 → s.Alone a.1
  | _, _ => True

instance (cfg : Config) (s : Sys n) (a : Fin n × Move) : Decidable (Exclusive cfg s a) := by
  unfold Exclusive
  split <;> infer_instance

/-! ## What a move can do -/

/-- Every move, with its guard. -/
inductive Moves (cfg : Config) : Move → Pc → Breaker → Pc → Breaker → Prop where
  | begin {b : Breaker} : Moves cfg .begin .idle b .loadState b
  | loadClosed {now : UInt64} {b : Breaker} (h : b.state = .closed) :
      Moves cfg (.op now) .loadState b (.running .closed) b
  | loadOpen {now : UInt64} {b : Breaker} (h : b.state = .open) :
      Moves cfg (.op now) .loadState b .loadFailureTime b
  | loadHalfOpen {now : UInt64} {b : Breaker} (h : b.state = .halfOpen) :
      Moves cfg (.op now) .loadState b .addHalfOpen b
  | loadFailureTime {now : UInt64} {b : Breaker} :
      Moves cfg (.op now) .loadFailureTime b (.checkClock b.lastFailureTime) b
  | pass {now lastFailure : UInt64} {b : Breaker} (h : recovered cfg now lastFailure) :
      Moves cfg (.op now) (.checkClock lastFailure) b .storeHalfOpen b
  | reject {now lastFailure : UInt64} {b : Breaker} (h : ¬ recovered cfg now lastFailure) :
      Moves cfg (.op now) (.checkClock lastFailure) b (.done .rejected) b
  | storeHalfOpen {now : UInt64} {b : Breaker} :
      Moves cfg (.op now) .storeHalfOpen b (.running .open) { b with state := .halfOpen }
  | letIn {now : UInt64} {b : Breaker} (h : b.halfOpenCalls = 0) :
      Moves cfg (.op now) .addHalfOpen b (.running .halfOpen)
        { b with halfOpenCalls := b.halfOpenCalls + 1 }
  | turnAway {now : UInt64} {b : Breaker} (h : b.halfOpenCalls ≠ 0) :
      Moves cfg (.op now) .addHalfOpen b .undoHalfOpen { b with halfOpenCalls := b.halfOpenCalls + 1 }
  | undoHalfOpen {now : UInt64} {b : Breaker} :
      Moves cfg (.op now) .undoHalfOpen b (.done .rejected)
        { b with halfOpenCalls := b.halfOpenCalls - 1 }
  | succeed {seen : CircuitState} {b : Breaker} :
      Moves cfg (.complete true) (.running seen) b (.resetCount seen) b
  | fail {seen : CircuitState} {b : Breaker} :
      Moves cfg (.complete false) (.running seen) b (.addFailure seen) b
  | cancel {seen : CircuitState} {b : Breaker} :
      Moves cfg .cancel (.running seen) b (.done .dropped) b
  | resetCount {now : UInt64} {seen : CircuitState} {b : Breaker} :
      Moves cfg (.op now) (.resetCount seen) b (.storeClosed seen) { b with failureCount := 0 }
  | storeClosed {now : UInt64} {seen : CircuitState} {b : Breaker} :
      Moves cfg (.op now) (.storeClosed seen) b (.exit seen .succeeded) { b with state := .closed }
  | addFailure {now : UInt64} {seen : CircuitState} {b : Breaker} :
      Moves cfg (.op now) (.addFailure seen) b (.storeFailureTime seen (b.failureCount + 1))
        { b with failureCount := b.failureCount + 1 }
  | reachThreshold {now : UInt64} {seen : CircuitState} {count : UInt32} {b : Breaker}
      (h : count ≥ cfg.failureThreshold) :
      Moves cfg (.op now) (.storeFailureTime seen count) b (.storeOpen seen)
        { b with lastFailureTime := now }
  | stayBelow {now : UInt64} {seen : CircuitState} {count : UInt32} {b : Breaker}
      (h : ¬ count ≥ cfg.failureThreshold) :
      Moves cfg (.op now) (.storeFailureTime seen count) b (.exit seen .failed)
        { b with lastFailureTime := now }
  | storeOpen {now : UInt64} {seen : CircuitState} {b : Breaker} :
      Moves cfg (.op now) (.storeOpen seen) b (.exit seen .failed) { b with state := .open }
  | subHalfOpen {now : UInt64} {v : Verdict} {b : Breaker} :
      Moves cfg (.op now) (.subHalfOpen v) b (.done v) { b with halfOpenCalls := b.halfOpenCalls - 1 }

section Atomic

variable {cfg : Config} {now : UInt64} {b : Breaker}

theorem atomic_loadState_closed (h : b.state = .closed) :
    atomic cfg now b .loadState = some (.running .closed, b) := by
  obtain ⟨state, count, last, calls⟩ := b
  obtain rfl : state = .closed := h
  rfl

theorem atomic_loadState_open (h : b.state = .open) :
    atomic cfg now b .loadState = some (.loadFailureTime, b) := by
  obtain ⟨state, count, last, calls⟩ := b
  obtain rfl : state = .open := h
  rfl

theorem atomic_loadState_halfOpen (h : b.state = .halfOpen) :
    atomic cfg now b .loadState = some (.addHalfOpen, b) := by
  obtain ⟨state, count, last, calls⟩ := b
  obtain rfl : state = .halfOpen := h
  rfl

theorem atomic_checkClock {lastFailure : UInt64} :
    atomic cfg now b (.checkClock lastFailure) =
      if recovered cfg now lastFailure then some (.storeHalfOpen, b) else some (.done .rejected, b) := rfl

theorem atomic_storeHalfOpen :
    atomic cfg now b .storeHalfOpen = some (.running .open, { b with state := .halfOpen }) := rfl

theorem atomic_addHalfOpen :
    atomic cfg now b .addHalfOpen =
      some (if b.halfOpenCalls > 0 then .undoHalfOpen else .running .halfOpen,
        { b with halfOpenCalls := b.halfOpenCalls + 1 }) := rfl

theorem atomic_done {v : Verdict} : atomic cfg now b (.done v) = none := rfl

end Atomic

theorem eq_zero_of_not_pos {x : UInt32} (h : ¬ x > 0) : x = 0 := by
  have hle : x.toNat ≤ 0 := UInt32.le_iff_toNat_le.mp (UInt32.not_lt.mp h)
  exact UInt32.toNat_inj.mp (Nat.le_zero.mp hle)

theorem atomic_moves {cfg : Config} {now : UInt64} {pc pc' : Pc} {b b' : Breaker}
    (h : atomic cfg now b pc = some (pc', b')) : Moves cfg (.op now) pc b pc' b' := by
  cases pc with
  | idle => cases h
  | loadState =>
    cases hstate : b.state with
    | closed =>
      rw [atomic_loadState_closed hstate] at h
      obtain ⟨rfl, rfl⟩ := Prod.mk.inj (Option.some.inj h)
      exact .loadClosed hstate
    | «open» =>
      rw [atomic_loadState_open hstate] at h
      obtain ⟨rfl, rfl⟩ := Prod.mk.inj (Option.some.inj h)
      exact .loadOpen hstate
    | halfOpen =>
      rw [atomic_loadState_halfOpen hstate] at h
      obtain ⟨rfl, rfl⟩ := Prod.mk.inj (Option.some.inj h)
      exact .loadHalfOpen hstate
  | loadFailureTime =>
    obtain ⟨rfl, rfl⟩ := Prod.mk.inj (Option.some.inj h)
    exact .loadFailureTime
  | checkClock lastFailure =>
    rw [atomic_checkClock] at h
    split at h
    · obtain ⟨rfl, rfl⟩ := Prod.mk.inj (Option.some.inj h)
      exact .pass ‹_›
    · obtain ⟨rfl, rfl⟩ := Prod.mk.inj (Option.some.inj h)
      exact .reject ‹_›
  | storeHalfOpen =>
    obtain ⟨rfl, rfl⟩ := Prod.mk.inj (Option.some.inj h)
    exact .storeHalfOpen
  | addHalfOpen =>
    obtain ⟨rfl, rfl⟩ := Prod.mk.inj (Option.some.inj h)
    by_cases hc : b.halfOpenCalls > 0
    · rw [if_pos hc]
      refine .turnAway fun hzero => ?_
      rw [hzero] at hc
      exact absurd hc (by decide)
    · rw [if_neg hc]
      exact .letIn (eq_zero_of_not_pos hc)
  | undoHalfOpen =>
    obtain ⟨rfl, rfl⟩ := Prod.mk.inj (Option.some.inj h)
    exact .undoHalfOpen
  | running seen => cases h
  | resetCount seen =>
    obtain ⟨rfl, rfl⟩ := Prod.mk.inj (Option.some.inj h)
    exact .resetCount
  | storeClosed seen =>
    obtain ⟨rfl, rfl⟩ := Prod.mk.inj (Option.some.inj h)
    exact .storeClosed
  | addFailure seen =>
    obtain ⟨rfl, rfl⟩ := Prod.mk.inj (Option.some.inj h)
    exact .addFailure
  | storeFailureTime seen count =>
    obtain ⟨rfl, rfl⟩ := Prod.mk.inj (Option.some.inj h)
    split
    · exact .reachThreshold ‹_›
    · exact .stayBelow ‹_›
  | storeOpen seen =>
    obtain ⟨rfl, rfl⟩ := Prod.mk.inj (Option.some.inj h)
    exact .storeOpen
  | subHalfOpen v =>
    obtain ⟨rfl, rfl⟩ := Prod.mk.inj (Option.some.inj h)
    exact .subHalfOpen
  | done v => cases h

theorem move_moves {cfg : Config} {m : Move} {pc pc' : Pc} {b b' : Breaker}
    (h : move cfg (pc, b) m = some (pc', b')) : Moves cfg m pc b pc' b' := by
  cases m with
  | begin =>
    rw [move] at h
    split at h
    · rename_i hidle
      obtain rfl : pc = .idle := hidle
      obtain ⟨rfl, rfl⟩ := Prod.mk.inj (Option.some.inj h)
      exact .begin
    · cases h
  | op now => exact atomic_moves h
  | complete ok =>
    cases pc with
    | running seen =>
      obtain ⟨rfl, rfl⟩ := Prod.mk.inj (Option.some.inj h)
      cases ok
      · exact .fail
      · exact .succeed
    | _ => exact absurd h (by simp [move])
  | cancel =>
    cases pc with
    | running seen =>
      obtain ⟨rfl, rfl⟩ := Prod.mk.inj (Option.some.inj h)
      exact .cancel
    | _ => exact absurd h (by simp [move])

/-- The moves by their effect on admission and state. -/
inductive Effect (cfg : Config) : Move → Pc → Breaker → Pc → Breaker → Prop where
  /-- The call is not engaged afterwards and the state is untouched. -/
  | quiet {m : Move} {pc pc' : Pc} {b b' : Breaker} (hpc' : pc'.engaged = false)
      (hstate : b'.state = b.state) (hpc : pc ≠ .storeHalfOpen) (hm : ∀ ok, m ≠ .complete ok) :
      Effect cfg m pc b pc' b'
  | enter {now : UInt64} {b : Breaker} (h : b.state = .closed) :
      Effect cfg (.op now) .loadState b (.running .closed) b
  | pass {now lastFailure : UInt64} {b : Breaker} (h : recovered cfg now lastFailure) :
      Effect cfg (.op now) (.checkClock lastFailure) b .storeHalfOpen b
  | transition {now : UInt64} {b : Breaker} :
      Effect cfg (.op now) .storeHalfOpen b (.running .open) { b with state := .halfOpen }
  | limiter {now : UInt64} {b : Breaker} (h : b.halfOpenCalls = 0) :
      Effect cfg (.op now) .addHalfOpen b (.running .halfOpen)
        { b with halfOpenCalls := b.halfOpenCalls + 1 }
  | complete {ok : Bool} {seen : CircuitState} {b : Breaker} {pc' : Pc} (hpc' : pc'.finishing) :
      Effect cfg (.complete ok) (.running seen) b pc' b
  | write {now : UInt64} {pc pc' : Pc} {b b' : Breaker} (hpc : pc.finishing)
      (hpc' : pc' ≠ .storeHalfOpen) : Effect cfg (.op now) pc b pc' b'

theorem engaged_exit (seen : CircuitState) (v : Verdict) : (Pc.exit seen v).engaged = false := by
  rw [Pc.exit]
  split <;> rfl

theorem ne_storeHalfOpen_of_engaged {pc : Pc} (h : pc.engaged = false) : pc ≠ .storeHalfOpen := by
  rintro rfl
  exact absurd h (by decide)

theorem move_effect {cfg : Config} {m : Move} {pc pc' : Pc} {b b' : Breaker}
    (h : move cfg (pc, b) m = some (pc', b')) : Effect cfg m pc b pc' b' := by
  have hexit : ∀ seen v, Pc.exit seen v ≠ .storeHalfOpen := fun seen v =>
    ne_storeHalfOpen_of_engaged (engaged_exit seen v)
  cases move_moves h with
  | loadClosed hclosed => exact .enter hclosed
  | pass hrec => exact .pass hrec
  | storeHalfOpen => exact .transition
  | letIn hzero => exact .limiter hzero
  | succeed => exact .complete rfl
  | fail => exact .complete rfl
  | storeClosed => exact .write rfl (hexit _ _)
  | stayBelow _ => exact .write rfl (hexit _ _)
  | storeOpen => exact .write rfl (hexit _ _)
  | resetCount => exact .write rfl (by simp)
  | addFailure => exact .write rfl (by simp)
  | reachThreshold _ => exact .write rfl (by simp)
  | _ => exact .quiet rfl rfl (by simp) (by simp)

/-! ## The invariant of exclusive runs -/

/-- A call about to store HalfOpen is alone with an Open breaker; inside the window the breaker is
    HalfOpen and the only engaged call, if any, is a running probe. -/
structure Inv (s : Sys n) : Prop where
  transition : ∀ i, s.pc i = .storeHalfOpen → s.breaker.state = .open ∧ s.Alone i
  halfOpen : s.window = true → s.breaker.state = .halfOpen
  alone : s.window = true → ∀ i, (s.pc i).engaged = true → s.Alone i
  probe : s.window = true → ∀ i, (s.pc i).engaged = true →
    ∃ seen, s.pc i = .running seen ∧ seen ≠ .closed

theorem inv_init : Inv (Sys.init n) where
  transition i h := absurd h (by simp [Sys.init])
  halfOpen h := absurd h (by simp [Sys.init])
  alone h := absurd h (by simp [Sys.init])
  probe h := absurd h (by simp [Sys.init])

/-- Outside the window only the pending transitions matter. -/
theorem inv_of_window_false {s : Sys n} (hw : s.window = false)
    (h : ∀ i, s.pc i = .storeHalfOpen → s.breaker.state = .open ∧ s.Alone i) : Inv s where
  transition := h
  halfOpen h := absurd h (by simp [hw])
  alone h := absurd h (by simp [hw])
  probe h := absurd h (by simp [hw])

/-- Two different engaged calls are never alone. -/
theorem Sys.Alone.eq {s : Sys n} {i j : Fin n} (h : s.Alone i) (hj : (s.pc j).engaged = true) :
    j = i := by
  by_contra hne
  exact absurd (h j hne) (by simp [hj])

theorem Sys.Alone.update {s : Sys n} {i : Fin n} (h : s.Alone i) (pc' : Pc) (b' : Breaker)
    (w : Bool) : Sys.Alone ⟨b', Function.update s.pc i pc', w⟩ i := by
  intro j hj
  show (Function.update s.pc i pc' j).engaged = false
  rw [Function.update_of_ne hj]
  exact h j hj

/-- A call that is not engaged after its move leaves the others as they were. -/
theorem Sys.Alone.quiet {s : Sys n} {i k : Fin n} (h : s.Alone k) {pc' : Pc}
    (hpc' : pc'.engaged = false) (b' : Breaker) (w : Bool) :
    Sys.Alone ⟨b', Function.update s.pc i pc', w⟩ k :=
  Trace.forall_update (P := fun j (pc : Pc) => j ≠ k → pc.engaged = false) (fun _ => hpc') h

section Keeping

variable {s : Sys n} {i : Fin n} {pc' : Pc} {b' : Breaker}

theorem Inv.window_eq_false (hs : Inv s) (hstate : s.breaker.state ≠ .halfOpen) : s.window = false := by
  rw [← Bool.not_eq_true]
  intro hwin
  exact hstate (hs.halfOpen hwin)

/-- No other call is about to store HalfOpen once `i` is engaged or has been found alone. -/
theorem Inv.not_pending (hs : Inv s) (hi : (s.pc i).engaged = true ∨ s.Alone i)
    (hpc' : pc' ≠ .storeHalfOpen) (k : Fin n) : Function.update s.pc i pc' k ≠ .storeHalfOpen := by
  intro hk
  rcases eq_or_ne k i with rfl | hki
  · rw [Function.update_self] at hk
    exact hpc' hk
  · rw [Function.update_of_ne hki] at hk
    rcases hi with hi | hi
    · exact hki ((hs.transition k hk).2.eq hi).symm
    · exact hki (hi.eq (by rw [hk]; rfl))

theorem Inv.quiet (hs : Inv s) (hpc' : pc'.engaged = false) (hstate : b'.state = s.breaker.state) :
    Inv ⟨b', Function.update s.pc i pc', s.window⟩ := by
  -- whoever is engaged after the move stands where they stood
  have hstay : ∀ k, (Function.update s.pc i pc' k).engaged = true →
      Function.update s.pc i pc' k = s.pc k := by
    intro k hk
    rcases eq_or_ne k i with rfl | hki
    · rw [Function.update_self, hpc'] at hk
      cases hk
    · exact Function.update_of_ne hki _ _
  refine ⟨?_, ?_, ?_, ?_⟩
  · intro k hk
    have heq := hstay k (by rw [show Function.update s.pc i pc' k = _ from hk]; rfl)
    obtain ⟨hopen, halone⟩ := hs.transition k (heq.symm.trans hk)
    exact ⟨hstate.trans hopen, halone.quiet hpc' _ _⟩
  · intro hwin
    exact hstate.trans (hs.halfOpen hwin)
  · intro hwin k hk
    exact (hs.alone hwin k (hstay k hk ▸ hk)).quiet hpc' _ _
  · intro hwin k hk
    obtain ⟨seen, hseen, hne⟩ := hs.probe hwin k (hstay k hk ▸ hk)
    exact ⟨seen, (hstay k hk).trans hseen, hne⟩

/-- Neither a pending transition nor the window goes with a Closed breaker. -/
theorem Inv.enter (hs : Inv s) (hclosed : s.breaker.state = .closed) :
    Inv ⟨s.breaker, Function.update s.pc i (.running .closed), s.window⟩ := by
  refine inv_of_window_false (hs.window_eq_false (by rw [hclosed]; decide)) ?_
  intro k hk
  have hk' : Function.update s.pc i (.running .closed) k = .storeHalfOpen := hk
  rcases eq_or_ne k i with rfl | hki
  · rw [Function.update_self] at hk'
    cases hk'
  · rw [Function.update_of_ne hki] at hk'
    exact absurd (hclosed.symm.trans (hs.transition k hk').1) (by decide)

theorem Inv.pass (hs : Inv s) (hopen : s.breaker.state = .open) (halone : s.Alone i) :
    Inv ⟨s.breaker, Function.update s.pc i .storeHalfOpen, s.window⟩ := by
  refine inv_of_window_false (hs.window_eq_false (by rw [hopen]; decide)) ?_
  intro k hk
  obtain rfl : k = i := (halone.update _ s.breaker s.window).eq (by rw [hk]; rfl)
  exact ⟨hopen, halone.update _ _ _⟩

/-- A call that is let in alone becomes the probe. -/
theorem Inv.probing (hs : Inv s) (halone : s.Alone i) {seen : CircuitState} (hseen : seen ≠ .closed)
    {w : Bool} (hstate : w = true → b'.state = .halfOpen) :
    Inv ⟨b', Function.update s.pc i (.running seen), w⟩ := by
  have halone' : Sys.Alone ⟨b', Function.update s.pc i (.running seen), w⟩ i := halone.update _ _ _
  refine ⟨?_, hstate, ?_, ?_⟩
  · intro k hk
    exact absurd hk (hs.not_pending (.inr halone) (by simp) k)
  · intro _ k hk
    rwa [halone'.eq hk]
  · intro _ k hk
    rw [halone'.eq hk]
    exact ⟨seen, Function.update_self .., hseen⟩

/-- The probe's future ends the window; a call that a Closed breaker let in does not run inside it. -/
theorem Inv.complete (hs : Inv s) {seen : CircuitState} (hpc : s.pc i = .running seen)
    (hpc' : pc'.finishing) :
    Inv ⟨b', Function.update s.pc i pc', s.window && seen == .closed⟩ := by
  have hi : (s.pc i).engaged = true := by rw [hpc]; rfl
  have hne : pc' ≠ .storeHalfOpen := by
    rintro rfl
    exact absurd hpc' (by decide)
  refine inv_of_window_false ?_ fun k hk => absurd hk (hs.not_pending (.inl hi) hne k)
  show (s.window && seen == .closed) = false
  cases hwin : s.window with
  | false => rfl
  | true =>
    obtain ⟨seen', hseen', hclosed⟩ := hs.probe hwin i hi
    obtain rfl : seen = seen' := Pc.running.inj (hpc.symm.trans hseen')
    simpa using hclosed

theorem engaged_of_finishing {pc : Pc} (h : pc.finishing) : pc.engaged = true := by
  rw [Pc.engaged.eq_def]
  split
  · rfl
  · rfl
  · exact h

/-- Nobody writes inside the window. -/
theorem Inv.write (hs : Inv s) (hpc : (s.pc i).finishing) (hpc' : pc' ≠ .storeHalfOpen) {w : Bool}
    (hw : s.window = false → w = false) : Inv ⟨b', Function.update s.pc i pc', w⟩ := by
  have hi := engaged_of_finishing hpc
  refine inv_of_window_false (hw ?_) fun k hk => absurd hk (hs.not_pending (.inl hi) hpc' k)
  rw [← Bool.not_eq_true]
  intro hwin
  obtain ⟨seen, hseen, -⟩ := hs.probe hwin i hi
  rw [hseen] at hpc
  exact absurd hpc (by simp [Pc.finishing])

end Keeping

/-- **One exclusive move keeps the invariant**, by what the move does. -/
theorem Inv.step {cfg : Config} {s t : Sys n} {a : Fin n × Move} (hC : Exclusive cfg s a)
    (h : s.step cfg a = some t) (hs : Inv s) : Inv t := by
  obtain ⟨i, m⟩ := a
  obtain ⟨⟨pc', b'⟩, hmove, rfl⟩ := Option.map_eq_some_iff.mp h
  show Inv ⟨b', Function.update s.pc i pc', s.windowAfter (s.pc i) m⟩
  have heff := move_effect hmove
  clear h hmove
  generalize hpc : s.pc i = pc at heff ⊢
  generalize hb : s.breaker = b at heff
  cases heff with
  | quiet hpc' hstate hne hm =>
    have hw : s.windowAfter pc m = s.window := by
      unfold Sys.windowAfter
      split
      · exact absurd rfl hne
      · exact absurd rfl (hm _)
      · rfl
    rw [hw]
    exact hs.quiet hpc' (by rw [hstate, hb])
  | enter hclosed =>
    subst hb
    exact hs.enter hclosed
  | pass hrec =>
    subst hb
    rw [Exclusive, hpc] at hC
    exact hs.pass (hC hrec).1 (hC hrec).2
  | transition => exact hs.probing (hs.transition i hpc).2 (by decide) fun _ => rfl
  | limiter hzero =>
    subst hb
    rw [Exclusive, hpc] at hC
    exact hs.probing (hC hzero) (by decide) hs.halfOpen
  | complete hfin => exact hs.complete hpc hfin
  | write hfin hne =>
    subst hpc
    refine hs.write hfin hne fun hwin => ?_
    unfold Sys.windowAfter
    split
    · rename_i hstore
      rw [hstore] at hfin
      exact absurd hfin (by decide)
    · rw [hwin]
      rfl
    · exact hwin

/-- **At most one probe in exclusive runs**: if every move of a run from the start is `Exclusive`,
    then in the state it reaches, inside the window, no two futures run. -/
theorem single_probe_of_exclusive {cfg : Config} {s : Sys n} {acts : List (Fin n × Move)}
    (hall : Trace.Along (Sys.step cfg) (Exclusive cfg) (Sys.init n) acts)
    (hrun : Trace.run (Sys.step cfg) (Sys.init n) acts = some s) (hw : s.window = true)
    {i j : Fin n} {seen seen' : CircuitState} (hi : s.pc i = .running seen)
    (hj : s.pc j = .running seen') : i = j := by
  have hinv : Inv s :=
    Trace.Along.invariant (fun _ _ _ hC h hs => hs.step hC h) acts _ s hall hrun inv_init
  have halone : s.Alone j := hinv.alone hw j (by rw [hj]; rfl)
  exact halone.eq (by rw [hi]; rfl)

/-- Call 0 fails at time 1 and opens a breaker of threshold 1. -/
def failFirst : List (Fin 3 × Move) :=
  [(0, .begin), (0, .op 0), (0, .complete false), (0, .op 0), (0, .op 1), (0, .op 0)]

/-- One call alone through the transition. -/
def oneProbe : List (Fin 3 × Move) :=
  failFirst ++ [(1, .begin), (1, .op 0), (1, .op 0), (1, .op 5), (1, .op 0)]

/-- Two calls that both read Open before either stores HalfOpen. -/
def twoProbes : List (Fin 3 × Move) :=
  failFirst ++ [(1, .begin), (2, .begin), (1, .op 0), (2, .op 0), (1, .op 0), (2, .op 0),
    (1, .op 5), (2, .op 5), (1, .op 0), (2, .op 0)]

/-- The window with its one probe. -/
theorem single_probe_reached :
    ∃ s, Trace.run (Sys.step ⟨1, 0⟩) (Sys.init 3) oneProbe = some s ∧ s.window = true ∧
      s.pc 1 = .running .open ∧
      ∀ j seen, s.pc j = .running seen → (1 : Fin 3) = j := by
  have hall : Trace.Along (Sys.step ⟨1, 0⟩) (Exclusive ⟨1, 0⟩) (Sys.init 3) oneProbe := by decide
  have hreached : ∃ s, Trace.run (Sys.step ⟨1, 0⟩) (Sys.init 3) oneProbe = some s ∧
      s.window = true ∧ s.pc 1 = .running .open := ⟨_, rfl, rfl, rfl⟩
  obtain ⟨s, hrun, hw, h1⟩ := hreached
  exact ⟨s, hrun, hw, h1, fun j seen hj => single_probe_of_exclusive hall hrun hw h1 hj⟩

/-- Inside the window two futures run. -/
theorem two_probes_run :
    ∃ s, Trace.run (Sys.step ⟨1, 0⟩) (Sys.init 3) twoProbes = some s ∧ s.window = true ∧
      s.pc 1 = .running .open ∧ s.pc 2 = .running .open :=
  ⟨_, rfl, rfl, rfl, rfl⟩

end CircuitBreaker

end FloatProtocols
