/-
  The recovery timeout and the wall clock.

  `last_failure_time` and the recovery check both read `elapsed_since_startup`: 0 until somebody has
  called `init_startup_time`, the wall clock's distance from that call afterwards, never below 0.  The
  elapsed time is the difference of two such readings in wrapping u64 milliseconds.

  1. **Program** — the calls of `BreakerThreads` with a clock: every operation happens at a `Moment`,
     which has a real time and what the wall clock shows; `init_startup_time` may come at any time.

  2. **Stamps** — a ghost notes at which moment, and under which startup time, `last_failure_time` was
     set, and which of these notes a call has read.  The invariant (`Stamped`) is that the number and
     the note agree.

  3. **The crux (`recovery_iff`)** — a call that finds the breaker Open runs its future exactly when
     the MEASURED time is above the timeout.  `Truthful` says what that asks of the two readings of the
     clock and of `STARTUP_TIME`: without a startup time nothing is ever measured; with one that came
     between failure and check, the time since then; with the clock behind the failure's, the difference
     wraps, and is half a billion years; and otherwise what the clock shows, in whole milliseconds.
-/
import FloatProtocols.Reliability.BreakerPhases

namespace FloatProtocols

namespace CircuitBreaker

variable {n : Nat}

/-! ## The clock -/

/-- An instant: real time, and what the system clock shows as time since the epoch; both in
    nanoseconds. -/
structure Moment where
  real : Int
  wall : Int

/-- `SystemTime::now().duration_since(UNIX_EPOCH).unwrap_or(Duration::ZERO).as_millis() as u64`. -/
def unixMillis (now : Moment) : UInt64 := .ofNat (now.wall / 1000000).toNat

/-- `elapsed_since_startup`, in milliseconds. -/
def elapsedSinceStartup (startup : UInt64) (now : Moment) : UInt64 :=
  if startup = 0 then 0 else .ofNat ((unixMillis now).toNat - startup.toNat)

/-- A failure's note: `STARTUP_TIME` and the moment at which it set `last_failure_time`. -/
structure Stamp where
  startup : UInt64
  moment : Moment

/-- What it wrote there. -/
def Stamp.reading (f : Stamp) : UInt64 := elapsedSinceStartup f.startup f.moment

/-- The milliseconds between a failure and a check, as `call` computes them. -/
def measuredMs (f : Stamp) (startup : UInt64) (now : Moment) : Nat :=
  (elapsedSinceStartup startup now - f.reading).toNat

theorem elapsedSinceStartup_zero (now : Moment) : elapsedSinceStartup 0 now = 0 := rfl

theorem toNat_elapsedSinceStartup {startup : UInt64} (hstartup : startup ≠ 0) (now : Moment) :
    (elapsedSinceStartup startup now).toNat = (unixMillis now).toNat - startup.toNat := by
  unfold elapsedSinceStartup
  rw [if_neg hstartup, UInt64.toNat_ofNat', Nat.mod_eq_of_lt]
  have := (unixMillis now).toNat_lt
  omega

theorem measuredMs_eq_mod (f : Stamp) (startup : UInt64) (now : Moment) :
    measuredMs f startup now =
      (2 ^ 64 - f.reading.toNat + (elapsedSinceStartup startup now).toNat) % 2 ^ 64 :=
  UInt64.toNat_sub ..

/-- A later reading that is not below the earlier one measures the difference, -/
theorem measuredMs_forward {f : Stamp} {startup : UInt64} {now : Moment}
    (hle : f.reading.toNat ≤ (elapsedSinceStartup startup now).toNat) :
    measuredMs f startup now = (elapsedSinceStartup startup now).toNat - f.reading.toNat := by
  rw [measuredMs_eq_mod]
  have := (elapsedSinceStartup startup now).toNat_lt
  omega

/-- and one below it almost `2 ^ 64` milliseconds. -/
theorem measuredMs_backward {f : Stamp} {startup : UInt64} {now : Moment}
    (hlt : (elapsedSinceStartup startup now).toNat < f.reading.toNat) :
    measuredMs f startup now = 2 ^ 64 - (f.reading.toNat - (elapsedSinceStartup startup now).toNat) := by
  rw [measuredMs_eq_mod]
  have := f.reading.toNat_lt
  omega

/-- More than the timeout of real time has passed since the failure. -/
def Overdue (cfg : Config) (f : Stamp) (now : Moment) : Prop :=
  (cfg.recoveryTimeout : Int) < now.real - f.moment.real

/-- What it takes for the wall clock and `STARTUP_TIME`, as they were at the failure and as they are at
    the check, to tell whether the timeout is over. -/
def Truthful (cfg : Config) (f : Stamp) (startup : UInt64) (now : Moment) : Prop :=
  let failed := (unixMillis f.moment).toNat - f.startup.toNat
  let checked := (unixMillis now).toNat - startup.toNat
  if f.startup = 0 ∧ startup = 0 then ¬ Overdue cfg f now
  else if f.startup = 0 then cfg.recoveryTimeout < checked * 1000000 ↔ Overdue cfg f now
  else if startup = 0 then
    if failed = 0 then ¬ Overdue cfg f now
    else cfg.recoveryTimeout < (2 ^ 64 - failed) * 1000000 ↔ Overdue cfg f now
  else if failed ≤ checked then
    cfg.recoveryTimeout < (checked - failed) * 1000000 ↔ Overdue cfg f now
  else cfg.recoveryTimeout < (2 ^ 64 - (failed - checked)) * 1000000 ↔ Overdue cfg f now

/-- What is measured tells whether the timeout is over exactly if the clocks do. -/
theorem measured_iff_truthful (cfg : Config) (f : Stamp) (startup : UInt64) (now : Moment) :
    (cfg.recoveryTimeout < measuredMs f startup now * 1000000 ↔ Overdue cfg f now) ↔
      Truthful cfg f startup now := by
  have hnothing : ∀ k : Nat, k = 0 →
      ((cfg.recoveryTimeout < k * 1000000 ↔ Overdue cfg f now) ↔ ¬ Overdue cfg f now) := by
    rintro k rfl
    rw [Nat.zero_mul, iff_false_left (Nat.not_lt_zero _)]
  have hfailed : f.startup = 0 → f.reading.toNat = 0 := by
    intro hzero
    rw [Stamp.reading, hzero, elapsedSinceStartup_zero]
    rfl
  have hchecked : startup = 0 → (elapsedSinceStartup startup now).toNat = 0 := by
    rintro rfl
    rw [elapsedSinceStartup_zero]
    rfl
  unfold Truthful
  by_cases hf : f.startup = 0
  · -- nothing was measured at the failure
    rw [measuredMs_forward (by rw [hfailed hf]; exact Nat.zero_le _), hfailed hf, Nat.sub_zero]
    by_cases hs : startup = 0
    · rw [if_pos ⟨hf, hs⟩]
      exact hnothing _ (hchecked hs)
    · rw [if_neg (fun h => hs h.2), if_pos hf, toNat_elapsedSinceStartup hs]
  · have hreading : f.reading.toNat = (unixMillis f.moment).toNat - f.startup.toNat :=
      toNat_elapsedSinceStartup hf f.moment
    rw [if_neg (fun h => hf h.1), if_neg hf]
    by_cases hs : startup = 0
    · -- nothing is measured at the check
      rw [if_pos hs]
      split
      · rename_i hzero
        rw [measuredMs_forward (by rw [hreading, hzero]; exact Nat.zero_le _), hchecked hs, Nat.zero_sub]
        exact hnothing 0 rfl
      · rename_i hpos
        rw [measuredMs_backward (by rw [hreading, hchecked hs]; exact Nat.pos_of_ne_zero hpos),
          hreading, hchecked hs, Nat.sub_zero]
    · rw [if_neg hs]
      split
      · rename_i hle
        rw [measuredMs_forward (by rw [hreading, toNat_elapsedSinceStartup hs]; exact hle),
          hreading, toNat_elapsedSinceStartup hs]
      · rename_i hlt
        have hback : (elapsedSinceStartup startup now).toNat < f.reading.toNat := by
          rw [hreading, toNat_elapsedSinceStartup hs]
          exact Nat.lt_of_not_le hlt
        rw [measuredMs_backward hback, hreading, toNat_elapsedSinceStartup hs]

/-! ## The calls with the clock -/

/-- The calls, `STARTUP_TIME`, the note of the failure that last set `last_failure_time`, and the note
    each call has read. -/
structure Timed (n : Nat) extends Sys n where
  startup : UInt64
  failed : Option Stamp
  loaded : Fin n → Option Stamp

/-- Nothing called yet, `STARTUP_TIME` still 0. -/
def Timed.init (n : Nat) : Timed n :=
  { Sys.init n with startup := 0, failed := none, loaded := fun _ => none }

/-- What can happen: the two ways to set `STARTUP_TIME`, and the moves of the calls. -/
inductive TimedAct (n : Nat) where
  | initStartupTime (now : Moment)
  | ensureStartupTimeInitialized (now : Moment)
  | begin (i : Fin n)
  | op (i : Fin n) (now : Moment)
  | complete (i : Fin n) (ok : Bool)
  | cancel (i : Fin n)

/-- A failure leaves its note with its time. -/
def Timed.failedAfter (s : Timed n) (i : Fin n) (now : Moment) : Option Stamp :=
  match s.pc i with
  | .storeFailureTime _ _ => some ⟨s.startup, now⟩
  | _ => s.failed

/-- A call that reads `last_failure_time` reads the note. -/
def Timed.loadedAfter (s : Timed n) (i : Fin n) : Fin n → Option Stamp :=
  if s.pc i = .loadFailureTime then Function.update s.loaded i s.failed else s.loaded

/-- One step. -/
def Timed.step (cfg : Config) (s : Timed n) : TimedAct n → Option (Timed n)
  | .initStartupTime now => some { s with startup := unixMillis now }
  | .ensureStartupTimeInitialized now =>
    some (if s.startup = 0 then { s with startup := unixMillis now } else s)
  | .begin i => (s.toSys.step cfg (i, .begin)).map fun t => { s with toSys := t }
  | .op i now =>
    (s.toSys.step cfg (i, .op (elapsedSinceStartup s.startup now))).map fun t =>
      { s with toSys := t, failed := s.failedAfter i now, loaded := s.loadedAfter i }
  | .complete i ok => (s.toSys.step cfg (i, .complete ok)).map fun t => { s with toSys := t }
  | .cancel i => (s.toSys.step cfg (i, .cancel)).map fun t => { s with toSys := t }

/-! ## Stamps -/

/-- There has been a failure when a call is here. -/
def Pc.afterFailure : Pc → Bool
  | .storeOpen _ => true
  | .loadFailureTime => true
  | _ => false

variable {cfg : Config} {m : Move} {pc pc' : Pc} {b b' : Breaker}

theorem exit_ne_checkClock (seen : CircuitState) (v : Verdict) (last : UInt64) :
    Pc.exit seen v ≠ .checkClock last := by
  unfold Pc.exit
  split <;> simp

@[simp] theorem afterFailure_exit (seen : CircuitState) (v : Verdict) :
    (Pc.exit seen v).afterFailure = false := by
  unfold Pc.exit
  split <;> rfl

/-- One operation sets the time of the last failure. -/
theorem Moves.lastFailureTime (h : Moves cfg m pc b pc' b') :
    ((∀ seen count, pc ≠ .storeFailureTime seen count) ∧ b'.lastFailureTime = b.lastFailureTime) ∨
    ∃ seen count, pc = .storeFailureTime seen count ∧ m = .op b'.lastFailureTime := by
  cases h with
  | reachThreshold _ => exact .inr ⟨_, _, rfl, rfl⟩
  | stayBelow _ => exact .inr ⟨_, _, rfl, rfl⟩
  | _ => exact .inl ⟨by simp, rfl⟩

theorem Moves.afterFailure (h : Moves cfg m pc b pc' b') (hpc' : pc'.afterFailure = true) :
    b.state = .open ∨ ∃ seen count, pc = .storeFailureTime seen count := by
  cases h with
  | loadOpen hopen => exact .inl hopen
  | reachThreshold _ => exact .inr ⟨_, _, rfl⟩
  | storeClosed => exact absurd hpc' (by simp)
  | stayBelow _ => exact absurd hpc' (by simp)
  | storeOpen => exact absurd hpc' (by simp)
  | _ => exact absurd hpc' (by simp [Pc.afterFailure])

theorem Moves.checkClock {last : UInt64} (h : Moves cfg m pc b pc' b') (hpc' : pc' = .checkClock last) :
    pc = .loadFailureTime ∧ last = b.lastFailureTime := by
  cases h with
  | loadFailureTime => exact ⟨rfl, (Pc.checkClock.inj hpc').symm⟩
  | storeClosed => exact absurd hpc' (exit_ne_checkClock _ _ _)
  | stayBelow _ => exact absurd hpc' (exit_ne_checkClock _ _ _)
  | storeOpen => exact absurd hpc' (exit_ne_checkClock _ _ _)
  | _ => cases hpc'

/-- The number in `last_failure_time` is the one the note says, and there is a note as soon as anybody
    needs it. -/
structure Stamped (s : Timed n) : Prop where
  time : ∀ f, s.failed = some f → s.breaker.lastFailureTime = f.reading
  fresh : s.failed = none → s.breaker.state ≠ .open ∧ ∀ j, (s.pc j).afterFailure = false
  check : ∀ j last, s.pc j = .checkClock last → ∃ f, s.loaded j = some f ∧ last = f.reading

theorem stamped_init : Stamped (Timed.init n) where
  time _ h := nomatch h
  fresh _ := ⟨by simp [Timed.init, Sys.init, new], fun _ => rfl⟩
  check _ _ h := nomatch h

/-- Without a failure nobody opens the breaker or waits for its time. -/
theorem Stamped.fresh_move {s : Timed n} (hs : Stamped s) {i : Fin n}
    (hmoves : Moves cfg m (s.pc i) s.breaker pc' b')
    (hno : ∀ seen count, s.pc i ≠ .storeFailureTime seen count) (hnone : s.failed = none) :
    b'.state ≠ .open ∧ ∀ j, (Function.update s.pc i pc' j).afterFailure = false := by
  obtain ⟨hopen, hafter⟩ := hs.fresh hnone
  constructor
  · rcases hmoves.state with heq | ⟨heq, -⟩ | ⟨heq, -⟩ | ⟨-, seen, -, hpc, -⟩
    · rwa [heq]
    · rw [heq]
      decide
    · rw [heq]
      decide
    · have hi := hafter i
      rw [hpc] at hi
      cases hi
  · refine Trace.forall_update (P := fun _ pc => Pc.afterFailure pc = false) ?_ hafter
    rw [← Bool.not_eq_true]
    intro hpc'
    rcases hmoves.afterFailure hpc' with hstate | ⟨seen, count, hpc⟩
    · exact hopen hstate
    · exact hno seen count hpc

/-- A move of call `i`, with what it does to the notes. -/
theorem Stamped.move {s : Timed n} (hs : Stamped s) {i : Fin n} {t : Sys n} {failed : Option Stamp}
    {loaded : Fin n → Option Stamp} (hstep : s.toSys.step cfg (i, m) = some t)
    (hfailed : ∀ seen count, s.pc i = .storeFailureTime seen count →
      ∃ f, failed = some f ∧ m = .op f.reading)
    (hkept : (∀ seen count, s.pc i ≠ .storeFailureTime seen count) → failed = s.failed)
    (hloaded : s.pc i = .loadFailureTime → loaded i = s.failed)
    (hothers : ∀ j, j ≠ i → loaded j = s.loaded j) :
    Stamped { s with toSys := t, failed, loaded } := by
  obtain ⟨⟨pc', b'⟩, hmove, rfl⟩ := Option.map_eq_some_iff.mp hstep
  have hmoves := move_moves hmove
  have hcheck : ∀ j last, Function.update s.pc i pc' j = .checkClock last →
      ∃ f, loaded j = some f ∧ last = f.reading := by
    intro j last hj
    rcases eq_or_ne j i with rfl | hne
    · rw [Function.update_self] at hj
      obtain ⟨hpc, hlast⟩ := hmoves.checkClock hj
      have hsome : s.failed ≠ none := by
        intro hnone
        have hi := (hs.fresh hnone).2 j
        rw [show s.pc j = .loadFailureTime from hpc] at hi
        cases hi
      obtain ⟨f, hf⟩ := Option.ne_none_iff_exists'.mp hsome
      exact ⟨f, (hloaded hpc).trans hf, hlast.trans (hs.time f hf)⟩
    · rw [Function.update_of_ne hne] at hj
      obtain ⟨f, hf, hlast⟩ := hs.check j last hj
      exact ⟨f, (hothers j hne).trans hf, hlast⟩
  rcases hmoves.lastFailureTime with ⟨hno, htime⟩ | ⟨seen, count, hpc, hm⟩
  · -- the time is not touched
    obtain rfl := hkept hno
    exact ⟨fun f hf => htime.trans (hs.time f hf), hs.fresh_move hmoves hno, hcheck⟩
  · -- a failure writes time and note together
    obtain ⟨f, rfl, hm'⟩ := hfailed seen count hpc
    refine ⟨?_, ?_, hcheck⟩
    · intro g hg
      obtain rfl := Option.some.inj hg
      exact Move.op.inj (hm.symm.trans hm')
    · intro hnone
      cases hnone

/-- A move that is no operation leaves the notes alone. -/
theorem Stamped.keep {s : Timed n} (hs : Stamped s) {i : Fin n} {t : Sys n}
    (hstep : s.toSys.step cfg (i, m) = some t) (hm : ∀ now, m ≠ .op now) :
    Stamped { s with toSys := t } := by
  obtain ⟨⟨pc', b'⟩, hmove, -⟩ := Option.map_eq_some_iff.mp hstep
  have hmoves := move_moves hmove
  refine hs.move hstep (fun seen count hpc => ?_) (fun _ => rfl) (fun hpc => ?_) fun _ _ => rfl
  · rcases hmoves.lastFailureTime with ⟨hno, -⟩ | ⟨-, -, -, hop⟩
    · exact absurd hpc (hno seen count)
    · exact absurd hop (hm _)
  · -- only an operation reads the time
    rw [show (s.pc i, s.breaker) = (Pc.loadFailureTime, s.breaker) by rw [hpc]] at hmove
    cases m with
    | op now => exact absurd rfl (hm now)
    | _ => exact absurd hmove (by simp [CircuitBreaker.move])

theorem Stamped.step {s t : Timed n} {a : TimedAct n} (h : s.step cfg a = some t) (hs : Stamped s) :
    Stamped t := by
  cases a with
  | initStartupTime now =>
    obtain rfl := Option.some.inj h
    exact ⟨hs.time, hs.fresh, hs.check⟩
  | ensureStartupTimeInitialized now =>
    obtain rfl := Option.some.inj h
    split
    · exact ⟨hs.time, hs.fresh, hs.check⟩
    · exact hs
  | begin i =>
    obtain ⟨u, hu, rfl⟩ := Option.map_eq_some_iff.mp h
    exact hs.keep hu (by simp)
  | complete i ok =>
    obtain ⟨u, hu, rfl⟩ := Option.map_eq_some_iff.mp h
    exact hs.keep hu (by simp)
  | cancel i =>
    obtain ⟨u, hu, rfl⟩ := Option.map_eq_some_iff.mp h
    exact hs.keep hu (by simp)
  | op i now =>
    obtain ⟨u, hu, rfl⟩ := Option.map_eq_some_iff.mp h
    refine hs.move hu (fun seen count hpc => ⟨⟨s.startup, now⟩, ?_, rfl⟩) (fun hno => ?_)
      (fun hpc => ?_) fun j hj => ?_
    · rw [Timed.failedAfter, hpc]
    · unfold Timed.failedAfter
      split
      · exact absurd ‹_› (hno _ _)
      · rfl
    · rw [Timed.loadedAfter, if_pos hpc]
      exact Function.update_self ..
    · unfold Timed.loadedAfter
      split
      · exact Function.update_of_ne hj _ _
      · rfl

/-! ## The recovery check -/

/-- A call that has found the breaker Open and read the time of the last failure checks at `now`, and
    goes on to its future. -/
def RunsFuture (cfg : Config) (s : Timed n) (i : Fin n) (now : Moment) : Prop :=
  ∃ t, Trace.run (Timed.step cfg) s [.op i now, .op i now] = some t ∧ t.pc i = .running .open

theorem runsFuture_iff {s : Timed n} {i : Fin n} {last : UInt64} (hpc : s.pc i = .checkClock last)
    (now : Moment) :
    RunsFuture cfg s i now ↔ recovered cfg (elapsedSinceStartup s.startup now) last = true := by
  unfold RunsFuture
  by_cases hrec : recovered cfg (elapsedSinceStartup s.startup now) last = true
  · refine iff_of_true ?_ hrec
    simp only [Trace.run, Timed.step, Sys.step, CircuitBreaker.move, hpc, atomic_checkClock, hrec,
      if_true, Option.map_some, Option.bind_some, Function.update_self, atomic_storeHalfOpen,
      Option.some.injEq, exists_eq_left']
  · refine iff_of_false ?_ hrec
    simp only [Trace.run, Timed.step, Sys.step, CircuitBreaker.move, hpc, atomic_checkClock, hrec,
      if_false, Option.map_some, Option.bind_some, Function.update_self, atomic_done, Option.map_none,
      Option.bind_none, reduceCtorEq, false_and, exists_false, not_false_eq_true, Bool.false_eq_true]

/-- **When an Open breaker lets a call through.**  In every run of any number of calls, with
    `init_startup_time` called at any times or never and any wall clock: a call at its recovery check has
    read the note of a failure, and it runs its future exactly after more than the timeout of real time
    if and only if the wall clock and `STARTUP_TIME`, at the failure and at the check, tell so. -/
theorem recovery_iff (cfg : Config) (acts : List (TimedAct n)) (s : Timed n)
    (hrun : Trace.run (Timed.step cfg) (Timed.init n) acts = some s) (i : Fin n) (last : UInt64)
    (hpc : s.pc i = .checkClock last) :
    ∃ f, s.loaded i = some f ∧ ∀ now,
      ((RunsFuture cfg s i now ↔ Overdue cfg f now) ↔ Truthful cfg f s.startup now) := by
  have hstamped : Stamped s :=
    Trace.invariant (fun _ _ _ h hP => hP.step h) acts _ s hrun stamped_init
  obtain ⟨f, hf, rfl⟩ := hstamped.check i last hpc
  refine ⟨f, hf, fun now => ?_⟩
  have hruns : RunsFuture cfg s i now ↔ cfg.recoveryTimeout < measuredMs f s.startup now * 1000000 := by
    rw [runsFuture_iff hpc, recovered, decide_eq_true_iff]
    rfl
  rw [hruns]
  exact measured_iff_truthful cfg f s.startup now

/-! ## Three clocks -/

/-- A moment at which the clock is right. -/
def Moment.right (ns : Int) : Moment := ⟨ns, ns⟩

/-- Call `i` fails at second 10 and opens a breaker of threshold 1; call `j` comes to its check. -/
def failAtTen (i j : Fin n) : List (TimedAct n) :=
  [.begin i, .op i (.right 10000000000), .complete i false, .op i (.right 10000000000),
    .op i (.right 10000000000), .op i (.right 10000000000),
    .begin j, .op j (.right 10000000000), .op j (.right 10000000000)]

/-- Thirty seconds. -/
def thirty : Config := ⟨1, 30000000000⟩

/-- With a startup time and a right clock the call of second 41 runs. -/
theorem recovery_iff_right :
    ∃ s, Trace.run (Timed.step thirty) (Timed.init 2)
        (.initStartupTime (.right 5000000000) :: failAtTen 0 1) = some s ∧
      RunsFuture thirty s 1 (.right 41000000000) := by
  have hreached : ∃ s, Trace.run (Timed.step thirty) (Timed.init 2)
        (.initStartupTime (.right 5000000000) :: failAtTen 0 1) = some s ∧
      s.pc 1 = .checkClock 5000 ∧ s.startup = 5000 ∧
      s.loaded 1 = some ⟨5000, .right 10000000000⟩ := ⟨_, rfl, rfl, rfl, rfl⟩
  obtain ⟨s, hrun, hpc, hstartup, hloaded⟩ := hreached
  obtain ⟨f, hf, hall⟩ := recovery_iff thirty _ s hrun 1 5000 hpc
  obtain rfl := Option.some.inj (hloaded.symm.trans hf)
  refine ⟨s, hrun, ((hall (.right 41000000000)).mpr ?_).mpr (by unfold Overdue; decide)⟩
  rw [hstartup]
  unfold Truthful Overdue
  decide

/-- Without a startup time a call is rejected a year after the failure; and when the clock goes back
    by one second, a call runs in the second of the failure. -/
theorem recovery_not_by_real_time :
    (∃ s f, Trace.run (Timed.step thirty) (Timed.init 2) (failAtTen 0 1) = some s ∧
      s.loaded 1 = some f ∧ Overdue thirty f (.right 31536000000000000) ∧
      ¬ RunsFuture thirty s 1 (.right 31536000000000000)) ∧
    (∃ s f, Trace.run (Timed.step thirty) (Timed.init 2)
        (.initStartupTime (.right 5000000000) :: failAtTen 0 1) = some s ∧
      s.loaded 1 = some f ∧ ¬ Overdue thirty f ⟨10500000000, 9500000000⟩ ∧
      RunsFuture thirty s 1 ⟨10500000000, 9500000000⟩) := by
  have hnever : ∃ s, Trace.run (Timed.step thirty) (Timed.init 2) (failAtTen 0 1) = some s ∧
      s.pc 1 = .checkClock 0 ∧ s.startup = 0 ∧ s.loaded 1 = some ⟨0, .right 10000000000⟩ :=
    ⟨_, rfl, rfl, rfl, rfl⟩
  have hback : ∃ s, Trace.run (Timed.step thirty) (Timed.init 2)
        (.initStartupTime (.right 5000000000) :: failAtTen 0 1) = some s ∧
      s.pc 1 = .checkClock 5000 ∧ s.startup = 5000 ∧ s.loaded 1 = some ⟨5000, .right 10000000000⟩ :=
    ⟨_, rfl, rfl, rfl, rfl⟩
  constructor
  · obtain ⟨s, hrun, hpc, hstartup, hloaded⟩ := hnever
    refine ⟨s, _, hrun, hloaded, by unfold Overdue; decide, ?_⟩
    rw [runsFuture_iff hpc, hstartup]
    decide
  · obtain ⟨s, hrun, hpc, hstartup, hloaded⟩ := hback
    refine ⟨s, _, hrun, hloaded, by unfold Overdue; decide, ?_⟩
    rw [runsFuture_iff hpc, hstartup]
    decide

end CircuitBreaker

end FloatProtocols
