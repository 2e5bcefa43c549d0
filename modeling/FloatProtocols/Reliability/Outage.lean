/-
  What a breaker is for: an operation that is down is left alone.

  1. **Specification** — over the log of a run, `runs` counts the calls whose future was awaited.  An
     outage is a stretch of calls whose futures would all fail; when it begins, the breaker may be in
     any state that a run leaves it in.

  2. **The invariant (`Pressure`)** — the failures counted are at least the runs of the outage, so from
     `max 1 failureThreshold` of them on the breaker is tripped, and each further run has waited for
     the recovery timeout since the last failure: the time of the last failure is ahead of the start of
     the outage by one timeout for each of them.

  3. **The bound (`outage_bound`)** — in an outage of any length the operation is run at most
     `max 1 failureThreshold` times, and once more for each recovery timeout that passes, on clock
     readings that never go back.
-/
import Mathlib.Data.List.Infix
import FloatProtocols.Reliability.Breaker

namespace FloatProtocols

namespace CircuitBreaker

variable {ε α : Type}

/-! ## Runs -/

/-- The future was awaited. -/
def Report.ran : Report → Bool
  | .rejected => false
  | .succeeded => true
  | .failed _ => true

/-- How many calls of a log ran their future. -/
def runs (log : List Report) : Nat := log.countP Report.ran

@[simp] theorem runs_rejected (log : List Report) : runs (log ++ [.rejected]) = runs log :=
  List.countP_append

@[simp] theorem runs_failed (log : List Report) (time : UInt64) :
    runs (log ++ [.failed time]) = runs log + 1 :=
  List.countP_append

/-- The future would fail. -/
def Invocation.Fails (c : Invocation ε α) : Prop := ∃ e, c.outcome = .error e

theorem report_finish_of_fails {cfg : Config} {b : Breaker} {seen : CircuitState} {c : Invocation ε α}
    (hc : c.Fails) : report c (finish cfg b seen c).1 = .failed c.completed := by
  obtain ⟨e, he⟩ := hc
  rw [finish, he]
  rfl

/-- A call that would fail is rejected, or it fails; a tripped breaker lets it fail only when the
    timeout has passed. -/
theorem View.report_of_fails {cfg : Config} {now : UInt64} {log : List Report} {b : Breaker}
    (hv : View cfg now log b) {c : Invocation ε α} (hnow : now ≤ c.checked) (hc : c.Fails) :
    report c (CircuitBreaker.call cfg b c).1 = .rejected ∨
    (report c (CircuitBreaker.call cfg b c).1 = .failed c.completed ∧
      (Tripped cfg log →
        cfg.recoveryTimeout < (c.checked.toNat - (lastFailed log).toNat) * 1000000)) := by
  rcases hv.call_cases hnow with ⟨-, -, h⟩ | ⟨-, hgt, h⟩ | ⟨hclosed, h⟩
  · rw [h]
    exact .inl rfl
  · rw [h]
    exact .inr ⟨report_finish_of_fails hc, fun _ => Nat.lt_of_not_le hgt⟩
  · rw [h]
    exact .inr ⟨report_finish_of_fails hc, fun ht => absurd ht hclosed⟩

/-! ## The invariant -/

/-- Where an outage stands that began at `start` behind the log `before`: nothing has succeeded since,
    and the runs beyond the first `max 1 failureThreshold` lie a timeout apart. -/
structure Pressure (cfg : Config) (start : UInt64) (before log : List Report) : Prop where
  failed : runs log ≤ runs before + failures log
  paced : runs before + max 1 cfg.failureThreshold.toNat ≤ runs log →
    start.toNat * 1000000 + (runs log - runs before - max 1 cfg.failureThreshold.toNat) * cfg.recoveryTimeout
      ≤ (lastFailed log).toNat * 1000000

theorem pressure_refl (cfg : Config) (start : UInt64) (log : List Report) :
    Pressure cfg start log log where
  failed := Nat.le_add_right ..
  paced h := by omega

/-- **One more call of the outage.** -/
theorem Pressure.concat {cfg : Config} {start now : UInt64} {before log : List Report} {b : Breaker}
    (hp : Pressure cfg start before log) (hv : View cfg now log b) (hstart : start ≤ now)
    {c : Invocation ε α} (hnow : now ≤ c.checked) (hdone : c.checked ≤ c.completed) (hc : c.Fails) :
    Pressure cfg start before (log ++ [report c (CircuitBreaker.call cfg b c).1]) := by
  obtain ⟨hfailed, hpaced⟩ := hp
  rcases hv.report_of_fails hnow hc with hrej | ⟨hran, hwait⟩
  · rw [hrej]
    refine ⟨?_, ?_⟩
    · rwa [runs_rejected, failures_rejected]
    · rwa [runs_rejected, lastFailed_rejected]
  · rw [hran]
    have hle : start.toNat ≤ c.completed.toNat :=
      UInt64.le_iff_toNat_le.mp (UInt64.le_trans hstart (UInt64.le_trans hnow hdone))
    have hchecked : c.checked.toNat ≤ c.completed.toNat := UInt64.le_iff_toNat_le.mp hdone
    refine ⟨?_, fun hmany => ?_⟩
    · rw [runs_failed, failures_failed]
      omega
    · rw [runs_failed] at hmany ⊢
      rw [lastFailed_failed]
      rcases Nat.lt_or_ge (runs log) (runs before + max 1 cfg.failureThreshold.toNat) with hfew | henough
      · -- the run that trips the breaker
        have hzero : runs log + 1 - runs before - max 1 cfg.failureThreshold.toNat = 0 := by omega
        rw [hzero, Nat.zero_mul]
        omega
      · have htripped : Tripped cfg log := by
          rw [Tripped]
          omega
        have hsucc : runs log + 1 - runs before - max 1 cfg.failureThreshold.toNat =
            runs log - runs before - max 1 cfg.failureThreshold.toNat + 1 := by omega
        have hlast := hpaced henough
        have hgap := hwait htripped
        rw [hsucc, Nat.succ_mul]
        omega

/-! ## The bound -/

theorem clockAfter_le_append (outage : List (Invocation ε α)) :
    ∀ (now : UInt64) (calls : List (Invocation ε α)), Timely now (calls ++ outage) →
      clockAfter now calls ≤ clockAfter now (calls ++ outage) := by
  intro now calls
  induction outage using List.reverseRecOn with
  | nil =>
    intro _
    rw [List.append_nil]
    exact UInt64.le_refl _
  | append_singleton outage c ih =>
    intro ht
    rw [← List.append_assoc] at ht ⊢
    obtain ⟨ht, hnow, hc⟩ := (timely_concat c now _).mp ht
    rw [clockAfter_concat]
    exact UInt64.le_trans (ih ht) (UInt64.le_trans hnow hc)

/-- The whole outage, by induction on its end. -/
theorem pressure_runCalls (cfg : Config) (calls outage : List (Invocation ε α))
    (ht : Timely 0 (calls ++ outage)) (hf : FewFailures cfg (calls ++ outage))
    (hfail : ∀ c ∈ outage, c.Fails) :
    Pressure cfg (clockAfter 0 calls) (runCalls cfg calls).2 (runCalls cfg (calls ++ outage)).2 := by
  induction outage using List.reverseRecOn with
  | nil =>
    rw [List.append_nil]
    exact pressure_refl ..
  | append_singleton outage c ih =>
    rw [← List.append_assoc] at ht hf ⊢
    obtain ⟨ht, hnow, hc⟩ := (timely_concat c 0 _).mp ht
    have hf' : FewFailures cfg (calls ++ outage) :=
      fun pre hpre => hf pre (hpre.trans (List.prefix_append ..))
    have hp := ih ht hf' fun d hd => hfail d (List.mem_append_left _ hd)
    rw [runCalls_concat]
    exact hp.concat (view_runCalls cfg _ ht hf') (clockAfter_le_append outage 0 calls ht) hnow hc
      (hfail c (List.mem_append_right _ (List.mem_singleton_self c)))

/-- **A broken operation is left alone.**  After any run of calls, let every future fail from now on.
    As long as no clock reading is before an earlier one (`Timely`) and fewer than `2 ^ 32` failures
    are counted in a row (`FewFailures`): however many calls are made, one after the other, the futures
    run are at most `max 1 failureThreshold`, and one more for each recovery timeout in the time that
    has passed. -/
theorem outage_bound (cfg : Config) (calls outage : List (Invocation ε α))
    (ht : Timely 0 (calls ++ outage)) (hf : FewFailures cfg (calls ++ outage))
    (hfail : ∀ c ∈ outage, c.Fails) :
    runs (runCalls cfg (calls ++ outage)).2 * cfg.recoveryTimeout ≤
      (runs (runCalls cfg calls).2 + max 1 cfg.failureThreshold.toNat) * cfg.recoveryTimeout +
        ((clockAfter 0 (calls ++ outage)).toNat - (clockAfter 0 calls).toNat) * 1000000 := by
  obtain ⟨-, hpaced⟩ := pressure_runCalls cfg calls outage ht hf hfail
  have hv := view_runCalls cfg _ ht hf
  have hpast := UInt64.le_iff_toNat_le.mp (hv.last ▸ hv.past)
  rcases Nat.lt_or_ge (runs (runCalls cfg (calls ++ outage)).2)
    (runs (runCalls cfg calls).2 + max 1 cfg.failureThreshold.toNat) with hfew | hmany
  · exact Nat.le_trans (Nat.mul_le_mul_right _ (Nat.le_of_lt hfew)) (Nat.le_add_right ..)
  · have hlast := hpaced hmany
    obtain ⟨further, hfurther⟩ := Nat.exists_eq_add_of_le hmany
    have hextra : runs (runCalls cfg (calls ++ outage)).2 - runs (runCalls cfg calls).2 -
        max 1 cfg.failureThreshold.toNat = further := by omega
    rw [hextra] at hlast
    rw [hfurther, Nat.add_mul _ further]
    omega

/-- Four calls of one failing operation, 10 ms apart, under a threshold of 2 and a timeout of 25 ms:
    two run at once, the third is turned away, the fourth is the probe. -/
def flatline : List (Invocation Unit Unit) :=
  [⟨0, 0, .error ()⟩, ⟨10, 10, .error ()⟩, ⟨20, 20, .error ()⟩, ⟨40, 40, .error ()⟩]

theorem outage_bound_flatline :
    runs (runCalls ⟨2, 25000000⟩ flatline).2 = 3 ∧
    runs (runCalls ⟨2, 25000000⟩ flatline).2 * 25000000 ≤ 2 * 25000000 + 40 * 1000000 := by
  have htimely : Timely 0 flatline := by
    simp only [flatline, Timely]
    decide
  have hfew : ∀ pre ∈ flatline.inits, failures (runCalls ⟨2, 25000000⟩ pre).2 < 2 ^ 32 := by decide
  have hfail : ∀ c ∈ flatline, c.Fails := by simp [flatline, Invocation.Fails]
  exact ⟨by decide, outage_bound ⟨2, 25000000⟩ [] flatline htimely
    (fun pre hpre => hfew pre ((List.mem_inits pre flatline).mpr hpre)) hfail⟩

end CircuitBreaker

end FloatProtocols
