/-
  Who closes the breaker again, and who is counted while it is half open.

  The calls of `BreakerThreads` run here under a watch that the code does not have: how often the
  breaker has become Open, in which of these phases each call was admitted, and how many calls were
  dropped at their await after the half-open limiter had counted them.  The watch changes nothing
  (`run_toSys`).

  1. **Closing** — `on_success` stores Closed without looking: a call that was admitted before the
     breaker opened closes it when it succeeds late (`late_success_closes`).  What keeps a phase's
     closing to its own calls is `Orderly`: a call succeeds in the phase it was admitted in, nobody is
     on the way to store Closed when the breaker opens, and HalfOpen is not stored over Closed.

  2. **Counting** — `half_open_calls` is raised before the await and lowered behind it, and a call that
     is dropped in between never lowers it.  The counter is, at every moment and modulo `2 ^ 32`, the
     calls in flight that were admitted half open, the calls turned away that have not counted
     themselves out yet, and the calls dropped so far (`Counted`).  One dropped call is enough to
     reject every later one (`dropped_probe_blocks`).
-/
import FloatProtocols.Reliability.BreakerThreads

namespace FloatProtocols

namespace CircuitBreaker

variable {n : Nat}

/-! ## The watch -/

/-- The future is being awaited. -/
def Pc.isRunning : Pc → Bool
  | .running _ => true
  | _ => false

/-- The calls with the watch. -/
structure Watched (n : Nat) extends Sys n where
  /-- How often the breaker has become Open. -/
  openings : Nat
  /-- The value of `openings` when the call was admitted. -/
  admitted : Fin n → Nat
  /-- How many calls admitted in HalfOpen were dropped at their await. -/
  dropped : Nat

/-- Nothing called yet. -/
def Watched.init (n : Nat) : Watched n :=
  { Sys.init n with openings := 0, admitted := fun _ => 0, dropped := 0 }

/-- The move drops a call that the half-open limiter has counted. -/
def drops (m : Move) (pc : Pc) : Nat := if m = .cancel ∧ pc = .running .halfOpen then 1 else 0

/-- Call `i` moves, and the watch with it. -/
def Watched.step (cfg : Config) (s : Watched n) (a : Fin n × Move) : Option (Watched n) :=
  (s.toSys.step cfg a).map fun t =>
    { t with
      openings := if s.breaker.state ≠ .open ∧ t.breaker.state = .open then s.openings + 1 else s.openings
      admitted := if (t.pc a.1).isRunning then Function.update s.admitted a.1 s.openings else s.admitted
      dropped := s.dropped + drops a.2 (s.pc a.1) }

/-- The watched calls are the calls. -/
theorem run_toSys (cfg : Config) (acts : List (Fin n × Move)) :
    ∀ s : Watched n, (Trace.run (Watched.step cfg) s acts).map Watched.toSys =
      Trace.run (Sys.step cfg) s.toSys acts := by
  induction acts with
  | nil => exact fun _ => rfl
  | cons a acts ih =>
    intro s
    rw [Trace.run, Trace.run, Watched.step]
    cases s.toSys.step cfg a with
    | none => rfl
    | some t => exact ih _

/-- What one step does to calls and watch. -/
theorem Watched.step_moves {cfg : Config} {s t : Watched n} {i : Fin n} {m : Move}
    (h : s.step cfg (i, m) = some t) :
    ∃ pc', Moves cfg m (s.pc i) s.breaker pc' t.breaker ∧ t.pc = Function.update s.pc i pc' ∧
      t.openings =
        (if s.breaker.state ≠ .open ∧ t.breaker.state = .open then s.openings + 1 else s.openings) ∧
      t.admitted = (if pc'.isRunning then Function.update s.admitted i s.openings else s.admitted) ∧
      t.dropped = s.dropped + drops m (s.pc i) := by
  obtain ⟨u, hu, rfl⟩ := Option.map_eq_some_iff.mp h
  obtain ⟨⟨pc', b'⟩, hmove, rfl⟩ := Option.map_eq_some_iff.mp hu
  refine ⟨pc', move_moves hmove, rfl, rfl, ?_, rfl⟩
  show (if (Function.update s.pc i pc' i).isRunning then _ else _) = _
  rw [Function.update_self]

/-! ## Closing -/

/-- On the way through `on_success`. -/
def Pc.succeeding : Pc → Bool
  | .resetCount _ => true
  | .storeClosed _ => true
  | _ => false

/-- Admitted by a Closed breaker, and still able to store Closed. -/
def Pc.fromClosed : Pc → Bool
  | .running seen => seen == .closed
  | .resetCount seen => seen == .closed
  | .storeClosed seen => seen == .closed
  | _ => false

variable {cfg : Config} {m : Move} {pc pc' : Pc} {b b' : Breaker}

@[simp] theorem succeeding_exit (seen : CircuitState) (v : Verdict) :
    (Pc.exit seen v).succeeding = false := by
  unfold Pc.exit
  split <;> rfl

@[simp] theorem fromClosed_exit (seen : CircuitState) (v : Verdict) :
    (Pc.exit seen v).fromClosed = false := by
  unfold Pc.exit
  split <;> rfl

/-- Three stores change the state. -/
theorem Moves.state (h : Moves cfg m pc b pc' b') :
    b'.state = b.state ∨
    (b'.state = .halfOpen ∧ pc = .storeHalfOpen ∧ ∃ now, m = .op now) ∨
    (b'.state = .closed ∧ ∃ seen now, pc = .storeClosed seen ∧ m = .op now) ∨
    (b'.state = .open ∧ ∃ seen now, pc = .storeOpen seen ∧ m = .op now) := by
  cases h with
  | storeHalfOpen => exact .inr (.inl ⟨rfl, rfl, _, rfl⟩)
  | storeClosed => exact .inr (.inr (.inl ⟨rfl, _, _, rfl, rfl⟩))
  | storeOpen => exact .inr (.inr (.inr ⟨rfl, _, _, rfl, rfl⟩))
  | _ => exact .inl rfl

/-- Into `on_success` leads the await alone. -/
theorem Moves.succeeding (h : Moves cfg m pc b pc' b') (hpc' : pc'.succeeding = true) :
    ((∃ seen, pc = .running seen ∧ m = .complete true) ∨ pc.succeeding = true) ∧
      pc'.isRunning = false ∧ b'.state = b.state := by
  cases h with
  | succeed => exact ⟨.inl ⟨_, rfl, rfl⟩, rfl, rfl⟩
  | resetCount => exact ⟨.inr rfl, rfl, rfl⟩
  | storeClosed => exact absurd hpc' (by simp)
  | stayBelow _ => exact absurd hpc' (by simp)
  | storeOpen => exact absurd hpc' (by simp)
  | _ => exact absurd hpc' (by simp [Pc.succeeding])

/-- A call comes from a Closed breaker by reading Closed. -/
theorem Moves.fromClosed (h : Moves cfg m pc b pc' b') (hpc' : pc'.fromClosed = true) :
    b'.state = b.state ∧ (b.state = .closed ∨ (pc.fromClosed = true ∧ pc'.isRunning = false)) := by
  cases h with
  | loadClosed hclosed => exact ⟨rfl, .inl hclosed⟩
  | succeed => exact ⟨rfl, .inr ⟨hpc', rfl⟩⟩
  | resetCount => exact ⟨rfl, .inr ⟨hpc', rfl⟩⟩
  | storeClosed => exact absurd hpc' (by simp)
  | stayBelow _ => exact absurd hpc' (by simp)
  | storeOpen => exact absurd hpc' (by simp)
  | _ => exact absurd hpc' (by simp [Pc.fromClosed])

/-- A call succeeds in the phase it was admitted in; the store that opens the breaker finds nobody in
    `on_success`; HalfOpen is not stored over Closed. -/
def Orderly (s : Watched n) (a : Fin n × Move) : Prop :=
  match a.2, s.pc a.1 with
  | .complete true, .running _ => s.admitted a.1 = s.openings
  | .op _, .storeOpen _ => s.breaker.state ≠ .open → ∀ j, (s.pc j).succeeding = false
  | .op _, .storeHalfOpen => s.breaker.state ≠ .closed
  | _, _ => True

instance (s : Watched n) : ∀ a : Fin n × Move, Decidable (Orderly s a)
  | (i, m) => by
    unfold Orderly
    split <;> infer_instance

/-- If the step takes the breaker from Open or HalfOpen to Closed, it is the store of a successful
    call that was admitted after the breaker last became Open, and not by a Closed breaker. -/
def ClosedByNewcomer (cfg : Config) (s : Watched n) (a : Fin n × Move) : Prop :=
  ∀ t, s.step cfg a = some t → s.breaker.state ≠ .closed → t.breaker.state = .closed →
    ∃ seen, s.pc a.1 = .storeClosed seen ∧ seen ≠ .closed ∧ s.admitted a.1 = s.openings

/-- Who may still store Closed belongs to the present phase, and a call that a Closed breaker admitted
    in the present phase finds it Closed. -/
structure Current (s : Watched n) : Prop where
  le : ∀ j, s.admitted j ≤ s.openings
  success : ∀ j, (s.pc j).succeeding = true → s.admitted j = s.openings
  closed : ∀ j, (s.pc j).fromClosed = true → s.admitted j = s.openings → s.breaker.state = .closed

theorem current_init : Current (Watched.init n) where
  le _ := Nat.le_refl 0
  success _ h := nomatch h
  closed _ h := nomatch h

section Step

variable {s t : Watched n} {i : Fin n}

/-- Who does not move keeps place and phase. -/
theorem Watched.step_other (h : s.step cfg (i, m) = some t) {j : Fin n} (hj : j ≠ i) :
    t.pc j = s.pc j ∧ t.admitted j = s.admitted j := by
  obtain ⟨pc', -, hpc, -, hadmitted, -⟩ := Watched.step_moves h
  refine ⟨by rw [hpc, Function.update_of_ne hj], ?_⟩
  rw [hadmitted]
  split
  · exact Function.update_of_ne hj _ _
  · rfl

/-- A new phase begins with the store of Open into another state. -/
theorem Watched.step_openings (h : s.step cfg (i, m) = some t) :
    t.openings = s.openings ∨
    (t.openings = s.openings + 1 ∧ s.breaker.state ≠ .open ∧ t.breaker.state = .open ∧
      ∃ seen now, s.pc i = .storeOpen seen ∧ m = .op now) := by
  obtain ⟨pc', hmoves, -, hopenings, -⟩ := Watched.step_moves h
  split at hopenings
  · rename_i hopening
    refine .inr ⟨hopenings, hopening.1, hopening.2, ?_⟩
    rcases hmoves.state with heq | ⟨heq, -⟩ | ⟨heq, -⟩ | ⟨-, hopen⟩
    · exact absurd (heq.symm.trans hopening.2) hopening.1
    · exact absurd (heq.symm.trans hopening.2) (by decide)
    · exact absurd (heq.symm.trans hopening.2) (by decide)
    · exact hopen
  · exact .inl hopenings

/-- A step that does not end in a newly stored Open stays in its phase. -/
theorem Watched.openings_eq (h : s.step cfg (i, m) = some t)
    (hstate : t.breaker.state = s.breaker.state ∨ t.breaker.state ≠ .open) :
    t.openings = s.openings := by
  rcases Watched.step_openings h with heq | ⟨-, hclosed, hopen, -⟩
  · exact heq
  · rcases hstate with hsame | hne
    · exact absurd (hsame.symm.trans hopen) hclosed
    · exact absurd hopen hne

theorem Current.le_step (h : s.step cfg (i, m) = some t) (hs : Current s) (j : Fin n) :
    t.admitted j ≤ t.openings := by
  obtain ⟨pc', -, -, -, hadmitted, -⟩ := Watched.step_moves h
  have hle : s.openings ≤ t.openings := by
    rcases Watched.step_openings h with heq | ⟨heq, -⟩ <;> omega
  rw [hadmitted]
  split
  · exact Trace.forall_update (P := fun _ k => k ≤ t.openings) hle (fun j => (hs.le j).trans hle) j
  · exact (hs.le j).trans hle

theorem Current.success_step (hC : Orderly s (i, m)) (h : s.step cfg (i, m) = some t)
    (hs : Current s) (j : Fin n) (hj : (t.pc j).succeeding = true) : t.admitted j = t.openings := by
  obtain ⟨pc', hmoves, hpc, -, hadmitted, -⟩ := Watched.step_moves h
  unfold Orderly at hC
  rcases eq_or_ne j i with rfl | hne
  · rw [hpc, Function.update_self] at hj
    obtain ⟨hfrom, hrunning, hstate⟩ := hmoves.succeeding hj
    rw [hadmitted, hrunning, if_neg Bool.false_ne_true, Watched.openings_eq h (.inl hstate)]
    rcases hfrom with ⟨seen, hseen, rfl⟩ | hsucc
    · rw [hseen] at hC
      exact hC
    · exact hs.success j hsucc
  · obtain ⟨hpcj, hadmj⟩ := Watched.step_other h hne
    rw [hpcj] at hj
    rw [hadmj]
    rcases Watched.step_openings h with heq | ⟨-, hopen, -, seen, now, hpci, rfl⟩
    · exact (hs.success j hj).trans heq.symm
    · -- the breaker opens under a call in `on_success`: excluded
      rw [hpci] at hC
      rw [hC hopen j] at hj
      cases hj

theorem Current.closed_step (hC : Orderly s (i, m)) (h : s.step cfg (i, m) = some t)
    (hs : Current s) (j : Fin n) (hj : (t.pc j).fromClosed = true)
    (hphase : t.admitted j = t.openings) : t.breaker.state = .closed := by
  obtain ⟨pc', hmoves, hpc, hopenings, hadmitted, -⟩ := Watched.step_moves h
  unfold Orderly at hC
  rcases eq_or_ne j i with rfl | hne
  · rw [hpc, Function.update_self] at hj
    obtain ⟨hstate, hclosed | ⟨hfrom, hrunning⟩⟩ := hmoves.fromClosed hj
    · exact hstate.trans hclosed
    · rw [hadmitted, hrunning, if_neg Bool.false_ne_true, Watched.openings_eq h (.inl hstate)] at hphase
      exact hstate.trans (hs.closed j hfrom hphase)
  · obtain ⟨hpcj, hadmj⟩ := Watched.step_other h hne
    rw [hpcj] at hj
    rw [hadmj] at hphase
    -- in the phase it was admitted in, the call found the breaker Closed
    have hfound : t.openings = s.openings → s.breaker.state = .closed := by
      intro heq
      exact hs.closed j hj (hphase.trans heq)
    rcases hmoves.state with heq | ⟨heq, hpci, now, rfl⟩ | ⟨heq, -⟩ | ⟨heq, -⟩
    · exact heq.trans (hfound (Watched.openings_eq h (.inl heq)))
    · -- HalfOpen over Closed: excluded
      rw [hpci] at hC
      exact absurd (hfound (Watched.openings_eq h (.inr (by rw [heq]; decide)))) hC
    · exact heq
    · by_cases hopen : s.breaker.state = .open
      · have hclosed := hfound (Watched.openings_eq h (.inl (heq.trans hopen.symm)))
        exact absurd (hopen.symm.trans hclosed) (by decide)
      · -- a new phase: the call is of an older one
        rw [hopenings, if_pos ⟨hopen, heq⟩] at hphase
        have := hs.le j
        omega

/-- **One orderly step keeps the phases apart.** -/
theorem Current.step {a : Fin n × Move} (hC : Orderly s a) (h : s.step cfg a = some t)
    (hs : Current s) : Current t :=
  ⟨hs.le_step h, hs.success_step hC h, hs.closed_step hC h⟩

end Step

/-- Between orderly phases, a closing step is a newcomer's. -/
theorem Current.closedByNewcomer {s : Watched n} (hs : Current s) (a : Fin n × Move) :
    ClosedByNewcomer cfg s a := by
  obtain ⟨i, m⟩ := a
  intro t h hopen hclosed
  obtain ⟨pc', hmoves, -⟩ := Watched.step_moves h
  rcases hmoves.state with heq | ⟨heq, -⟩ | ⟨-, seen, now, hpci, -⟩ | ⟨heq, -⟩
  · exact absurd (heq.symm.trans hclosed) hopen
  · exact absurd (heq.symm.trans hclosed) (by decide)
  · have hpci' : s.pc i = .storeClosed seen := hpci
    have hphase : s.admitted i = s.openings := hs.success i (by rw [hpci']; rfl)
    refine ⟨seen, hpci', ?_, hphase⟩
    rintro rfl
    exact hopen (hs.closed i (by rw [hpci']; rfl) hphase)
  · exact absurd (heq.symm.trans hclosed) (by decide)

/-- **Who closes the breaker.**  In every run of any number of overlapping calls whose steps are all
    orderly, every step from Open or HalfOpen to Closed is the success of a call that was admitted
    after the breaker last became Open. -/
theorem closedByNewcomer_of_orderly (cfg : Config) (acts : List (Fin n × Move))
    (hall : Trace.Along (Watched.step cfg) Orderly (Watched.init n) acts) :
    Trace.Along (Watched.step cfg) (ClosedByNewcomer cfg) (Watched.init n) acts :=
  Trace.Along.of_invariant (fun _ _ _ hC h hs => hs.step hC h) (fun _ a hs => hs.closedByNewcomer a)
    acts _ hall current_init

/-- Call 0 opens a breaker of threshold 1, call 1 probes it and succeeds. -/
def goodProbe : List (Fin 2 × Move) :=
  [(0, .begin), (0, .op 0), (0, .complete false), (0, .op 0), (0, .op 1), (0, .op 0),
    (1, .begin), (1, .op 0), (1, .op 0), (1, .op 5), (1, .op 0), (1, .complete true), (1, .op 0),
    (1, .op 0)]

theorem closedByNewcomer_of_orderly_probe :
    (∃ s, Trace.run (Watched.step ⟨1, 0⟩) (Watched.init 2) goodProbe = some s ∧
      s.breaker.state = .closed ∧ s.openings = 1) ∧
    Trace.Along (Watched.step ⟨1, 0⟩) (ClosedByNewcomer ⟨1, 0⟩) (Watched.init 2) goodProbe :=
  ⟨⟨_, rfl, rfl, rfl⟩, closedByNewcomer_of_orderly ⟨1, 0⟩ goodProbe (by decide)⟩

/-- Call 0 fails and opens a breaker of threshold 1; call 1 was admitted before, and succeeds late. -/
def lateSuccess : List (Fin 2 × Move) :=
  [(1, .begin), (1, .op 0), (0, .begin), (0, .op 0), (0, .complete false), (0, .op 0), (0, .op 1),
    (0, .op 0), (1, .complete true), (1, .op 0), (1, .op 0)]

/-- The breaker opens, no time passes, no probe is made, and it is Closed again. -/
theorem late_success_closes :
    ¬ Trace.Along (Watched.step ⟨1, 1000⟩) (ClosedByNewcomer ⟨1, 1000⟩) (Watched.init 2) lateSuccess := by
  intro hall
  have hreached : ∃ s t : Watched 2,
      Trace.run (Watched.step ⟨1, 1000⟩) (Watched.init 2) (lateSuccess.take 10) = some s ∧
      s.step ⟨1, 1000⟩ (1, .op 0) = some t ∧ s.breaker.state = .open ∧ t.breaker.state = .closed ∧
      s.admitted 1 = 0 ∧ s.openings = 1 := ⟨_, _, rfl, rfl, rfl, rfl, rfl, rfl⟩
  obtain ⟨s, t, hrun, hstep, hopen, hclosed, hadmitted, hopenings⟩ := hreached
  have hlast := @Trace.Along.of_append _ _ _ _ (lateSuccess.take 10) _ [] _ _ hall hrun
  obtain ⟨-, -, -, hphase⟩ := hlast t hstep (by rw [hopen]; decide) hclosed
  rw [hadmitted, hopenings] at hphase
  cases hphase

/-! ## Counting -/

/-- Admitted in HalfOpen, and not counted out yet. -/
def Pc.holds : Pc → Nat
  | .running seen => if seen = .halfOpen then 1 else 0
  | .resetCount seen => if seen = .halfOpen then 1 else 0
  | .storeClosed seen => if seen = .halfOpen then 1 else 0
  | .addFailure seen => if seen = .halfOpen then 1 else 0
  | .storeFailureTime seen _ => if seen = .halfOpen then 1 else 0
  | .storeOpen seen => if seen = .halfOpen then 1 else 0
  | .subHalfOpen _ => 1
  | _ => 0

/-- Turned away by the limiter, and not counted out yet. -/
def Pc.undoes : Pc → Nat
  | .undoHalfOpen => 1
  | _ => 0

theorem holds_exit (seen : CircuitState) (v : Verdict) :
    (Pc.exit seen v).holds = if seen = .halfOpen then 1 else 0 := by
  unfold Pc.exit
  split <;> rfl

theorem undoes_exit (seen : CircuitState) (v : Verdict) : (Pc.exit seen v).undoes = 0 := by
  unfold Pc.exit
  split <;> rfl

/-- The calls in flight that were admitted in HalfOpen. -/
def Sys.holding (s : Sys n) : Nat := ∑ j, (s.pc j).holds

/-- The calls in the middle of being turned away. -/
def Sys.undoing (s : Sys n) : Nat := ∑ j, (s.pc j).undoes

/-- The counter against its owners: a move changes both sides by as much. -/
theorem Moves.calls (h : Moves cfg m pc b pc' b') :
    b'.halfOpenCalls + .ofNat (pc.holds + pc.undoes) =
      b.halfOpenCalls + .ofNat (pc'.holds + pc'.undoes + drops m pc) := by
  cases h with
  | letIn _ => simp [Pc.holds, Pc.undoes, drops]
  | turnAway _ => simp [Pc.holds, Pc.undoes, drops]
  | undoHalfOpen => simp [Pc.holds, Pc.undoes, drops]
  | subHalfOpen => simp [Pc.holds, Pc.undoes, drops]
  | storeClosed => rw [holds_exit, undoes_exit]; rfl
  | stayBelow _ => rw [holds_exit, undoes_exit]; rfl
  | storeOpen => rw [holds_exit, undoes_exit]; rfl
  | @cancel seen => cases seen <;> rfl
  | _ => rfl

/-- The counter is the calls counted in and not out: held, being undone, dropped. -/
def Counted (s : Watched n) : Prop :=
  s.breaker.halfOpenCalls = .ofNat (s.holding + s.undoing + s.dropped)

theorem counted_init : Counted (Watched.init n) := by
  have hholding : (Sys.init n).holding = 0 := Finset.sum_eq_zero fun _ _ => rfl
  have hundoing : (Sys.init n).undoing = 0 := Finset.sum_eq_zero fun _ _ => rfl
  show (0 : UInt32) = .ofNat ((Sys.init n).holding + (Sys.init n).undoing + 0)
  rw [hholding, hundoing]
  rfl

theorem Counted.step {s t : Watched n} {a : Fin n × Move} (h : s.step cfg a = some t)
    (hs : Counted s) : Counted t := by
  obtain ⟨i, m⟩ := a
  obtain ⟨pc', hmoves, hpc, -, -, hdropped⟩ := Watched.step_moves h
  have hholding : t.holding + (s.pc i).holds = s.holding + pc'.holds := by
    unfold Sys.holding
    rw [hpc]
    exact Trace.sum_update (Finset.mem_univ i) Pc.holds s.pc pc'
  have hundoing : t.undoing + (s.pc i).undoes = s.undoing + pc'.undoes := by
    unfold Sys.undoing
    rw [hpc]
    exact Trace.sum_update (Finset.mem_univ i) Pc.undoes s.pc pc'
  have hsum : t.holding + t.undoing + t.dropped + ((s.pc i).holds + (s.pc i).undoes) =
      s.holding + s.undoing + s.dropped + (pc'.holds + pc'.undoes + drops m (s.pc i)) := by
    omega
  have hcalls : t.breaker.halfOpenCalls + .ofNat ((s.pc i).holds + (s.pc i).undoes) =
      .ofNat (t.holding + t.undoing + t.dropped) + .ofNat ((s.pc i).holds + (s.pc i).undoes) := by
    rw [hmoves.calls, hs, ← UInt32.ofNat_add, ← hsum, ← UInt32.ofNat_add]
  exact (UInt32.add_left_inj _).mp hcalls

/-- Called, and not returned or dropped yet. -/
def Pc.inFlight : Pc → Bool
  | .idle => false
  | .done _ => false
  | _ => true

/-- No call is in flight. -/
def Sys.Quiet (s : Sys n) : Prop := ∀ j, (s.pc j).inFlight = false

instance (s : Sys n) : Decidable s.Quiet :=
  inferInstanceAs (Decidable (∀ j, (s.pc j).inFlight = false))

theorem counts_of_not_inFlight {pc : Pc} (h : pc.inFlight = false) : pc.holds = 0 ∧ pc.undoes = 0 := by
  cases pc with
  | idle => exact ⟨rfl, rfl⟩
  | done v => exact ⟨rfl, rfl⟩
  | _ => cases h

theorem holding_of_quiet {s : Sys n} (h : s.Quiet) : s.holding = 0 ∧ s.undoing = 0 :=
  ⟨Finset.sum_eq_zero fun j _ => (counts_of_not_inFlight (h j)).1,
    Finset.sum_eq_zero fun j _ => (counts_of_not_inFlight (h j)).2⟩

/-- The next call of a half-open breaker: three moves, and it runs or is turned away. -/
def nextCall (i : Fin n) : List (Fin n × Move) := [(i, .begin), (i, .op 0), (i, .op 0)]

/-- Call `i` is let through to its future. -/
def Admits (cfg : Config) (s : Sys n) (i : Fin n) : Prop :=
  ∃ t, Trace.run (Sys.step cfg) s (nextCall i) = some t ∧ (t.pc i).isRunning = true

theorem run_nextCall (cfg : Config) {s : Sys n} {i : Fin n} (hstate : s.breaker.state = .halfOpen)
    (hidle : s.pc i = .idle) :
    ∃ t, Trace.run (Sys.step cfg) s (nextCall i) = some t ∧
      t.pc i = if s.breaker.halfOpenCalls > 0 then .undoHalfOpen else .running .halfOpen := by
  refine ⟨⟨{ s.breaker with halfOpenCalls := s.breaker.halfOpenCalls + 1 },
    Function.update s.pc i (if s.breaker.halfOpenCalls > 0 then .undoHalfOpen else .running .halfOpen),
    s.window⟩, ?_, Function.update_self ..⟩
  simp only [nextCall, Trace.run, Sys.step, move, hidle, if_true, Option.map_some, Option.bind_some,
    Function.update_self, atomic_loadState_halfOpen hstate, atomic_addHalfOpen, Function.update_idem,
    Sys.windowAfter]

theorem admits_iff {s : Sys n} {i : Fin n} (hstate : s.breaker.state = .halfOpen)
    (hidle : s.pc i = .idle) : Admits cfg s i ↔ s.breaker.halfOpenCalls = 0 := by
  obtain ⟨t, hrun, hpc⟩ := run_nextCall cfg hstate hidle
  constructor
  · rintro ⟨t', hrun', hrunning⟩
    obtain rfl := Option.some.inj (hrun.symm.trans hrun')
    refine eq_zero_of_not_pos fun hpos => ?_
    rw [hpc, if_pos hpos] at hrunning
    cases hrunning
  · intro hzero
    refine ⟨t, hrun, ?_⟩
    rw [hpc, hzero]
    rfl

/-- **What the half-open counter counts.**  In every state of every run, cancellations included, it
    equals the number of calls in flight that were admitted in HalfOpen exactly when what it counts
    beyond them, calls being turned away and calls dropped earlier, vanishes modulo `2 ^ 32`; and a
    half-open breaker with no call in flight admits the next call exactly when the calls dropped
    earlier do. -/
theorem halfOpenCalls_eq_iff (cfg : Config) (acts : List (Fin n × Move)) (s : Watched n)
    (hrun : Trace.run (Watched.step cfg) (Watched.init n) acts = some s) :
    (s.breaker.halfOpenCalls.toNat = s.holding ↔
      (s.holding + s.undoing + s.dropped) % 2 ^ 32 = s.holding) ∧
    (s.breaker.state = .halfOpen → s.Quiet → ∀ i, s.pc i = .idle →
      (Admits cfg s.toSys i ↔ s.dropped % 2 ^ 32 = 0)) := by
  have hcounted : Counted s :=
    Trace.invariant (fun _ _ _ h hP => Counted.step h hP) acts _ s hrun counted_init
  have hnat : s.breaker.halfOpenCalls.toNat = (s.holding + s.undoing + s.dropped) % 2 ^ 32 := by
    rw [hcounted, UInt32.toNat_ofNat']
  refine ⟨by rw [hnat], fun hstate hquiet i hidle => ?_⟩
  obtain ⟨hholding, hundoing⟩ := holding_of_quiet hquiet
  rw [admits_iff hstate hidle, ← UInt32.toNat_inj, hnat, hholding, hundoing, Nat.zero_add]
  rfl

/-- Call 0 opens the breaker, call 1 takes it to HalfOpen and is dropped: it was never counted. -/
def droppedOpener : List (Fin 4 × Move) :=
  [(0, .begin), (0, .op 0), (0, .complete false), (0, .op 0), (0, .op 1), (0, .op 0),
    (1, .begin), (1, .op 0), (1, .op 0), (1, .op 5), (1, .op 0), (1, .cancel)]

theorem halfOpenCalls_eq_iff_opener :
    ∃ s : Watched 4, Trace.run (Watched.step ⟨1, 0⟩) (Watched.init 4) droppedOpener = some s ∧
      Admits ⟨1, 0⟩ s.toSys 2 := by
  have hreached : ∃ s : Watched 4,
      Trace.run (Watched.step ⟨1, 0⟩) (Watched.init 4) droppedOpener = some s ∧
      s.breaker.state = .halfOpen ∧ s.Quiet ∧ s.pc 2 = .idle ∧ s.dropped = 0 :=
    ⟨_, rfl, rfl, by decide, rfl, rfl⟩
  obtain ⟨s, hrun, hstate, hquiet, hidle, hdropped⟩ := hreached
  refine ⟨s, hrun, ((halfOpenCalls_eq_iff ⟨1, 0⟩ droppedOpener s hrun).2 hstate hquiet 2 hidle).mpr ?_⟩
  rw [hdropped, Nat.zero_mod]

/-- Call 0 opens the breaker, call 1 takes it to HalfOpen, call 2 is admitted half open; both are
    dropped. -/
def droppedProbe : List (Fin 4 × Move) :=
  [(0, .begin), (0, .op 0), (0, .complete false), (0, .op 0), (0, .op 1), (0, .op 0),
    (1, .begin), (1, .op 0), (1, .op 0), (1, .op 5), (1, .op 0),
    (2, .begin), (2, .op 0), (2, .op 0), (2, .cancel), (1, .cancel)]

/-- Half open, nobody in flight, a count of one, and the next call is rejected. -/
theorem dropped_probe_blocks :
    ∃ s : Watched 4, Trace.run (Watched.step ⟨1, 0⟩) (Watched.init 4) droppedProbe = some s ∧
      s.breaker.state = .halfOpen ∧ s.Quiet ∧ s.breaker.halfOpenCalls.toNat = 1 ∧ s.holding = 0 ∧
      ∃ t, Trace.run (Sys.step ⟨1, 0⟩) s.toSys (nextCall 3 ++ [(3, .op 0)]) = some t ∧
        t.pc 3 = .done .rejected :=
  ⟨_, rfl, rfl, by decide, rfl, by decide, _, rfl, rfl⟩

end CircuitBreaker

end FloatProtocols
