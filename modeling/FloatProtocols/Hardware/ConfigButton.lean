/-
  The polling loop of `config_button.rs`.

  1. **Program** — `poll` is one turn of the loop.  What a turn reads is its input: the level of the pin,
     the level after the debounce pause, and two readings of the clock, one for the edge and one for the
     check on a button that is held.  Two things bring the loop to a stop (`stuck`).  Its `sleep` is
     tokio's, which panics outside a runtime, and the loop runs on a `std::thread` of its own.  And the
     `if let` of the check keeps its lock on `press_start` to the end of its body, where `press_start` is
     locked again: past ten seconds the loop waits for itself.

  2. **Specification** — the presses of a run are read off the samples alone (`settled`, `Press`).  A press
     is `Classified` if it gives one Pressed, one Released, and the one event of its length.

  3. **As it is coded (`emitted_thread`)** — the panic comes in the first turn, before any event.

  4. **Inside a runtime (`shape`)** — there the loop would go on.  Between two presses it is at rest, or
     stuck since a press that was over ten seconds; while the button is held it is where the last `down`
     has put it.
-/
import Mathlib.Data.List.Induction

namespace FloatProtocols

namespace ConfigButton

/-! ## Program -/

/-- `Level`; the button is active low. -/
inductive Level where
  | low
  | high
  deriving DecidableEq, Repr

/-- `ButtonEvent`. -/
inductive ButtonEvent where
  | pressed
  | released
  | provisioningMode
  | factoryReset
  deriving DecidableEq, Repr

/-- `PROVISIONING_HOLD_MS`, as a duration in nanoseconds. -/
def provisioningHold : Nat := 3000 * 1000000

/-- `FACTORY_RESET_HOLD_MS`. -/
def factoryResetHold : Nat := 10000 * 1000000

/-- What one turn of the loop reads. -/
structure Poll where
  current : Level
  debounced : Level
  /-- The clock at a press or a release. -/
  edge : Nat
  /-- The clock at the check for a long press. -/
  check : Nat
  deriving DecidableEq, Repr

/-- The loop's `last_level` and the two shared fields. -/
structure Loop where
  lastLevel : Level
  pressed : Bool
  pressStart : Option Nat
  /-- The loop waits for a lock that it holds, or a panic has ended it. -/
  stuck : Bool
  deriving DecidableEq, Repr

/-- The loop is started on the level it reads first. -/
def start (level : Level) : Loop :=
  { lastLevel := level, pressed := false, pressStart := none, stuck := false }

/-- Where the loop runs: `ConfigButton::new` gives it a `std::thread`, which is in no runtime. -/
inductive Host where
  | thread
  | runtime
  deriving DecidableEq, Repr

/-- `tokio::time::sleep`, which panics outside a runtime.  It is not awaited, so inside one there is no
    pause. -/
def sleep : Host → Loop → Loop
  | .thread, b => { b with stuck := true }
  | .runtime, b => b

/-- What comes next, if anything does. -/
def Loop.next (b : Loop) (f : Loop → List ButtonEvent × Loop) : List ButtonEvent × Loop :=
  if b.stuck then ([], b) else f b

/-- The event of a hold of `d`, as the release branch has it. -/
def heldFor (d : Nat) : List ButtonEvent :=
  if factoryResetHold ≤ d then [.factoryReset]
  else if provisioningHold ≤ d then [.provisioningMode]
  else []

/-- A debounced change of level. -/
def change (b : Loop) (p : Poll) : List ButtonEvent × Loop :=
  if p.current = .low then
    ([.pressed], { b with pressed := true, pressStart := some p.edge })
  else
    (b.pressStart.elim [] (fun start => heldFor (p.edge - start)) ++ [.released],
      { b with pressed := false, pressStart := none })

/-- The first half of a turn: a change of level, debounced. -/
def checkEdge (host : Host) (b : Loop) (p : Poll) : List ButtonEvent × Loop :=
  if p.current ≠ b.lastLevel then
    (sleep host b).next fun b =>
      let (events, b) := if p.debounced = p.current then change b p else ([], b)
      (events, { b with lastLevel := p.debounced })
  else ([], b)

/-- The second half: a button that is held. -/
def checkHold (b : Loop) (p : Poll) : List ButtonEvent × Loop :=
  if b.pressed then
    match b.pressStart with
    | some start =>
      -- neither `press_start = None` nor the event is reached: the first lock is still held
      if factoryResetHold ≤ p.check - start then ([], { b with pressed := false, stuck := true })
      else if provisioningHold ≤ p.check - start then ([.provisioningMode], b)
      else ([], b)
    | none => ([], b)
  else ([], b)

/-- One turn of the loop. -/
def poll (host : Host) (b : Loop) (p : Poll) : List ButtonEvent × Loop :=
  b.next fun b =>
    let (edgeEvents, b) := checkEdge host b p
    let (holdEvents, b) := b.next (checkHold · p)
    (edgeEvents ++ holdEvents, sleep host b)

/-- The loop after a run. -/
def run (host : Host) (b : Loop) (polls : List Poll) : Loop :=
  polls.foldl (fun b p => (poll host b p).2) b

/-- The events of a run. -/
def emitted (host : Host) (b : Loop) : List Poll → List ButtonEvent
  | [] => []
  | p :: polls => (poll host b p).1 ++ emitted host (poll host b p).2 polls

theorem run_append (host : Host) (b : Loop) (ps qs : List Poll) :
    run host b (ps ++ qs) = run host (run host b ps) qs := List.foldl_append

theorem emitted_append (host : Host) (ps qs : List Poll) :
    ∀ b, emitted host b (ps ++ qs) = emitted host b ps ++ emitted host (run host b ps) qs := by
  induction ps with
  | nil => exact fun _ => rfl
  | cons p ps ih =>
    intro b
    show (poll host b p).1 ++ emitted host (poll host b p).2 (ps ++ qs) = _
    rw [ih, ← List.append_assoc]
    rfl

/-! ## Specification -/

/-- The debounced level after one more sample: a change counts if it is still there after the pause. -/
def settle (level : Level) (p : Poll) : Level :=
  if p.current ≠ level then p.debounced else level

/-- The debounced level after a run of samples. -/
def settled (level : Level) (polls : List Poll) : Level := polls.foldl settle level

/-- The button goes down after `before` and stays down. -/
structure Down (level : Level) (before : List Poll) (down : Poll) (held : List Poll) : Prop where
  rested : settled level before = .high
  pressed : settle .high down = .low
  kept : ∀ p ∈ held, settle .low p = .low

/-- A debounced press that ends in a debounced release, among the samples `polls`. -/
structure Press (level : Level) (polls before : List Poll) (down : Poll) (held : List Poll) (up : Poll) :
    Prop extends Down level before down held where
  released : settle .low up = .high
  within : before ++ (down :: held ++ [up]) <+: polls

/-- The events of a press of length `d`: one Pressed, one Released and the one its length asks for. -/
def Classified (events : List ButtonEvent) (d : Nat) : Prop :=
  events.count .pressed = 1 ∧ events.count .released = 1 ∧
    events.count .factoryReset = (if factoryResetHold ≤ d then 1 else 0) ∧
    events.count .provisioningMode =
      if provisioningHold ≤ d ∧ d < factoryResetHold then 1 else 0

/-- Every press of the run is classified. -/
def AllClassified (host : Host) (level : Level) (polls : List Poll) : Prop :=
  ∀ before down held up, Press level polls before down held up →
    Classified (emitted host (run host (start level) before) (down :: held ++ [up]))
      (up.edge - down.edge)

/-- The samples have no press that ends in a release. -/
def NoPress (level : Level) (polls : List Poll) : Prop :=
  ∀ before down held up, ¬ Press level polls before down held up

/-- No check for a long press comes three seconds into a press. -/
def AllBrief (level : Level) (polls : List Poll) : Prop :=
  ∀ before down held up, Press level polls before down held up →
    ∀ p ∈ down :: held, p.check - down.edge < provisioningHold

/-! ## The states of the loop -/

/-- The button is up. -/
def rest : Loop := start .high

/-- The button is down since `s`. -/
def holding (s : Nat) : Loop :=
  { lastLevel := .low, pressed := true, pressStart := some s, stuck := false }

/-- The button was down for ten seconds. -/
def wedged (s : Nat) : Loop :=
  { lastLevel := .low, pressed := false, pressStart := some s, stuck := true }

@[simp] theorem sleep_runtime (b : Loop) : sleep .runtime b = b := rfl

theorem Loop.next_of_stuck {b : Loop} (h : b.stuck = true) (f : Loop → List ButtonEvent × Loop) :
    b.next f = ([], b) := if_pos h

theorem Loop.next_of_free {b : Loop} (h : b.stuck = false) (f : Loop → List ButtonEvent × Loop) :
    b.next f = f b := by
  rw [Loop.next, h, if_neg Bool.false_ne_true]

theorem poll_of_stuck (host : Host) {b : Loop} (h : b.stuck = true) (p : Poll) :
    poll host b p = ([], b) := Loop.next_of_stuck h _

theorem run_of_stuck (host : Host) {b : Loop} (h : b.stuck = true) (polls : List Poll) :
    run host b polls = b ∧ emitted host b polls = [] := by
  induction polls with
  | nil => exact ⟨rfl, rfl⟩
  | cons p polls ih =>
    show run host (poll host b p).2 polls = b ∧
      (poll host b p).1 ++ emitted host (poll host b p).2 polls = []
    rw [poll_of_stuck host h]
    exact ih

/-! ## As it is coded -/

/-- The first turn ends in the panic of a `sleep`, and no event has been sent. -/
theorem poll_thread (level : Level) (p : Poll) :
    poll .thread (start level) p = ([], sleep .thread (start level)) := by
  have hcheck : checkEdge .thread (start level) p = ([], sleep .thread (start level)) ∨
      checkEdge .thread (start level) p = ([], start level) := by
    rw [checkEdge]
    split
    · exact .inl (Loop.next_of_stuck rfl _)
    · exact .inr rfl
  rw [poll, Loop.next_of_free rfl]
  -- either the pause of the debouncing panics or the one at the end of the turn
  rcases hcheck with hcheck | hcheck <;> rw [hcheck] <;> rfl

/-- **No event is ever sent.** -/
theorem emitted_thread (level : Level) (polls : List Poll) : emitted .thread (start level) polls = [] := by
  cases polls with
  | nil => rfl
  | cons p polls =>
    have hstuck : (sleep .thread (start level)).stuck = true := rfl
    rw [emitted, poll_thread, (run_of_stuck .thread hstuck polls).2, List.append_nil]

/-! ## Inside a runtime -/

/-- A sample that settles on the other level has that level twice. -/
theorem settle_eq_iff {level other : Level} (hne : other ≠ level) (p : Poll) :
    settle level p = other ↔ p.current = other ∧ p.debounced = other := by
  rcases p with ⟨current, debounced, -, -⟩
  cases level <;> cases other <;> cases current <;> cases debounced <;> simp_all [settle]

/-- A sample that settles on the level it was is no change. -/
theorem checkEdge_of_settle {b : Loop} {p : Poll} (h : settle b.lastLevel p = b.lastLevel) :
    checkEdge .runtime b p = ([], b) := by
  rcases b with ⟨level, pressed, pressStart, stuck⟩
  rcases p with ⟨current, debounced, edge, check⟩
  cases level <;> cases current <;> cases debounced <;> cases stuck <;>
    simp_all [settle, checkEdge, Loop.next]

/-- A turn, from what its first half does. -/
theorem poll_of_edge {b b' : Loop} {p : Poll} {events : List ButtonEvent} (hfree : b.stuck = false)
    (hfree' : b'.stuck = false) (hedge : checkEdge .runtime b p = (events, b')) :
    poll .runtime b p = (events ++ (checkHold b' p).1, (checkHold b' p).2) := by
  rw [poll, Loop.next_of_free hfree, hedge]
  simp only [Loop.next_of_free hfree', sleep_runtime]

theorem poll_rest_of_high {p : Poll} (h : settle .high p = .high) : poll .runtime rest p = ([], rest) := by
  have hedge : checkEdge .runtime rest p = ([], rest) := checkEdge_of_settle h
  rw [poll_of_edge rfl rfl hedge]
  rfl

theorem poll_rest_of_low {p : Poll} (h : settle .high p = .low) :
    poll .runtime rest p =
      (.pressed :: (checkHold (holding p.edge) p).1, (checkHold (holding p.edge) p).2) := by
  obtain ⟨hcurrent, hdebounced⟩ := (settle_eq_iff (by decide) p).mp h
  have hedge : checkEdge .runtime rest p = ([.pressed], holding p.edge) := by
    simp [checkEdge, change, hcurrent, hdebounced, rest, start, holding, Loop.next]
  rw [poll_of_edge rfl rfl hedge]
  rfl

theorem poll_holding_of_low {s : Nat} {p : Poll} (h : settle .low p = .low) :
    poll .runtime (holding s) p = checkHold (holding s) p := by
  have hedge : checkEdge .runtime (holding s) p = ([], holding s) := checkEdge_of_settle h
  rw [poll_of_edge rfl rfl hedge]
  rfl

theorem poll_holding_of_high {s : Nat} {p : Poll} (h : settle .low p = .high) :
    poll .runtime (holding s) p = (heldFor (p.edge - s) ++ [.released], rest) := by
  obtain ⟨hcurrent, hdebounced⟩ := (settle_eq_iff (by decide) p).mp h
  have hedge : checkEdge .runtime (holding s) p = (heldFor (p.edge - s) ++ [.released], rest) := by
    simp [checkEdge, change, hcurrent, hdebounced, rest, start, holding, Loop.next]
  rw [poll_of_edge rfl rfl hedge]
  exact Prod.ext (List.append_nil _) rfl

/-- A loop that was started on a button held down has no press to end. -/
theorem poll_start_low (p : Poll) :
    (settle .low p = .low → (poll .runtime (start .low) p).2 = start .low) ∧
      (settle .low p = .high → (poll .runtime (start .low) p).2 = rest) := by
  constructor
  · intro h
    have hedge : checkEdge .runtime (start .low) p = ([], start .low) := checkEdge_of_settle h
    rw [poll_of_edge rfl rfl hedge]
    rfl
  · intro h
    obtain ⟨hcurrent, hdebounced⟩ := (settle_eq_iff (by decide) p).mp h
    have hedge : checkEdge .runtime (start .low) p = ([.released], rest) := by
      simp [checkEdge, change, hcurrent, hdebounced, rest, start, Loop.next]
    rw [poll_of_edge rfl rfl hedge]
    rfl

theorem checkHold_holding_of_lt {s : Nat} {p : Poll} (h : p.check - s < factoryResetHold) :
    checkHold (holding s) p =
      (if provisioningHold ≤ p.check - s then [.provisioningMode] else [], holding s) := by
  show (if factoryResetHold ≤ p.check - s then _ else _) = _
  rw [if_neg (Nat.not_le_of_lt h)]
  split <;> rfl

theorem checkHold_holding_of_le {s : Nat} {p : Poll} (h : factoryResetHold ≤ p.check - s) :
    checkHold (holding s) p = ([], wedged s) := if_pos h

/-! ## One press -/

/-- The checks of a press that come three seconds into it. -/
def longChecks (s : Nat) (polls : List Poll) : Nat :=
  polls.countP fun p => provisioningHold ≤ p.check - s

theorem longChecks_cons (s : Nat) (p : Poll) (polls : List Poll) :
    longChecks s (p :: polls) =
      longChecks s polls + if provisioningHold ≤ p.check - s then 1 else 0 := by
  simp only [longChecks, List.countP_cons, decide_eq_true_eq]

theorem longChecks_eq_zero {s : Nat} {polls : List Poll} :
    longChecks s polls = 0 ↔ ∀ p ∈ polls, p.check - s < provisioningHold := by
  simp only [longChecks, List.countP_eq_zero, decide_eq_true_eq, Nat.not_le]

/-- While the button is held for less than ten seconds, every check past three gives an event. -/
theorem run_holding {s : Nat} {polls : List Poll} (hkept : ∀ p ∈ polls, settle .low p = .low)
    (hshort : ∀ p ∈ polls, p.check - s < factoryResetHold) :
    run .runtime (holding s) polls = holding s ∧
      emitted .runtime (holding s) polls = List.replicate (longChecks s polls) .provisioningMode := by
  induction polls with
  | nil => exact ⟨rfl, rfl⟩
  | cons p polls ih =>
    obtain ⟨hp, hkept⟩ := List.forall_mem_cons.mp hkept
    obtain ⟨hpshort, hshort⟩ := List.forall_mem_cons.mp hshort
    obtain ⟨hrun, hemitted⟩ := ih hkept hshort
    show run .runtime (poll .runtime (holding s) p).2 polls = _ ∧
      (poll .runtime (holding s) p).1 ++ emitted .runtime (poll .runtime (holding s) p).2 polls = _
    rw [poll_holding_of_low hp, checkHold_holding_of_lt hpshort, longChecks_cons]
    refine ⟨hrun, ?_⟩
    rw [hemitted]
    split
    · rfl
    · rfl

/-- At the first check past ten it is stuck. -/
theorem run_holding_long {s : Nat} {polls : List Poll} (hkept : ∀ p ∈ polls, settle .low p = .low)
    (hlong : ∃ p ∈ polls, factoryResetHold ≤ p.check - s) :
    run .runtime (holding s) polls = wedged s ∧
      ButtonEvent.released ∉ emitted .runtime (holding s) polls := by
  induction polls with
  | nil =>
    obtain ⟨_, hmem, -⟩ := hlong
    exact absurd hmem List.not_mem_nil
  | cons p polls ih =>
    obtain ⟨hp, hkept⟩ := List.forall_mem_cons.mp hkept
    show run .runtime (poll .runtime (holding s) p).2 polls = _ ∧
      ButtonEvent.released ∉
        (poll .runtime (holding s) p).1 ++ emitted .runtime (poll .runtime (holding s) p).2 polls
    rw [poll_holding_of_low hp]
    rcases Nat.lt_or_ge (p.check - s) factoryResetHold with hshort | hge
    · have htail : ∃ q ∈ polls, factoryResetHold ≤ q.check - s := by
        obtain ⟨q, hq, hqlong⟩ := hlong
        rcases List.mem_cons.mp hq with rfl | hq
        · exact absurd hqlong (Nat.not_le_of_lt hshort)
        · exact ⟨q, hq, hqlong⟩
      obtain ⟨hrun, hemitted⟩ := ih hkept htail
      rw [checkHold_holding_of_lt hshort]
      refine ⟨hrun, fun hmem => ?_⟩
      rcases List.mem_append.mp hmem with hmem | hmem
      · split at hmem
        · cases List.mem_singleton.mp hmem
        · exact absurd hmem List.not_mem_nil
      · exact hemitted hmem
    · rw [checkHold_holding_of_le hge]
      obtain ⟨hrun, hemitted⟩ := run_of_stuck .runtime (b := wedged s) rfl polls
      rw [hemitted]
      exact ⟨hrun, List.not_mem_nil⟩

section Press

variable {level : Level} {before held polls : List Poll} {down up : Poll}

/-- The turn of a press is a turn with the button held, after the Pressed event. -/
theorem Down.opens (h : Down level before down held) :
    run .runtime rest (down :: held) = run .runtime (holding down.edge) (down :: held) ∧
      emitted .runtime rest (down :: held) =
        .pressed :: emitted .runtime (holding down.edge) (down :: held) ∧
      ∀ p ∈ down :: held, settle .low p = .low := by
  obtain ⟨hcurrent, -⟩ := (settle_eq_iff (by decide) down).mp h.pressed
  have hdown : settle .low down = .low := by rw [settle, hcurrent, if_neg (not_not.mpr rfl)]
  refine ⟨?_, ?_, List.forall_mem_cons.mpr ⟨hdown, h.kept⟩⟩
  · simp only [run, List.foldl_cons, poll_rest_of_low h.pressed, poll_holding_of_low hdown]
  · simp only [emitted, poll_rest_of_low h.pressed, poll_holding_of_low hdown, List.cons_append]

/-- The release of a press whose checks were all below ten seconds. -/
theorem Down.run_release (h : Down level before down held) (hup : settle .low up = .high)
    (hshort : ∀ p ∈ down :: held, p.check - down.edge < factoryResetHold) :
    run .runtime rest (down :: held ++ [up]) = rest ∧
      emitted .runtime rest (down :: held ++ [up]) =
        .pressed :: List.replicate (longChecks down.edge (down :: held)) .provisioningMode ++
          (heldFor (up.edge - down.edge) ++ [.released]) := by
  obtain ⟨hrun, hemitted, hkept⟩ := h.opens
  obtain ⟨hhold, hevents⟩ := run_holding hkept hshort
  rw [run_append, emitted_append, hrun, hemitted, hhold, hevents]
  simp only [run, List.foldl_cons, List.foldl_nil, emitted, poll_holding_of_high hup, List.append_nil,
    and_self]

/-- After a check past ten seconds there is no release. -/
theorem Down.run_release_long (h : Down level before down held) (up : Poll)
    (hlong : ∃ p ∈ down :: held, factoryResetHold ≤ p.check - down.edge) :
    (run .runtime rest (down :: held ++ [up])).stuck = true ∧
      ButtonEvent.released ∉ emitted .runtime rest (down :: held ++ [up]) := by
  obtain ⟨hrun, hemitted, hkept⟩ := h.opens
  obtain ⟨hhold, hevents⟩ := run_holding_long hkept hlong
  obtain ⟨hstuck, hsilent⟩ := run_of_stuck .runtime (b := wedged down.edge) rfl [up]
  rw [run_append, emitted_append, hrun, hemitted, hhold, hstuck, hsilent, List.append_nil]
  refine ⟨rfl, fun hmem => ?_⟩
  rcases List.mem_cons.mp hmem with hmem | hmem
  · cases hmem
  · exact hevents hmem

/-- The events of a press are the right ones if the checks have given none. -/
theorem classified_iff {k d : Nat} :
    Classified (.pressed :: List.replicate k .provisioningMode ++ (heldFor d ++ [.released])) d ↔ k = 0 := by
  have hordered : provisioningHold < factoryResetHold := by decide
  simp only [Classified, List.count_append, List.count_cons, List.count_replicate, List.count_nil]
  by_cases hreset : factoryResetHold ≤ d
  · simp [heldFor, hreset, Nat.not_lt_of_le hreset]
  · by_cases hprovision : provisioningHold ≤ d
    · simp [heldFor, hreset, hprovision, Nat.lt_of_not_le hreset]
    · simp [heldFor, hreset, hprovision]

/-! ## The run -/

theorem run_concat (b : Loop) (polls : List Poll) (p : Poll) :
    run .runtime b (polls ++ [p]) = (poll .runtime (run .runtime b polls) p).2 :=
  run_append .runtime b polls [p]

theorem settled_concat (level : Level) (polls : List Poll) (p : Poll) :
    settled level (polls ++ [p]) = settle (settled level polls) p := List.foldl_append

/-- **Where the loop is.**  Up, it is at rest; down, it has been started so, or it was at rest before the
    button went down; or else a press that is over has left it stuck. -/
theorem shape (level : Level) (polls : List Poll) :
    (settled level polls = .high ∧ run .runtime (start level) polls = rest) ∨
    (settled level polls = .low ∧ run .runtime (start level) polls = start .low) ∨
    (settled level polls = .low ∧ ∃ before down held, polls = before ++ down :: held ∧
      Down level before down held ∧ run .runtime (start level) before = rest) ∨
    ((run .runtime (start level) polls).stuck = true ∧ ∃ before down held up,
      Press level polls before down held up ∧ ∃ p ∈ down :: held, factoryResetHold ≤ p.check - down.edge) := by
  induction polls using List.reverseRecOn with
  | nil => cases level with
    | low => exact .inr (.inl ⟨rfl, rfl⟩)
    | high => exact .inl ⟨rfl, rfl⟩
  | append_singleton polls p ih =>
    rw [settled_concat, run_concat]
    rcases ih with ⟨hlevel, hrun⟩ | ⟨hlevel, hrun⟩ | ⟨hlevel, before, down, held, rfl, hdown, hrun⟩ |
      ⟨hstuck, before, down, held, up, hpress, hlong⟩
    · rw [hlevel, hrun]
      rcases hp : settle .high p with _ | _
      · exact .inr (.inr (.inl ⟨rfl, polls, p, [], rfl, ⟨hlevel, hp, nofun⟩, hrun⟩))
      · rw [poll_rest_of_high hp]
        exact .inl ⟨rfl, rfl⟩
    · rw [hlevel, hrun]
      rcases hp : settle .low p with _ | _
      · exact .inr (.inl ⟨rfl, (poll_start_low p).1 hp⟩)
      · exact .inl ⟨rfl, (poll_start_low p).2 hp⟩
    · rw [hlevel]
      rcases hp : settle .low p with _ | _
      · refine .inr (.inr (.inl ⟨rfl, before, down, held ++ [p], by simp, ?_, hrun⟩))
        refine ⟨hdown.rested, hdown.pressed, fun q hq => ?_⟩
        rcases List.mem_append.mp hq with hq | hq
        · exact hdown.kept q hq
        · rw [List.mem_singleton.mp hq]
          exact hp
      · rw [← run_concat, List.append_assoc, run_append, hrun]
        by_cases hlong : ∃ q ∈ down :: held, factoryResetHold ≤ q.check - down.edge
        · exact .inr (.inr (.inr ⟨(hdown.run_release_long p hlong).1, before, down, held, p,
            ⟨hdown, hp, List.prefix_refl _⟩, hlong⟩))
        · refine .inl ⟨rfl, (hdown.run_release hp fun q hq => Nat.lt_of_not_le fun hge => ?_).1⟩
          exact hlong ⟨q, hq, hge⟩
    · refine .inr (.inr (.inr ⟨?_, before, down, held, up, ?_, hlong⟩))
      · rw [poll_of_stuck .runtime hstuck]
        exact hstuck
      · exact ⟨hpress.toDown, hpress.released, hpress.within.trans (List.prefix_append _ _)⟩

theorem run_of_settled_high (h : settled level before = .high) :
    run .runtime (start level) before = rest ∨
    ((run .runtime (start level) before).stuck = true ∧ ∃ b down held up,
      Press level before b down held up ∧ ∃ p ∈ down :: held, factoryResetHold ≤ p.check - down.edge) := by
  rcases shape level before with ⟨-, hrun⟩ | ⟨hlow, -⟩ | ⟨hlow, -⟩ | hstuck
  · exact .inl hrun
  · rw [h] at hlow
    cases hlow
  · rw [h] at hlow
    cases hlow
  · exact .inr hstuck

end Press

/-- Inside a runtime, every press is classified exactly if no check for a long press comes three seconds
    or more into one. -/
theorem allClassified_runtime_iff (level : Level) (polls : List Poll) :
    AllClassified .runtime level polls ↔ AllBrief level polls := by
  constructor
  · intro h before down held up hpress
    have hclass := h before down held up hpress
    have hreleased : ButtonEvent.released ∈
        emitted .runtime (run .runtime (start level) before) (down :: held ++ [up]) :=
      List.count_pos_iff.mp (Nat.lt_of_lt_of_eq Nat.zero_lt_one hclass.2.1.symm)
    rcases run_of_settled_high hpress.rested with hrun | ⟨hstuck, -⟩
    · rw [hrun] at hclass hreleased
      by_cases hlong : ∃ p ∈ down :: held, factoryResetHold ≤ p.check - down.edge
      · exact absurd hreleased (hpress.run_release_long up hlong).2
      · rw [(hpress.run_release hpress.released fun p hp => Nat.lt_of_not_le fun hge => hlong ⟨p, hp, hge⟩).2,
          classified_iff] at hclass
        exact longChecks_eq_zero.mp hclass
    · rw [(run_of_stuck .runtime hstuck _).2] at hreleased
      exact absurd hreleased List.not_mem_nil
  · intro h before down held up hpress
    have hordered : provisioningHold < factoryResetHold := by decide
    rcases run_of_settled_high hpress.rested with hrun | ⟨-, b, d, hs, u, hearlier, p, hp, hlong⟩
    · have hbrief := h before down held up hpress
      have hshort : ∀ p ∈ down :: held, p.check - down.edge < factoryResetHold :=
        fun p hp => Nat.lt_trans (hbrief p hp) hordered
      rw [hrun, (hpress.run_release hpress.released hshort).2, classified_iff]
      exact longChecks_eq_zero.mpr hbrief
    · -- the press that has left the loop stuck is one of the run, and not brief
      have hwithin := hearlier.within.trans ((List.prefix_append before _).trans hpress.within)
      have hbrief := h b d hs u ⟨hearlier.toDown, hearlier.released, hwithin⟩ p hp
      exact absurd (Nat.lt_trans hbrief hordered) (Nat.not_lt_of_le hlong)

/-- On its thread the loop sends nothing, so that every press is classified exactly if there is none. -/
theorem allClassified_thread_iff (level : Level) (polls : List Poll) :
    AllClassified .thread level polls ↔ NoPress level polls := by
  constructor
  · intro h before down held up hpress
    have hall := emitted_append .thread before (down :: held ++ [up]) (start level)
    rw [emitted_thread, emitted_thread, List.nil_append] at hall
    have hpressed := (h before down held up hpress).1
    rw [← hall] at hpressed
    exact absurd hpressed (by decide)
  · intro h before down held up hpress
    exact absurd hpress (h before down held up)

/-- **The classification of presses.**  For every run of samples, every debounced press that ends in a
    debounced release gives one Pressed, one Released and the one event of its length, exactly if there is
    no such press: the thread dies of its first `sleep`.  In a runtime it would be exactly if no check for a
    long press came three seconds or more into such a press. -/
theorem allClassified_iff (level : Level) (polls : List Poll) :
    (AllClassified .thread level polls ↔ NoPress level polls) ∧
      (AllClassified .runtime level polls ↔ AllBrief level polls) :=
  ⟨allClassified_thread_iff level polls, allClassified_runtime_iff level polls⟩

/-- **A press that nobody hears of.**  The button goes down and comes up after a second: no event.  In a
    runtime, held for four seconds and checked at three, it would give ProvisioningMode at the check and
    again at the release; checked at ten, neither FactoryReset nor Released. -/
theorem press_misclassified :
    let s := 1000000000
    let down : Poll := ⟨.low, .low, 0, 0⟩
    let up : Poll := ⟨.high, .high, s, s⟩
    emitted .thread (start .high) [down, up] = [] ∧
      ¬ AllClassified .thread .high [down, up] ∧
      emitted .runtime (start .high) [down, ⟨.low, .low, 0, 3 * s⟩, ⟨.high, .high, 4 * s, 4 * s⟩] =
        [.pressed, .provisioningMode, .provisioningMode, .released] ∧
      emitted .runtime (start .high) [down, ⟨.low, .low, 0, 10 * s⟩, ⟨.high, .high, 11 * s, 11 * s⟩] =
        [.pressed] := by
  intro s down up
  refine ⟨by decide, fun h => ?_, by decide, by decide⟩
  have hpress : Press .high [down, up] [] down [] up :=
    ⟨⟨rfl, rfl, nofun⟩, rfl, List.prefix_refl _⟩
  exact absurd (h _ _ _ _ hpress).1 (by decide)

end ConfigButton

end FloatProtocols
