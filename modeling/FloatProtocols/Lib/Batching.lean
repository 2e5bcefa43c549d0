/-
  A batching task: items come in through a channel, leave in batches.

  The task owns a buffer.  An item that may not wait BYPASSES it and leaves alone; any other is
  buffered, and the buffer leaves as a batch when it is full, when the last flush is too long ago,
  when what it holds is urgent, when the timer fires, or, if the policy says so, when the channel
  closes.  What a policy decides is a parameter; the accounts (`Inv`) are the same for all:

  * what came in is what was received and what still waits in the channel;
  * batches and buffer, without the bypassing items, are what was received, IN ORDER;
  * a bypassing item is a batch of its own;
  * no batch is empty or too large, and the buffer never holds what should have left.

  `Inv.step` is one step, `Inv.run` a run.  At the end, `closed_perm_iff`: nothing is lost exactly
  if the buffer was empty or is flushed.
-/
import Mathlib.Data.List.Perm.Basic
import FloatProtocols.Lib.Trace

namespace Batching

variable {α : Type}

/-- What a batching task decides by. -/
structure Policy (α : Type) where
  maxBatchSize : Nat
  batchTimeout : Nat
  /-- The channel's capacity. -/
  bufferSize : Nat
  /-- The item leaves alone, at once. -/
  bypass : α → Bool
  /-- The buffer leaves at once. -/
  urgent : List α → Bool
  flushOnClose : Bool

/-- The task, its channel, and what has come in and gone out. -/
structure Batcher (α : Type) where
  queue : List α
  buffer : List α
  lastFlush : Nat
  closed : Bool
  emitted : List (List α)
  sent : List α
  received : List α
  deriving DecidableEq

/-- What can happen next.  `now` is the clock where the task looks at it, `later` where it notes the
    flush. -/
inductive Act (α : Type) where
  | send (x : α)
  | recv (now later : Nat)
  | timer (now later : Nat)
  | close

namespace Batcher

/-- A task just started. -/
def start (now : Nat) : Batcher α where
  queue := []
  buffer := []
  lastFlush := now
  closed := false
  emitted := []
  sent := []
  received := []

/-- The first item leaves the channel. -/
def pop (t : Batcher α) : Batcher α :=
  { t with queue := t.queue.tail, received := t.received ++ t.queue.take 1 }

/-- The buffer leaves as a batch. -/
def flush (t : Batcher α) (later : Nat) : Batcher α :=
  { t with buffer := [], emitted := t.emitted ++ [t.buffer], lastFlush := later }

/-- The buffer leaves, if there is anything in it. -/
def flushRest (t : Batcher α) (later : Nat) : Batcher α :=
  if t.buffer = [] then t else t.flush later

/-- The item goes into the buffer. -/
def push (t : Batcher α) (x : α) : Batcher α := { t with buffer := t.buffer ++ [x] }

/-- An item arrives. -/
def receive (p : Policy α) (t : Batcher α) (x : α) (now later : Nat) : Batcher α :=
  if p.bypass x then { t with emitted := t.emitted ++ [[x]] }
  else if (t.push x).buffer.length ≥ p.maxBatchSize ∨ now - t.lastFlush ≥ p.batchTimeout ∨
      p.urgent (t.push x).buffer then
    (t.push x).flush later
  else t.push x

/-- One step.  A sender waits for room; the channel reports its end only when it is empty. -/
def step (p : Policy α) (t : Batcher α) : Act α → Option (Batcher α)
  | .send x =>
    if ¬ t.closed ∧ t.queue.length < p.bufferSize then
      some { t with queue := t.queue ++ [x], sent := t.sent ++ [x] }
    else none
  | .recv now later =>
    match t.queue with
    | [] => none
    | x :: _ => if t.closed then none else some (receive p t.pop x now later)
  | .timer now later =>
    if ¬ t.closed ∧ t.lastFlush + p.batchTimeout ≤ now then some (t.flushRest later) else none
  | .close =>
    if ¬ t.closed ∧ t.queue = [] then
      some { (if p.flushOnClose then t.flushRest t.lastFlush else t) with closed := true }
    else none

/-- The accounts of a task that has received `got`. -/
structure Accounts (p : Policy α) (t : Batcher α) (got : List α) : Prop where
  /-- Every item is in one place, once. -/
  perm : (t.emitted.flatten ++ t.buffer).Perm got
  ordered : t.emitted.flatten.filter (fun x => !p.bypass x) ++ t.buffer =
    got.filter fun x => !p.bypass x
  alone : t.emitted.filter (fun b => b.any p.bypass) = (got.filter p.bypass).map ([·])
  sized : ∀ b ∈ t.emitted, b ≠ [] ∧ b.length ≤ max 1 p.maxBatchSize
  plain : ∀ x ∈ t.buffer, p.bypass x = false

/-- What holds between two steps: the accounts, and a buffer that may wait. -/
structure Inv (p : Policy α) (t : Batcher α) : Prop extends Accounts p t t.received where
  passed : t.received ++ t.queue = t.sent
  short : t.buffer.length < max 1 p.maxBatchSize
  calm : p.urgent t.buffer = false
  drained : t.closed → t.queue = [] ∧ (p.flushOnClose → t.buffer = [])

variable {p : Policy α}

theorem Inv.start (h : p.urgent [] = false) (now : Nat) : Inv p (start now) where
  perm := .refl _
  ordered := rfl
  alone := rfl
  sized := fun b hb => by cases hb
  plain := fun x hx => by cases hx
  passed := rfl
  short := Nat.lt_of_lt_of_le Nat.zero_lt_one (Nat.le_max_left ..)
  calm := h
  drained := fun hc => by cases hc

/-- The accounts are about batches and buffer only. -/
theorem Accounts.congr {t u : Batcher α} {got : List α} (h : Accounts p t got)
    (hemitted : u.emitted = t.emitted) (hbuffer : u.buffer = t.buffer) : Accounts p u got := by
  obtain ⟨hperm, hordered, halone, hsized, hplain⟩ := h
  rw [← hemitted, ← hbuffer] at hperm hordered
  rw [← hemitted] at halone hsized
  rw [← hbuffer] at hplain
  exact ⟨hperm, hordered, halone, hsized, hplain⟩

/-! ## The three ways of an item -/

/-- It goes out alone: the buffer is as it was. -/
theorem Accounts.bypass {t : Batcher α} {got : List α} {x : α} (h : Accounts p t got)
    (hx : p.bypass x = true) :
    Accounts p { t with emitted := t.emitted ++ [[x]] } (got ++ [x]) := by
  refine ⟨?_, ?_, ?_, ?_, h.plain⟩
  · show ((t.emitted ++ [[x]]).flatten ++ t.buffer).Perm (got ++ [x])
    rw [List.flatten_append, List.flatten_singleton, List.append_assoc]
    refine .trans ?_ (h.perm.append_right [x])
    rw [List.append_assoc]
    exact List.perm_append_comm.append_left _
  · show (t.emitted ++ [[x]]).flatten.filter _ ++ t.buffer = (got ++ [x]).filter _
    rw [List.flatten_append, List.flatten_singleton, List.filter_append, List.filter_append,
      List.filter_cons_of_neg (by simp [hx]), List.filter_nil, List.append_nil, List.append_nil]
    exact h.ordered
  · show (t.emitted ++ [[x]]).filter _ = ((got ++ [x]).filter p.bypass).map ([·])
    rw [List.filter_append, List.filter_append, List.filter_cons_of_pos (by simp [hx]),
      List.filter_nil, List.filter_cons_of_pos hx, List.filter_nil, List.map_append, ← h.alone]
    rfl
  · intro b hb
    rcases List.mem_append.mp hb with hb | hb
    · exact h.sized b hb
    · rw [List.mem_singleton.mp hb]
      exact ⟨List.cons_ne_nil _ _, Nat.le_max_left ..⟩

/-- It waits in the buffer. -/
theorem Accounts.push {t : Batcher α} {got : List α} {x : α} (h : Accounts p t got)
    (hx : p.bypass x = false) : Accounts p (t.push x) (got ++ [x]) := by
  refine ⟨?_, ?_, ?_, h.sized, ?_⟩
  · show (t.emitted.flatten ++ (t.buffer ++ [x])).Perm (got ++ [x])
    rw [← List.append_assoc]
    exact h.perm.append_right [x]
  · show t.emitted.flatten.filter _ ++ (t.buffer ++ [x]) = (got ++ [x]).filter _
    rw [List.filter_append, List.filter_cons_of_pos (by simp [hx]), List.filter_nil, ← h.ordered,
      List.append_assoc]
  · show t.emitted.filter _ = ((got ++ [x]).filter p.bypass).map ([·])
    rw [List.filter_append, List.filter_cons_of_neg (by simp [hx]), List.filter_nil,
      List.append_nil]
    exact h.alone
  · intro y hy
    rcases List.mem_append.mp hy with hy | hy
    · exact h.plain y hy
    · rw [List.mem_singleton.mp hy]
      exact hx

/-- The buffer leaves: its items keep their order, and the batch is none of the lone ones. -/
theorem Accounts.flush {t : Batcher α} {got : List α} (h : Accounts p t got) (hne : t.buffer ≠ [])
    (hlen : t.buffer.length ≤ max 1 p.maxBatchSize) (later : Nat) :
    Accounts p (t.flush later) got := by
  have hfilter : t.buffer.filter (fun x => !p.bypass x) = t.buffer := by
    refine List.filter_eq_self.mpr ?_
    intro x hx
    rw [h.plain x hx]
    rfl
  have hany : t.buffer.any p.bypass = false := by
    rw [List.any_eq_false]
    intro x hx
    rw [h.plain x hx]
    exact Bool.false_ne_true
  refine ⟨?_, ?_, ?_, ?_, fun x hx => (by cases hx)⟩
  · show ((t.emitted ++ [t.buffer]).flatten ++ []).Perm got
    rw [List.flatten_append, List.flatten_singleton, List.append_nil]
    exact h.perm
  · show (t.emitted ++ [t.buffer]).flatten.filter _ ++ [] = _
    rw [List.flatten_append, List.flatten_singleton, List.filter_append, hfilter, List.append_nil]
    exact h.ordered
  · show (t.emitted ++ [t.buffer]).filter _ = _
    rw [List.filter_append, List.filter_cons_of_neg (by simp [hany]), List.filter_nil,
      List.append_nil]
    exact h.alone
  · intro b hb
    rcases List.mem_append.mp hb with hb | hb
    · exact h.sized b hb
    · rw [List.mem_singleton.mp hb]
      exact ⟨hne, hlen⟩

/-! ## Steps and runs -/

theorem Inv.flushRest {t : Batcher α} (h : Inv p t) (hurgent : p.urgent [] = false) (later : Nat) :
    Inv p (t.flushRest later) := by
  rw [Batcher.flushRest]
  split
  · exact h
  · rename_i hne
    exact { h.toAccounts.flush hne (Nat.le_of_lt h.short) later with
      passed := h.passed
      short := Nat.lt_of_lt_of_le Nat.zero_lt_one (Nat.le_max_left ..)
      calm := hurgent
      drained := fun hc => ⟨(h.drained hc).1, fun _ => rfl⟩ }

/-- **An arriving item**: it goes out alone, waits, or takes the buffer with it. -/
theorem Inv.receive {t : Batcher α} {x : α} {rest : List α} (h : Inv p t) (hurgent : p.urgent [] = false)
    (hopen : t.closed = false) (hqueue : t.queue = x :: rest) (now later : Nat) :
    Inv p (receive p t.pop x now later) := by
  have hgot : t.pop.received = t.received ++ [x] := by
    show t.received ++ t.queue.take 1 = _
    rw [hqueue]
    rfl
  have hpassed : t.pop.received ++ t.pop.queue = t.sent := by
    rw [← h.passed, hgot, hqueue, List.append_assoc]
    show _ ++ ([x] ++ t.queue.tail) = _
    rw [hqueue]
    rfl
  have hdrained : ∀ {P : Prop}, t.closed = true → P := by
    intro P hc
    rw [hopen] at hc
    cases hc
  have hacc : Accounts p t.pop t.received := h.toAccounts.congr rfl rfl
  rw [Batcher.receive]
  by_cases hb : p.bypass x = true
  · rw [if_pos hb]
    have hout := hacc.bypass hb
    rw [← hgot] at hout
    exact { hout with passed := hpassed, short := h.short, calm := h.calm, drained := hdrained }
  · rw [Bool.not_eq_true] at hb
    have hin := hacc.push hb
    rw [← hgot] at hin
    have hlength : (t.pop.push x).buffer.length = t.buffer.length + 1 := List.length_append
    have hshort := h.short
    rw [if_neg (by simp [hb])]
    split
    · have hne : (t.pop.push x).buffer ≠ [] := List.append_ne_nil_of_right_ne_nil _ (by simp)
      exact { hin.flush hne (by omega) later with
        passed := hpassed
        short := Nat.lt_of_lt_of_le Nat.zero_lt_one (Nat.le_max_left ..)
        calm := hurgent
        drained := hdrained }
    · -- no trigger was met: the buffer may wait
      rename_i htrigger
      simp only [not_or, ge_iff_le, Nat.not_le, Bool.not_eq_true] at htrigger
      exact { hin with
        passed := hpassed
        short := Nat.lt_of_lt_of_le htrigger.1 (Nat.le_max_right ..)
        calm := htrigger.2.2
        drained := hdrained }

/-- **Every step keeps the accounts.** -/
theorem Inv.step {t u : Batcher α} {a : Act α} (hurgent : p.urgent [] = false)
    (hstep : t.step p a = some u) (h : Inv p t) : Inv p u := by
  cases a with
  | send x =>
    rw [Batcher.step] at hstep
    split at hstep
    · rename_i hopen
      cases hstep
      refine ⟨h.toAccounts.congr rfl rfl, ?_, h.short, h.calm, ?_⟩
      · show t.received ++ (t.queue ++ [x]) = t.sent ++ [x]
        rw [← List.append_assoc, h.passed]
      · intro hc
        exact absurd hc hopen.1
    · cases hstep
  | recv now later =>
    rw [Batcher.step] at hstep
    split at hstep
    · cases hstep
    · rename_i x rest hqueue
      split at hstep
      · cases hstep
      · rename_i hopen
        cases hstep
        exact h.receive hurgent (Bool.not_eq_true _ ▸ hopen) hqueue now later
  | timer now later =>
    rw [Batcher.step] at hstep
    split at hstep
    · cases hstep
      exact h.flushRest hurgent later
    · cases hstep
  | close =>
    rw [Batcher.step] at hstep
    split at hstep
    · rename_i hopen
      cases hstep
      split
      · rename_i hflush
        -- with a flush, nothing stays behind
        have hrest := h.flushRest hurgent t.lastFlush
        have hqueue : (t.flushRest t.lastFlush).queue = [] := by
          rw [Batcher.flushRest]
          split <;> exact hopen.2
        have hbuffer : (t.flushRest t.lastFlush).buffer = [] := by
          rw [Batcher.flushRest]
          split
          · assumption
          · rfl
        exact { hrest with drained := fun _ => ⟨hqueue, fun _ => hbuffer⟩ }
      · rename_i hflush
        exact { h with drained := fun _ => ⟨hopen.2, fun hf => absurd hf hflush⟩ }
    · cases hstep

theorem Inv.run {as : List (Act α)} {now : Nat} {t : Batcher α} (hurgent : p.urgent [] = false)
    (h : Trace.run (Batcher.step p) (Batcher.start now) as = some t) : Inv p t :=
  Trace.invariant (P := Inv p) (fun _ _ _ hs hi => hi.step hurgent hs) as _ t h
    (Inv.start hurgent now)

/-- An item that bypasses the buffer is a batch of its own at the step that receives it. -/
theorem step_recv_bypass {t u : Batcher α} {now later : Nat} {x : α} (hx : p.bypass x = true)
    (hqueue : t.queue.head? = some x) (hstep : t.step p (.recv now later) = some u) :
    u.emitted = t.emitted ++ [[x]] ∧ u.buffer = t.buffer := by
  rw [Batcher.step] at hstep
  split at hstep
  · cases hstep
  · rename_i y rest hq
    rw [hq, List.head?_cons] at hqueue
    obtain rfl := Option.some.inj hqueue
    split at hstep
    · cases hstep
    · cases hstep
      rw [Batcher.receive, if_pos hx]
      exact ⟨rfl, rfl⟩

/-- A step that receives an item which does not bypass the buffer: the buffer keeps it, or leaves with
    it. -/
theorem step_recv_cases {t u : Batcher α} {now later : Nat} (hplain : ∀ x ∈ t.queue, p.bypass x = false)
    (hstep : t.step p (.recv now later) = some u) :
    ∃ x, t.queue = x :: u.queue ∧ u.closed = t.closed ∧
      ((u.emitted = t.emitted ∧ u.buffer = t.buffer ++ [x]) ∨
        (u.emitted = t.emitted ++ [t.buffer ++ [x]] ∧ u.buffer = [])) := by
  rw [Batcher.step] at hstep
  split at hstep
  · cases hstep
  · rename_i x rest hqueue
    rw [Option.ite_none_left_eq_some] at hstep
    obtain ⟨-, hstep⟩ := hstep
    cases hstep
    have hx : p.bypass x = false := hplain x (by rw [hqueue]; exact List.mem_cons_self)
    have hrest : t.queue = x :: t.queue.tail := by
      rw [hqueue]
      rfl
    rw [Batcher.receive, if_neg (by rw [hx]; exact Bool.false_ne_true)]
    split
    · exact ⟨x, hrest, rfl, .inr ⟨rfl, rfl⟩⟩
    · exact ⟨x, hrest, rfl, .inl ⟨rfl, rfl⟩⟩

/-- The timer: a buffer with anything in it leaves. -/
theorem step_timer_cases {t u : Batcher α} {now later : Nat}
    (hstep : t.step p (.timer now later) = some u) :
    u.queue = t.queue ∧ u.closed = t.closed ∧
      ((u.emitted = t.emitted ∧ u.buffer = t.buffer ∧ t.buffer = []) ∨
        (u.emitted = t.emitted ++ [t.buffer] ∧ u.buffer = [])) := by
  rw [Batcher.step, Option.ite_none_right_eq_some] at hstep
  obtain ⟨-, hstep⟩ := hstep
  cases hstep
  rw [Batcher.flushRest]
  split
  · rename_i hempty
    exact ⟨rfl, rfl, .inl ⟨rfl, rfl, hempty⟩⟩
  · exact ⟨rfl, rfl, .inr ⟨rfl, rfl⟩⟩

/-- **What a close loses is the buffer it finds**, unless it flushes. -/
theorem closed_perm_iff {t u : Batcher α} (h : Inv p t) (hp : p.flushOnClose = false)
    (hstep : t.step p .close = some u) : u.emitted.flatten.Perm u.sent ↔ t.buffer = [] := by
  rw [Batcher.step, hp] at hstep
  split at hstep
  · rename_i hopen
    cases hstep
    have hsent : t.received = t.sent := by
      rw [← h.passed, hopen.2, List.append_nil]
    show t.emitted.flatten.Perm t.sent ↔ _
    have hperm := h.perm
    rw [hsent] at hperm
    constructor
    · intro hall
      -- as many items left as came in, so none stayed
      have hlen := hperm.length_eq
      rw [List.length_append, hall.length_eq] at hlen
      exact List.eq_nil_of_length_eq_zero (by omega)
    · intro hempty
      rwa [hempty, List.append_nil] at hperm
  · cases hstep

end Batcher

end Batching
