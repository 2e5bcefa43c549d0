/-
  The translators of the gateway: a pool for six of the nine protocols, shared by the shard workers.

  `Gateway.Tasks` translates a message in one section.  The loop of `process_translated_batch` makes
  three of it: it borrows a translator of the message's protocol from the pool, translates, and returns
  the translator.  Between these the other workers borrow and return too.

  1. **The pool** (`TranslatorPool`) — a channel for each pooled protocol, and what a worker holds of it
     (`Hand`).  This is `Lib.Pool`, with protocols for keys.

  2. **Nothing gets lost (`pool_suffices`)** — every translator is in the channel of its protocol or in one
     hand.  There are eight of each and seven workers, so a worker always finds one: that the pool is
     exhausted never happens for a pooled protocol, and always for NIDD, ASTS and LoRa.

  3. **It makes no difference** — `translate_sync` reads nothing of the translator, so whatever the workers
     hold, a run is a run of `Gateway.Pipeline`.
-/
import FloatProtocols.Gateway.Pipeline
import FloatProtocols.Lib.Pool

namespace FloatProtocols

open Wire

namespace Gateway

open Translator

/-! ## The pool -/

/-- The translators of a protocol that nobody holds, by number, in a channel of `size` places. -/
structure ProtocolPool where
  idle : List Nat
  size : Nat

/-- `TranslatorPool`. -/
structure TranslatorPool where
  pools : Protocol → Option ProtocolPool

namespace TranslatorPool

/-- The protocols that have a pool. -/
def pooled : List Protocol := [.iridiumSBD, .inmarsatC, .vsat, .hfvhf, .rockBLOCK, .samsara]

/-- `TranslatorPool::new`. -/
def new (poolSize : Nat) : TranslatorPool where
  pools p := if p ∈ pooled then some ⟨List.range poolSize, poolSize⟩ else none

/-- `borrow`; without a pool, and from an empty one, there is none. -/
def borrow (t : TranslatorPool) (p : Protocol) : Option Nat × TranslatorPool :=
  match t.pools p with
  | none => (none, t)
  | some q =>
    match q.idle with
    | [] => (none, t)
    | translator :: idle =>
      (some translator, { pools := Function.update t.pools p (some { q with idle }) })

/-- `return_translator`; a translator that finds no room is dropped. -/
def returnTranslator (t : TranslatorPool) (p : Protocol) (translator : Nat) : TranslatorPool :=
  match t.pools p with
  | none => t
  | some q =>
    if q.idle.length < q.size then
      { pools := Function.update t.pools p (some { q with idle := q.idle ++ [translator] }) }
    else t

/-- The translators that nobody holds. -/
def idle (t : TranslatorPool) (p : Protocol) : List Nat := (t.pools p).elim [] ProtocolPool.idle

/-- The places of a protocol. -/
def size (t : TranslatorPool) (p : Protocol) : Nat := (t.pools p).elim 0 ProtocolPool.size

variable {t : TranslatorPool} {p : Protocol}

theorem idle_update (t : TranslatorPool) (p : Protocol) (q : ProtocolPool) :
    idle { pools := Function.update t.pools p (some q) } = Function.update t.idle p q.idle := by
  funext p'
  by_cases hp : p' = p
  · subst hp
    simp only [idle, Function.update_self, Option.elim_some]
  · simp only [idle, Function.update_of_ne hp]

theorem size_update {q q' : ProtocolPool} (hq : t.pools p = some q) (hsize : q'.size = q.size) :
    size { pools := Function.update t.pools p (some q') } = t.size := by
  funext p'
  by_cases hp : p' = p
  · subst hp
    simp only [size, Function.update_self, Option.elim_some, hq, hsize]
  · simp only [size, Function.update_of_ne hp]

theorem borrow_of_nil (h : t.idle p = []) : t.borrow p = (none, t) := by
  rw [idle] at h
  rw [borrow]
  cases hq : t.pools p with
  | none => rfl
  | some q =>
    rw [hq, Option.elim_some] at h
    simp only [h]

theorem borrow_of_cons {translator : Nat} {rest : List Nat} (h : t.idle p = translator :: rest) :
    (t.borrow p).1 = some translator ∧ (t.borrow p).2.idle = Function.update t.idle p rest ∧
      (t.borrow p).2.size = t.size := by
  rw [idle] at h
  cases hq : t.pools p with
  | none =>
    rw [hq] at h
    cases h
  | some q =>
    rw [hq, Option.elim_some] at h
    simp only [borrow, hq, h]
    exact ⟨trivial, idle_update t p _, size_update hq rfl⟩

theorem returnTranslator_of_lt (h : (t.idle p).length < t.size p) (translator : Nat) :
    (t.returnTranslator p translator).idle = Function.update t.idle p (t.idle p ++ [translator]) ∧
      (t.returnTranslator p translator).size = t.size := by
  rw [idle, size] at h
  cases hq : t.pools p with
  | none =>
    rw [hq] at h
    cases h
  | some q =>
    have hidle : t.idle p = q.idle := by rw [idle, hq, Option.elim_some]
    rw [hq, Option.elim_some, Option.elim_some] at h
    simp only [returnTranslator, hq, if_pos h, hidle]
    exact ⟨idle_update t p _, size_update hq rfl⟩

end TranslatorPool

/-! ## The workers -/

/-- What a shard worker holds of the pool. -/
inductive Hand where
  | free
  -- the pool had none: the gateway's own translator does
  | fallback
  | borrowed (p : Protocol) (translator : Nat)
  | used (p : Protocol) (translator : Nat)
  deriving DecidableEq

namespace Hand

/-- The translator in a hand. -/
def holds : Hand → Option (Protocol × Nat)
  | .borrowed p translator => some (p, translator)
  | .used p translator => some (p, translator)
  | _ => none

/-- Behind the translation. -/
def spent : Hand → Option Hand
  | .fallback => some .free
  | .borrowed p translator => some (.used p translator)
  | _ => none

theorem holds_update (hand : Fin 7 → Hand) (id : Fin 7) (h : Hand) :
    holds ∘ Function.update hand id h = Function.update (holds ∘ hand) id h.holds :=
  Function.comp_update holds hand id h

/-- A hand that holds the same as before. -/
theorem holds_update_of_eq {hand : Fin 7 → Hand} {id : Fin 7} {h : Hand}
    (hholds : h.holds = (hand id).holds) : holds ∘ Function.update hand id h = holds ∘ hand := by
  rw [holds_update, hholds]
  exact Function.update_eq_self id _

theorem holds_spent {h h' : Hand} (hspent : h.spent = some h') : h'.holds = h.holds := by
  cases h with
  | fallback =>
    cases hspent
    rfl
  | borrowed p translator =>
    cases hspent
    rfl
  | _ => cases hspent

end Hand

/-- The gateway with its pool. -/
structure Pooled (k : Nat) where
  pipe : Pipeline k
  pool : TranslatorPool
  hand : Fin 7 → Hand

namespace Pooled

variable {k : Nat}

/-- What can happen next. -/
inductive Move (k : Nat) where
  | borrow (id : Fin 7)
  | translate (id : Fin 7) (env : Env)
  | giveBack (id : Fin 7)
  | other (m : Pipeline.Move k)

/-- The protocol of the message that a worker's task translates next. -/
def translating : Task → Option Protocol
  | .translated (.translate (msg :: _) _ false) => some msg.protocol
  | _ => none

/-- A worker that has a message to translate, or a translator to return, does this first. -/
def Held (s : Pooled k) : Pipeline.Move k → Prop
  | .advance i _ => ∃ id : Fin 7, i = Pipeline.worker id ∧
      ((translating (s.pipe.sys.task i)).isSome = true ∨ (s.hand id).holds.isSome = true)
  | _ => False

instance decidableHeld (s : Pooled k) (m : Pipeline.Move k) : Decidable (s.Held m) := by
  cases m <;> unfold Held <;> infer_instance

variable (libs : Libs) (bufferSize : Nat)

/-- One move. -/
def step (s : Pooled k) : Move k → Option (Pooled k)
  | .borrow id =>
    match s.hand id, translating (s.pipe.sys.task (Pipeline.worker id)) with
    | .free, some p =>
      match s.pool.borrow p with
      | (some translator, pool) =>
        some { s with pool, hand := Function.update s.hand id (.borrowed p translator) }
      | (none, pool) => some { s with pool, hand := Function.update s.hand id .fallback }
    | _, _ => none
  | .translate id env =>
    (s.hand id).spent.bind fun hand =>
      (s.pipe.step libs bufferSize (.advance (Pipeline.worker id) env)).map fun pipe =>
        { s with pipe, hand := Function.update s.hand id hand }
  | .giveBack id =>
    match s.hand id with
    | .used p translator => some { s with
        pool := s.pool.returnTranslator p translator
        hand := Function.update s.hand id .free }
    | _ => none
  | .other m =>
    if s.Held m then none
    else (s.pipe.step libs bufferSize m).map fun pipe => { s with pipe }

/-- A new gateway has eight translators for each pooled protocol. -/
def init (k cacheTtl : Nat) (hasCredentials : Bool) (now start : Nat) : Pooled k where
  pipe := .init k cacheTtl hasCredentials now start
  pool := .new 8
  hand _ := .free

/-- The moves of the pipeline that a move is. -/
def erase (_ : Pooled k) : Move k → List (Pipeline.Move k)
  | .borrow _ => []
  | .translate id env => [.advance (Pipeline.worker id) env]
  | .giveBack _ => []
  | .other m => [m]

variable {libs bufferSize}

theorem pipe_step {s s' : Pooled k} {a : Move k} (h : step libs bufferSize s a = some s') :
    Trace.run (Pipeline.step libs bufferSize) s.pipe (s.erase a) = some s'.pipe := by
  cases a with
  | borrow id =>
    rw [step] at h
    split at h
    · split at h <;> (cases h; rfl)
    · cases h
  | translate id env =>
    obtain ⟨hand, -, h⟩ := Option.bind_eq_some_iff.mp h
    obtain ⟨pipe, hpipe, rfl⟩ := Option.map_eq_some_iff.mp h
    rw [erase, Trace.run_singleton]
    exact hpipe
  | giveBack id =>
    rw [step] at h
    split at h
    · cases h
      rfl
    · cases h
  | other m =>
    rw [step, Option.ite_none_left_eq_some] at h
    obtain ⟨pipe, hpipe, rfl⟩ := Option.map_eq_some_iff.mp h.2
    rw [erase, Trace.run_singleton]
    exact hpipe

/-! ## Nothing gets lost -/

/-- All translators of a protocol. -/
def translators (p : Protocol) : List Nat := if p ∈ TranslatorPool.pooled then List.range 8 else []

/-- Every translator is in its channel or in one hand. -/
structure Intact (s : Pooled k) : Prop where
  size : ∀ p, s.pool.size p = (translators p).length
  stock : ∀ p, Pool.stock s.pool.idle (Hand.holds ∘ s.hand) p = translators p

theorem intact_init (k cacheTtl : Nat) (hasCredentials : Bool) (now start : Nat) :
    Intact (init k cacheTtl hasCredentials now start) := by
  have hidle : ∀ p, (TranslatorPool.new 8).idle p = translators p := by
    intro p
    cases p <;> rfl
  refine ⟨fun p => by cases p <;> rfl, fun p => ?_⟩
  rw [Pool.stock]
  show ((TranslatorPool.new 8).idle p : Multiset Nat) + ∑ _ : Fin 7, (0 : Multiset Nat) = _
  rw [hidle, Finset.sum_const_zero, add_zero]

theorem Intact.step {s s' : Pooled k} {a : Move k} (hs : Intact s)
    (h : step libs bufferSize s a = some s') : Intact s' := by
  cases a with
  | borrow id =>
    rw [Pooled.step] at h
    split at h
    · rename_i p hfree hp
      have hholds : (Hand.holds ∘ s.hand) id = none := by
        rw [Function.comp_apply, hfree]
        rfl
      cases hidle : s.pool.idle p with
      | nil =>
        rw [TranslatorPool.borrow_of_nil hidle] at h
        cases h
        have hsame := Hand.holds_update_of_eq (h := .fallback) hholds.symm
        exact ⟨hs.size, fun p => by rw [hsame]; exact hs.stock p⟩
      | cons translator rest =>
        obtain ⟨hborrow, hrest, hsize⟩ := TranslatorPool.borrow_of_cons hidle
        have hpair : s.pool.borrow p = (some translator, (s.pool.borrow p).2) := Prod.ext hborrow rfl
        rw [hpair] at h
        cases h
        refine ⟨fun p' => (congrFun hsize p').trans (hs.size p'), fun p' => ?_⟩
        show Pool.stock (s.pool.borrow p).2.idle _ p' = _
        rw [hrest, Hand.holds_update]
        exact (congrFun (Pool.stock_borrow hholds hidle) p').trans (hs.stock p')
    · cases h
  | translate id env =>
    obtain ⟨hand, hspent, h⟩ := Option.bind_eq_some_iff.mp h
    obtain ⟨pipe, -, rfl⟩ := Option.map_eq_some_iff.mp h
    have hsame := Hand.holds_update_of_eq (Hand.holds_spent hspent)
    exact ⟨hs.size, fun p => by rw [hsame]; exact hs.stock p⟩
  | giveBack id =>
    rw [Pooled.step] at h
    split at h
    · rename_i p translator hused
      cases h
      have hholds : (Hand.holds ∘ s.hand) id = some (p, translator) := by
        rw [Function.comp_apply, hused]
        rfl
      have hroom : (s.pool.idle p).length < s.pool.size p := by
        have hlt := Pool.length_lt_of_held s.pool.idle hholds
        rwa [hs.stock p, Multiset.coe_card, ← hs.size p] at hlt
      obtain ⟨hidle, hsize⟩ := TranslatorPool.returnTranslator_of_lt hroom translator
      refine ⟨fun p' => (congrFun hsize p').trans (hs.size p'), fun p' => ?_⟩
      show Pool.stock (s.pool.returnTranslator p translator).idle _ p' = _
      rw [hidle, Hand.holds_update]
      exact (congrFun (Pool.stock_giveBack hholds) p').trans (hs.stock p')
    · cases h
  | other m =>
    rw [Pooled.step, Option.ite_none_left_eq_some] at h
    obtain ⟨pipe, -, rfl⟩ := Option.map_eq_some_iff.mp h.2
    exact ⟨hs.size, hs.stock⟩

/-- **The pool suffices.**  In every run, in whatever order the workers borrow, translate and return, a
    run of the gateway with its pool is a run of the pipeline; each of the eight translators of a pooled
    protocol is in its channel or in one worker's hand; a worker that asks for one gets it; and for the
    other protocols there is never one. -/
theorem pool_suffices {cacheTtl now start : Nat} {hasCredentials : Bool} {as : List (Move k)}
    {s : Pooled k}
    (hrun : Trace.run (step libs bufferSize) (init k cacheTtl hasCredentials now start) as = some s) :
    Trace.run (Pipeline.step libs bufferSize) (.init k cacheTtl hasCredentials now start)
      (Trace.collect (step libs bufferSize) erase (init k cacheTtl hasCredentials now start) as) =
      some s.pipe ∧
    (∀ p, Pool.stock s.pool.idle (Hand.holds ∘ s.hand) p = translators p) ∧
    (∀ p ∈ TranslatorPool.pooled, ∀ id, s.hand id = .free → (s.pool.borrow p).1.isSome = true) ∧
    ∀ p, p ∉ TranslatorPool.pooled → (s.pool.borrow p).1 = none := by
  have hs : Intact s := Trace.invariant (fun _ _ _ h hs => hs.step h) as _ s hrun
    (intact_init k cacheTtl hasCredentials now start)
  refine ⟨?_, hs.stock, fun p hp id hfree => ?_, fun p hp => ?_⟩
  · exact Trace.Along.refines (C := fun _ _ => True) Pooled.pipe (fun _ _ _ _ h => pipe_step h) as _ s
      (Trace.along_of_forall as _ fun _ _ _ => trivial) hrun
  · have hempty : (Hand.holds ∘ s.hand) id = none := by
      rw [Function.comp_apply, hfree]
      rfl
    have hne : s.pool.idle p ≠ [] := by
      refine Pool.ne_nil_of_free hempty ?_
      rw [hs.stock p, translators, if_pos hp]
      decide
    obtain ⟨translator, rest, hidle⟩ := List.exists_cons_of_ne_nil hne
    rw [(TranslatorPool.borrow_of_cons hidle).1]
    rfl
  · have hempty : s.pool.idle p = [] := by
      have hstock := hs.stock p
      rw [translators, if_neg hp, Pool.stock] at hstock
      exact (Multiset.coe_eq_zero _).mp (add_eq_zero.mp hstock).1
    rw [TranslatorPool.borrow_of_nil hempty]

/-- A RockBLOCK reading comes to the worker of shard 1, which borrows a translator and returns it. -/
def oneTranslation : List (Move 1) :=
  let env : Env := ⟨fun _ => 0, fun _ => 0, .ok, true⟩
  let reading : Message := .newWithTemporal .rockBLOCK [1, 0, 1, 42] .operational 0 1000
  let taken : List (Pipeline.Move 1) := List.replicate 7 (.advance Pipeline.consumer env) ++
    [.work Pipeline.firstWorker env, .advance (Pipeline.worker Pipeline.firstWorker) env]
  (Pipeline.oneBatch reading ++ taken).map .other ++
    [.borrow Pipeline.firstWorker, .translate Pipeline.firstWorker env, .giveBack Pipeline.firstWorker]

/-- The translator that was first in its channel is now the last. -/
theorem oneTranslation_runs :
    (Trace.run (step frameLibs 8) (init 1 60000000000 true 0 0) oneTranslation).map
      (fun s => (s.hand 0, s.pool.idle .rockBLOCK)) = some (.free, [1, 2, 3, 4, 5, 6, 7, 0]) := by
  decide +kernel

theorem pool_suffices_oneTranslation :
    ∃ s, Trace.run (step frameLibs 8) (init 1 60000000000 true 0 0) oneTranslation = some s ∧
      (s.pool.borrow .rockBLOCK).1.isSome = true ∧ (s.pool.borrow .nidd).1 = none := by
  obtain ⟨s, hs, hend⟩ := Option.map_eq_some_iff.mp oneTranslation_runs
  obtain ⟨-, -, hpooled, hother⟩ := pool_suffices hs
  exact ⟨s, hs, hpooled .rockBLOCK (by decide) 0 (Prod.mk.inj hend).1, hother .nidd (by decide)⟩

end Pooled

end Gateway

end FloatProtocols
