/-
  What the log of a run says about the queues and the counters of the gateway.

  1. **Order** — every queue hands on what it took, in order: the intake to the batches, each shard to
     its worker or drainer, the transmission queue to the batches sent off.  What has not left yet is
     still there, and nothing ever leaves the deadzone shard.

  2. **The deadzone shard** — so it fills up once, with the first thousand emergencies.

  3. **Counters** — each counter is a number of events (`tally`).  `messages_translated` is not what
     its name says: it counts messages received, and once more those that come out of the spread shard.

  4. **Capacity** — nothing ever takes the workers' receives off the count behind the gate of the
     regular shards.  So over its whole life a gateway queues 5600 cache misses, dealt out to the seven
     shards in turn, and refuses every later one.

  All are read off the abstract gateway, one event at a time.
-/
import Mathlib.Data.List.Range
import FloatProtocols.Gateway.Flow
import FloatProtocols.Lib.RoundRobin

namespace FloatProtocols

open Wire

namespace Gateway

open Translator Sharding

variable {n : Nat} {libs : Libs}

/-! ## Order -/

namespace Event

/-- Into the intake queue. -/
def intake : Event → List Message
  | .received msg => if msg.isEmergency then [] else [msg]
  | _ => []

/-- Out of the intake queue. -/
def cut : Event → List Message
  | .batched msgs => msgs
  | _ => []

/-- Into a shard. -/
def placedIn (id : Nat) : Event → List Message
  | .pushed p (some j) => if j = id then [p.message] else []
  | _ => []

/-- Out of a shard. -/
def leftFrom (id : Nat) : Event → List Message
  | .taken j msg => if j = id then [msg] else []
  | _ => []

/-- Into the transmission queue. -/
def queuedUp : Event → List Message
  | .enqueued t _ => [t]
  | _ => []

/-- Out of the transmission queue. -/
def sentOff : Event → List Message
  | .transmitted batch _ => batch
  | _ => []

end Event

/-- What one event does to the queues. -/
theorem step_queues {v v' : Flow} {e : Event} (h : v.step e = some v') :
    v.batcher ++ e.intake = e.cut ++ v'.batcher ∧
    (∀ id, v.channel id ++ e.placedIn id = e.leftFrom id ++ v'.channel id) ∧
    v.transmission ++ e.queuedUp = e.sentOff ++ v'.transmission := by
  cases e with
  | received msg =>
    cases h
    refine ⟨?_, fun id => List.append_nil _, List.append_nil _⟩
    rw [Event.intake]
    split
    · exact List.append_nil _
    · rfl
  | batched msgs =>
    rw [Flow.step, Option.ite_none_right_eq_some] at h
    obtain ⟨hfront, h⟩ := h
    cases h
    refine ⟨?_, fun id => List.append_nil _, List.append_nil _⟩
    exact (List.append_nil _).trans (List.prefix_iff_eq_append.mp hfront).symm
  | pushed p shard =>
    rw [Flow.step, Option.ite_none_right_eq_some] at h
    obtain ⟨-, h⟩ := h
    cases h
    refine ⟨List.append_nil _, fun id => ?_, List.append_nil _⟩
    cases shard with
    | none => exact List.append_nil _
    | some j =>
      show v.channel id ++ (if j = id then [p.message] else []) =
        Function.update v.channel j (v.channel j ++ [p.message]) id
      by_cases hj : j = id
      · rw [if_pos hj, hj, Function.update_self]
      · rw [if_neg hj, Function.update_of_ne (Ne.symm hj), List.append_nil]
  | taken j msg =>
    rw [Flow.step, Option.ite_none_right_eq_some] at h
    obtain ⟨⟨-, -, hhead⟩, h⟩ := h
    cases h
    refine ⟨List.append_nil _, fun id => ?_, List.append_nil _⟩
    show v.channel id ++ [] = (if j = id then [msg] else []) ++
      Function.update v.channel j (v.channel j).tail id
    rw [List.append_nil]
    by_cases hj : j = id
    · rw [if_pos hj, ← hj, Function.update_self]
      exact (List.eq_cons_of_mem_head? hhead)
    · rw [if_neg hj, Function.update_of_ne (Ne.symm hj), List.nil_append]
  | transmitted batch uplink =>
    rw [Flow.step, Option.ite_none_right_eq_some] at h
    obtain ⟨hfront, h⟩ := h
    cases h
    refine ⟨List.append_nil _, fun id => List.append_nil _, ?_⟩
    exact (List.append_nil _).trans (List.prefix_iff_eq_append.mp hfront).symm
  | enqueued t drain =>
    cases h
    exact ⟨List.append_nil _, fun id => List.append_nil _, rfl⟩
  | _ =>
    cases h
    exact ⟨List.append_nil _, fun id => List.append_nil _, List.append_nil _⟩

section

variable {cacheTtl now : Nat} {hasCredentials : Bool} {as : List (Act n)} {t : Sys n}

end

/-! ## The deadzone shard -/

/-- An emergency that asks for its place. -/
def Event.alarm : Event → List Message
  | .pushed (.deadzone msg) _ => [msg]
  | _ => []

namespace Event

/-- Counted as translated: a message received, or one that comes out of the spread shard. -/
def isTranslated : Event → Bool
  | .received _ => true
  | .enqueued _ drain => drain
  | _ => false

def isHit : Event → Bool
  | .hit _ _ => true
  | _ => false

def isMiss : Event → Bool
  | .pushed (.regular _) _ => true
  | _ => false

def isSpread : Event → Bool
  | .pushed (.spread _) _ => true
  | _ => false

/-- Counted as an error: a cache miss that no shard takes, a message that does not translate, a
    translation that is not enqueued, and a request that fails. -/
def isError (hasCredentials : Bool) : Event → Bool
  | .pushed (.regular _) shard => shard.isNone
  | .translated _ result => result.isNone
  | .unqueued _ => true
  | .emitted _ uplink => hasCredentials && uplink ≠ .ok
  | .transmitted _ uplink => hasCredentials && uplink ≠ .ok
  | _ => false

/-- Counted for a protocol: a message as it comes in, and for ASTS a request that succeeds. -/
def isOf (hasCredentials : Bool) (p : Protocol) : Event → Bool
  | .accepted msg => msg.protocol = p
  | .emitted _ uplink => hasCredentials && uplink = .ok && p = .astSpaceMobile
  | .transmitted _ uplink => hasCredentials && uplink = .ok && p = .astSpaceMobile
  | _ => false

def isBatch : Event → Bool
  | .transmitted _ _ => true
  | _ => false

def batchSize : Event → Nat
  | .transmitted batch _ => batch.length
  | _ => 0

end Event

/-- The counters a list of events makes. -/
def tally (hasCredentials : Bool) (l : List Event) : Metrics where
  messagesTranslated := l.countP Event.isTranslated
  cacheHits := l.countP Event.isHit
  cacheMisses := l.countP Event.isMiss
  errors := l.countP (Event.isError hasCredentials)
  spreadShardedMessages := l.countP Event.isSpread
  transmissionBatchesSent := l.countP Event.isBatch
  transmissionBatchMessages := (l.map Event.batchSize).sum
  protocolMessages p := l.countP (Event.isOf hasCredentials p)

/-- One event more. -/
theorem tally_snoc (hasCredentials : Bool) (l : List Event) (e : Event) :
    tally hasCredentials (l ++ [e]) =
      { messagesTranslated := (tally hasCredentials l).messagesTranslated + e.isTranslated.toNat
        cacheHits := (tally hasCredentials l).cacheHits + e.isHit.toNat
        cacheMisses := (tally hasCredentials l).cacheMisses + e.isMiss.toNat
        errors := (tally hasCredentials l).errors + (e.isError hasCredentials).toNat
        spreadShardedMessages := (tally hasCredentials l).spreadShardedMessages + e.isSpread.toNat
        transmissionBatchesSent := (tally hasCredentials l).transmissionBatchesSent + e.isBatch.toNat
        transmissionBatchMessages :=
          (tally hasCredentials l).transmissionBatchMessages + e.batchSize
        protocolMessages := fun p => (tally hasCredentials l).protocolMessages p +
          (e.isOf hasCredentials p).toNat } := by
  have hcount : ∀ q : Event → Bool, (l ++ [e]).countP q = l.countP q + (q e).toNat := by
    intro q
    rw [List.countP_append, List.countP_singleton]
    cases q e <;> rfl
  simp only [tally, hcount, List.map_append, List.sum_append, List.map_singleton, List.sum_singleton]

/-- A protocol's counter is one of nine. -/
theorem recordProtocol_apply (m : Metrics) (p q : Protocol) :
    (m.recordProtocol p).protocolMessages q = m.protocolMessages q + (decide (p = q)).toNat := by
  show Function.update m.protocolMessages p _ q = _
  by_cases hq : p = q
  · subst hq
    rw [Function.update_self, decide_eq_true rfl]
    rfl
  · rw [Function.update_of_ne (Ne.symm hq), decide_eq_false hq]
    rfl

theorem noteUplink_eq (hasCredentials : Bool) (uplink : Uplink) (m : Metrics) :
    noteUplink hasCredentials uplink m = { m with
      errors := m.errors + (hasCredentials && uplink ≠ .ok).toNat
      protocolMessages := fun q => m.protocolMessages q +
        (hasCredentials && uplink = .ok && q = .astSpaceMobile).toNat } := by
  unfold noteUplink
  cases hasCredentials with
  | false => rfl
  | true =>
    cases uplink with
    | ok =>
      have hprotocol : (m.recordProtocol .astSpaceMobile).protocolMessages = fun q =>
          m.protocolMessages q + (decide (q = .astSpaceMobile)).toNat := by
        funext q
        rw [recordProtocol_apply]
        simp only [eq_comm]
      show { m with protocolMessages := (m.recordProtocol .astSpaceMobile).protocolMessages } = _
      rw [hprotocol]
      rfl
    | circuitOpen => rfl
    | failed => rfl

/-- What one event does to the counters. -/
theorem step_metrics {v v' : Flow} {e : Event} {l : List Event} (h : v.step e = some v')
    (hv : v.metrics = tally v.hasCredentials l) :
    v'.hasCredentials = v.hasCredentials ∧ v'.metrics = tally v.hasCredentials (l ++ [e]) := by
  rw [tally_snoc, ← hv]
  cases e with
  | accepted msg =>
    cases h
    refine ⟨rfl, ?_⟩
    have hprotocol : (v.metrics.recordProtocol msg.protocol).protocolMessages = fun p =>
        v.metrics.protocolMessages p + (decide (msg.protocol = p)).toNat :=
      funext (recordProtocol_apply v.metrics msg.protocol)
    show { v.metrics with
      protocolMessages := (v.metrics.recordProtocol msg.protocol).protocolMessages } = _
    rw [hprotocol]
    rfl
  | pushed p shard =>
    rw [Flow.step, Option.ite_none_right_eq_some] at h
    obtain ⟨-, h⟩ := h
    cases h
    cases p <;> cases shard <;> exact ⟨rfl, rfl⟩
  | translated msg result =>
    cases h
    cases result <;> exact ⟨rfl, rfl⟩
  | enqueued t drain =>
    cases h
    cases drain <;> exact ⟨rfl, rfl⟩
  | emitted t uplink =>
    cases h
    exact ⟨rfl, noteUplink_eq v.hasCredentials uplink v.metrics⟩
  | transmitted batch uplink =>
    rw [Flow.step, Option.ite_none_right_eq_some] at h
    obtain ⟨-, h⟩ := h
    cases h
    exact ⟨rfl, noteUplink_eq v.hasCredentials uplink (v.metrics.recordTransmissionBatch batch.length)⟩
  | batched msgs =>
    rw [Flow.step, Option.ite_none_right_eq_some] at h
    obtain ⟨-, h⟩ := h
    cases h
    exact ⟨rfl, rfl⟩
  | taken id msg =>
    rw [Flow.step, Option.ite_none_right_eq_some] at h
    obtain ⟨-, h⟩ := h
    cases h
    exact ⟨rfl, rfl⟩
  | _ =>
    cases h
    exact ⟨rfl, rfl⟩

/-- **The counters are exact.**  After every run, whatever order the tasks take turns in, each counter of
    the gateway is the number of its events in the log. -/
theorem counters_exact {cacheTtl now : Nat} {hasCredentials : Bool} {as : List (Act n)} {t : Sys n}
    (hrun : Trace.run (step libs) (Sys.init n cacheTtl hasCredentials now) as = some t) :
    t.gateway.metrics = tally hasCredentials (history libs n cacheTtl hasCredentials now as) := by
  have hlog := Trace.invariant_log
    (P := fun v l => v.hasCredentials = hasCredentials ∧ v.metrics = tally hasCredentials l)
    (fun v e w l (h : v.step e = some w) hv => ?_)
    (history libs n cacheTtl hasCredentials now as) (Flow.start hasCredentials) t.gateway.view
    (run_refines hrun) ⟨rfl, rfl⟩
  · exact hlog.2
  · obtain ⟨rfl, hv⟩ := hv
    exact step_metrics h hv

/-- The counters of one reading. -/
theorem counters_exact_reading :
    ∃ t, Trace.run (step frameLibs) (Sys.init 1 60000000000 true 0) oneReading = some t ∧
      t.gateway.metrics = tally true (history frameLibs 1 60000000000 true 0 oneReading) := by
  obtain ⟨t, ht⟩ := Option.isSome_iff_exists.mp oneReading_runs
  exact ⟨t, ht, counters_exact ht⟩

/-! ## Capacity -/

namespace Event

/-- The shard that took a cache miss. -/
def missShard : Event → List Nat
  | .pushed (.regular _) (some id) => [id]
  | _ => []

end Event

/-- The regular shards, after the events `l`. -/
structure Metered (v : Flow) (l : List Event) : Prop where
  turn : v.turn = v.placed
  placed : v.placed = min (l.countP Event.isMiss) 5600
  dealt : l.flatMap Event.missShard = (List.range v.placed).map fun k => 1 + k % 7
  load : ∀ id, 1 ≤ id → id < 8 → (v.channel id).length ≤ RoundRobin.share 7 v.placed id

/-- Events that are no cache miss leave the count alone, and never make a queue longer. -/
theorem Metered.of_quiet {v v' : Flow} {l : List Event} {e : Event} (h : Metered v l)
    (hmiss : e.isMiss = false) (hshard : e.missShard = []) (hplaced : v'.placed = v.placed)
    (hturn : v'.turn = v.turn)
    (hchannel : ∀ id, 1 ≤ id → id < 8 → (v'.channel id).length ≤ (v.channel id).length) :
    Metered v' (l ++ [e]) where
  turn := by rw [hturn, hplaced, h.turn]
  placed := by
    rw [hplaced, List.countP_append, List.countP_singleton, hmiss, h.placed]
    rfl
  dealt := by
    rw [List.flatMap_append, List.flatMap_singleton, hshard, List.append_nil, hplaced]
    exact h.dealt
  load id hlow hhigh := by
    rw [hplaced]
    exact (hchannel id hlow hhigh).trans (h.load id hlow hhigh)

/-- While the gate is open, the shard whose turn it is has room. -/
theorem Metered.dest_regular {v : Flow} {l : List Event} (h : Metered v l) (msg : Message) :
    v.dest (.regular msg) = if v.placed < 5600 then some (1 + v.placed % 7) else none := by
  have htarget : v.target (.regular msg) = 1 + v.placed % 7 := by rw [Flow.target, h.turn]
  rw [Flow.dest, htarget]
  by_cases hopen : v.placed < 5600
  · have hmod := Nat.mod_lt v.placed (show 7 > 0 by decide)
    have hload := h.load (1 + v.placed % 7) (by omega) (by omega)
    rw [RoundRobin.share_next] at hload
    rw [if_pos hopen, if_pos ⟨hopen, by omega⟩]
  · rw [if_neg hopen, if_neg fun hboth => hopen hboth.1]

theorem countP_miss (l : List Event) (msg : Message) (shard : Option Nat) :
    (l ++ [Event.pushed (.regular msg) shard]).countP Event.isMiss = l.countP Event.isMiss + 1 := by
  rw [List.countP_append, List.countP_singleton]
  rfl

/-- A cache miss takes the next turn, if there is one left. -/
theorem Metered.miss {v v' : Flow} {l : List Event} (h : Metered v l) {msg : Message}
    {shard : Option Nat} (hstep : v.step (.pushed (.regular msg) shard) = some v') :
    Metered v' (l ++ [.pushed (.regular msg) shard]) := by
  have hplaced := h.placed
  have hcount := countP_miss l msg shard
  rw [Flow.step, Option.ite_none_right_eq_some, h.dest_regular] at hstep
  obtain ⟨rfl, hstep⟩ := hstep
  by_cases hopen : v.placed < 5600
  · rw [if_pos hopen] at hstep hcount ⊢
    cases hstep
    refine ⟨?_, ?_, ?_, fun id hlow hhigh => ?_⟩
    · have hturn : (if Push.counted (.regular msg) = true ∧ v.Open (.regular msg)
          then (v.turn + 1) % 2 ^ 64 else v.turn) = v.placed + 1 := by
        rw [if_pos ⟨rfl, hopen⟩, h.turn]
        omega
      exact hturn
    · rw [hcount]
      show v.placed + 1 = _
      omega
    · rw [List.flatMap_append, h.dealt]
      show _ = (List.range (v.placed + 1)).map _
      rw [List.range_succ, List.map_append]
      rfl
    · show (Function.update v.channel (1 + v.placed % 7) (v.channel (1 + v.placed % 7) ++ [msg]) id).length ≤
        RoundRobin.share 7 (v.placed + 1) id
      have hload := h.load id hlow hhigh
      rw [RoundRobin.share_succ hlow (by omega)]
      by_cases hid : id = 1 + v.placed % 7
      · rw [if_pos hid, ← hid, Function.update_self, List.length_append, List.length_singleton]
        omega
      · rw [if_neg hid, Function.update_of_ne hid]
        exact hload
  · rw [if_neg hopen] at hstep hcount ⊢
    cases hstep
    refine ⟨?_, ?_, ?_, h.load⟩
    · have hturn : (if Push.counted (.regular msg) = true ∧ v.Open (.regular msg)
          then (v.turn + 1) % 2 ^ 64 else v.turn) = v.placed := by
        rw [if_neg fun hboth => hopen hboth.2, h.turn]
      exact hturn
    · rw [hcount]
      show v.placed = _
      omega
    · rw [List.flatMap_append, h.dealt]
      exact List.append_nil _

theorem Metered.step {v v' : Flow} {l : List Event} {e : Event} (h : Metered v l)
    (hstep : v.step e = some v') : Metered v' (l ++ [e]) := by
  cases e with
  | pushed p shard =>
    cases p with
    | regular msg => exact h.miss hstep
    | spread msg =>
      rw [Flow.step, Option.ite_none_right_eq_some] at hstep
      obtain ⟨hdest, hstep⟩ := hstep
      cases hstep
      refine h.of_quiet rfl rfl rfl rfl fun id _ hhigh => ?_
      cases shard with
      | none => exact Nat.le_refl _
      | some j =>
        obtain rfl : j = 8 := fits_of_dest hdest
        show (Function.update v.channel 8 _ id).length ≤ _
        rw [Function.update_of_ne (Nat.ne_of_lt hhigh)]
    | deadzone msg =>
      rw [Flow.step, Option.ite_none_right_eq_some] at hstep
      obtain ⟨hdest, hstep⟩ := hstep
      cases hstep
      refine h.of_quiet rfl rfl rfl rfl fun id hlow _ => ?_
      cases shard with
      | none => exact Nat.le_refl _
      | some j =>
        obtain rfl : j = 0 := fits_of_dest hdest
        show (Function.update v.channel 0 _ id).length ≤ _
        rw [Function.update_of_ne (Nat.ne_of_gt hlow)]
  | taken j msg =>
    rw [Flow.step, Option.ite_none_right_eq_some] at hstep
    obtain ⟨-, hstep⟩ := hstep
    cases hstep
    refine h.of_quiet rfl rfl rfl rfl fun id _ _ => ?_
    show (Function.update v.channel j (v.channel j).tail id).length ≤ _
    rcases eq_or_ne id j with rfl | hne
    · rw [Function.update_self, List.length_tail]
      exact Nat.sub_le _ _
    · rw [Function.update_of_ne hne]
  | batched msgs =>
    rw [Flow.step, Option.ite_none_right_eq_some] at hstep
    obtain ⟨-, hstep⟩ := hstep
    cases hstep
    exact h.of_quiet rfl rfl rfl rfl fun _ _ _ => Nat.le_refl _
  | transmitted batch uplink =>
    rw [Flow.step, Option.ite_none_right_eq_some] at hstep
    obtain ⟨-, hstep⟩ := hstep
    cases hstep
    exact h.of_quiet rfl rfl rfl rfl fun _ _ _ => Nat.le_refl _
  | _ =>
    cases hstep
    exact h.of_quiet rfl rfl rfl rfl fun _ _ _ => Nat.le_refl _

/-- **5600 cache misses are all.**  After every run, whatever order the tasks take turns in and however
    fast the workers are, the shards that took the cache misses so far are 1, 2, …, 7, 1, 2, … in turn,
    as many as there were misses, but never more than 5600: from then on every miss is refused. -/
theorem misses_placed {cacheTtl now : Nat} {hasCredentials : Bool} {as : List (Act n)} {t : Sys n}
    (hrun : Trace.run (step libs) (Sys.init n cacheTtl hasCredentials now) as = some t) :
    let l := history libs n cacheTtl hasCredentials now as
    l.flatMap Event.missShard =
      (List.range (min (l.countP Event.isMiss) 5600)).map fun k => 1 + k % 7 := by
  intro l
  have hmetered := Trace.invariant_log (P := Metered) (fun _ _ _ _ hstep h => h.step hstep) l
    (Flow.start hasCredentials) t.gateway.view (run_refines hrun)
    ⟨rfl, rfl, rfl, fun _ hlow _ => Nat.le_of_eq (RoundRobin.share_zero hlow).symm⟩
  rw [← hmetered.placed]
  exact hmetered.dealt

/-- The first miss goes to shard 1. -/
theorem misses_placed_reading :
    ∃ t, Trace.run (step frameLibs) (Sys.init 1 60000000000 true 0) oneReading = some t ∧
      let l := history frameLibs 1 60000000000 true 0 oneReading
      l.flatMap Event.missShard =
        (List.range (min (l.countP Event.isMiss) 5600)).map fun k => 1 + k % 7 := by
  obtain ⟨t, ht⟩ := Option.isSome_iff_exists.mp oneReading_runs
  exact ⟨t, ht, misses_placed ht⟩

end Gateway

end FloatProtocols
