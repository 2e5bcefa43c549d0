/-
  The limiters of `cadence_translation.rs` over whole runs: rules are added and messages translated in
  any order.

  A limiter is made on the first message under the key "TYPE:PROTOCOL", and no two pairs share a key
  (`limiterKey_inj`).  So the messages of a pair with a `Throttle` rule go through a throttle of their
  own (`outcomes_eq_run`), whatever else the translator is asked (`outcomes_congr`).
-/
import Mathlib.Data.List.Basic
import FloatProtocols.Gateway.Cadence
import FloatProtocols.Lib.Throttle

namespace FloatProtocols

namespace CadenceTranslator

/-! ## Keys -/

/-- The key of a pair's limiter. -/
def limiterKey (messageType : String) (sourceProtocol : Protocol) : String :=
  messageType ++ ":" ++ sourceProtocol.display

theorem toList_limiterKey (t : String) (p : Protocol) :
    (limiterKey t p).toList = t.toList ++ ':' :: p.display.toList := by
  simp [limiterKey]

/-- What follows the last `c` of a list is determined, and so is what precedes it. -/
theorem append_cons_inj_of_notMem_right {α : Type} {c : α} {x y u v : List α} (hu : c ∉ u) (hv : c ∉ v)
    (h : x ++ c :: u = y ++ c :: v) : x = y ∧ u = v := by
  rcases List.append_eq_append_iff.mp h with ⟨as, rfl, has⟩ | ⟨as, rfl, has⟩
  all_goals cases as with
  | nil => exact ⟨by simp, by simpa [eq_comm] using has⟩
  | cons a as =>
    obtain ⟨-, rfl⟩ := List.cons.inj has
    simp at hu hv

/-- **No two pairs share a limiter.** -/
theorem limiterKey_inj {t t' : String} {p p' : Protocol} (h : limiterKey t p = limiterKey t' p') :
    t = t' ∧ p = p' := by
  have hcolon : ∀ q : Protocol, ':' ∉ q.display.toList := by
    intro q
    cases q <;> decide
  have hlist := congrArg String.toList h
  rw [toList_limiterKey, toList_limiterKey] at hlist
  obtain ⟨ht, hp⟩ := append_cons_inj_of_notMem_right (hcolon p) (hcolon p') hlist
  refine ⟨String.toList_inj.mp ht, ?_⟩
  have hdisplay := String.toList_inj.mp hp
  revert hdisplay
  cases p <;> cases p' <;> decide

/-! ## One message -/

/-- The rule of a pair: the first that matches. -/
def ruleFor (ct : CadenceTranslator) (messageType : String) (sourceProtocol : Protocol) :
    Option CadenceRule :=
  ct.rules.find? fun r => r.messageType = messageType ∧ r.sourceProtocol = sourceProtocol

/-- What is done with a message; without a rule, and in an emergency, nothing. -/
def transformationFor (ct : CadenceTranslator) (messageType : String) (sourceProtocol : Protocol)
    (priority : Priority) : CadenceTransformation :=
  if priority = .emergency then .passthrough
  else (ct.ruleFor messageType sourceProtocol).elim .passthrough CadenceRule.transformation

/-- One message under a transformation. -/
def transform (ct : CadenceTranslator) (now : Int) (key : String) :
    CadenceTransformation → TranslationAction × CadenceTranslator
  | .passthrough => (.send, ct)
  | .rateLimit minInterval => ct.limit now key minInterval
  | .aggregate windowMs => (.buffer windowMs, ct)
  | .duplicate maxDuplicates => (.duplicate maxDuplicates, ct)
  | .throttle targetIntervalMs => ct.limit now key (targetIntervalMs.toNat * 1000000)

variable {ct ct' : CadenceTranslator} {t : String} {p : Protocol} {rule : CadenceRule}

theorem translateMessage_eq (ct : CadenceTranslator) (now : Int) (t : String) (p : Protocol)
    (priority : Priority) : ct.translateMessage now t p priority =
      ct.transform now (limiterKey t p) (ct.transformationFor t p priority) := by
  rw [translateMessage, transformationFor, ruleFor]
  split
  · rfl
  · cases hrule : ct.rules.find? fun r => r.messageType = t ∧ r.sourceProtocol = p with
    | none => rfl
    | some rule =>
      have hmatch := List.find?_some hrule
      rw [decide_eq_true_eq] at hmatch
      simp only [hmatch.1, Option.elim_some, limiterKey]
      cases rule.transformation <;> rfl

theorem transform_rules (ct : CadenceTranslator) (now : Int) (key : String)
    (tr : CadenceTransformation) : (ct.transform now key tr).2.rules = ct.rules := by
  cases tr <;> rfl

/-- The limiters under other keys stay. -/
theorem lookup_transform_ne {key key' : String} (h : key' ≠ key) (now : Int)
    (tr : CadenceTransformation) :
    (ct.transform now key tr).2.rateLimiters.lookup key' = ct.rateLimiters.lookup key' := by
  cases tr with
  | rateLimit | throttle => exact AList.lookup_insert_ne h
  | passthrough | aggregate | duplicate => rfl

/-- Only the limiter under the key is read. -/
theorem transform_congr {key : String} (h : ct.rateLimiters.lookup key = ct'.rateLimiters.lookup key)
    (now : Int) (tr : CadenceTransformation) :
    (ct.transform now key tr).1 = (ct'.transform now key tr).1 ∧
    (ct.transform now key tr).2.rateLimiters.lookup key =
      (ct'.transform now key tr).2.rateLimiters.lookup key := by
  cases tr with
  | rateLimit | throttle =>
    simp only [transform, limit, h, AList.lookup_insert, and_self]
  | passthrough | aggregate | duplicate => exact ⟨rfl, h⟩

/-! ## Runs -/

/-- A call of the translator. -/
inductive Call where
  | addRule (rule : CadenceRule)
  | translateMessage (now : Int) (messageType : String) (sourceProtocol : Protocol)
      (priority : Priority)
  deriving DecidableEq, Repr

/-- The rules it adds. -/
def Call.rules : Call → List CadenceRule
  | .addRule rule => [rule]
  | .translateMessage _ _ _ _ => []

/-- When a message is translated. -/
def Call.instant : Call → Option Int
  | .addRule _ => none
  | .translateMessage now _ _ _ => some now

/-- A rule for the pair, or one of its messages that is no emergency. -/
def Call.concerns (t : String) (p : Protocol) : Call → Bool
  | .addRule rule => rule.messageType = t ∧ rule.sourceProtocol = p
  | .translateMessage _ messageType sourceProtocol priority =>
    messageType = t ∧ sourceProtocol = p ∧ priority ≠ .emergency

/-- One call. -/
def apply (ct : CadenceTranslator) : Call → CadenceTranslator
  | .addRule rule => ct.addRule rule
  | .translateMessage now messageType sourceProtocol priority =>
    (ct.translateMessage now messageType sourceProtocol priority).2

/-- The translator after a run of calls. -/
def run (calls : List Call) : CadenceTranslator := calls.foldl apply new

/-- The outcome of a call for the pair: of a message that is no emergency, with a rule in place. -/
def outcome (ct : CadenceTranslator) (t : String) (p : Protocol) :
    Call → List (Int × TranslationAction)
  | .addRule _ => []
  | .translateMessage now messageType sourceProtocol priority =>
    if (messageType = t ∧ sourceProtocol = p ∧ priority ≠ .emergency) ∧ (ct.ruleFor t p).isSome then
      [(now, (ct.translateMessage now messageType sourceProtocol priority).1)]
    else []

/-- The pair's outcomes over a run, with their instants. -/
def outcomes (t : String) (p : Protocol) :
    CadenceTranslator → List Call → List (Int × TranslationAction)
  | _, [] => []
  | ct, call :: calls => ct.outcome t p call ++ outcomes t p (ct.apply call) calls

/-- A call leaves the rules, and adds its own behind them. -/
theorem rules_apply (ct : CadenceTranslator) (call : Call) :
    (ct.apply call).rules = ct.rules ++ call.rules := by
  cases call with
  | addRule rule => rfl
  | translateMessage now t p priority =>
    rw [apply, translateMessage_eq, transform_rules, Call.rules, List.append_nil]

theorem ruleFor_apply (ct : CadenceTranslator) (call : Call) (t : String) (p : Protocol) :
    (ct.apply call).ruleFor t p = (ct.ruleFor t p).or
      (call.rules.find? fun r => r.messageType = t ∧ r.sourceProtocol = p) := by
  rw [ruleFor, rules_apply, List.find?_append, ruleFor]

/-- **A rule in place stays.** -/
theorem ruleFor_foldl (calls : List Call) :
    ∀ ct : CadenceTranslator, ct.ruleFor t p = some rule →
      (calls.foldl apply ct).ruleFor t p = some rule := by
  induction calls with
  | nil => exact fun _ h => h
  | cons call calls ih =>
    intro ct h
    refine ih (ct.apply call) ?_
    rw [ruleFor_apply, h, Option.some_or]

/-! ## Other pairs -/

/-- The two translators are one to the pair: they have its rule and its limiter in common. -/
structure Alike (t : String) (p : Protocol) (ct ct' : CadenceTranslator) : Prop where
  rule : ct.ruleFor t p = ct'.ruleFor t p
  limiter : ct.rateLimiters.lookup (limiterKey t p) = ct'.rateLimiters.lookup (limiterKey t p)

/-- A call that does not concern the pair. -/
theorem apply_alike {call : Call} (h : call.concerns t p = false) : Alike t p (ct.apply call) ct := by
  cases call with
  | addRule rule =>
    refine ⟨?_, rfl⟩
    rw [Call.concerns] at h
    rw [ruleFor_apply, Call.rules, List.find?_cons, h, List.find?_nil, Option.or_none]
  | translateMessage now t' p' priority =>
    refine ⟨by rw [ruleFor_apply, Call.rules, List.find?_nil, Option.or_none], ?_⟩
    rw [apply, translateMessage_eq]
    by_cases hkey : limiterKey t p = limiterKey t' p'
    · -- an emergency of the pair itself
      obtain ⟨rfl, rfl⟩ := limiterKey_inj hkey
      have hemergency : priority = .emergency := by simpa [Call.concerns] using h
      rw [transformationFor, if_pos hemergency, transform]
    · exact lookup_transform_ne hkey now _

theorem outcome_of_not_concerns {call : Call} (h : call.concerns t p = false) :
    ct.outcome t p call = [] := by
  cases call with
  | addRule rule => rfl
  | translateMessage now t' p' priority =>
    exact if_neg fun hc => (decide_eq_false_iff_not.mp h) hc.1

/-- A call that does, on both sides. -/
theorem Alike.outcome_apply (h : Alike t p ct ct') {call : Call} (hc : call.concerns t p = true) :
    ct.outcome t p call = ct'.outcome t p call ∧ Alike t p (ct.apply call) (ct'.apply call) := by
  have hrule : (ct.apply call).ruleFor t p = (ct'.apply call).ruleFor t p := by
    rw [ruleFor_apply, ruleFor_apply ct', h.rule]
  cases call with
  | addRule rule => exact ⟨rfl, hrule, h.limiter⟩
  | translateMessage now t' p' priority =>
    obtain ⟨rfl, rfl, -⟩ := of_decide_eq_true hc
    have htr : ct.transformationFor t' p' priority = ct'.transformationFor t' p' priority := by
      rw [transformationFor, transformationFor, h.rule]
    obtain ⟨haction, hlimiter⟩ := transform_congr h.limiter now (ct'.transformationFor t' p' priority)
    refine ⟨?_, hrule, ?_⟩
    · rw [outcome, outcome, translateMessage_eq, translateMessage_eq, h.rule, htr, haction]
    · rw [apply, apply, translateMessage_eq, translateMessage_eq, htr, hlimiter]

/-- **A pair's outcomes are those of the run without the calls that do not concern it.** -/
theorem outcomes_filter (calls : List Call) : ∀ ct ct' : CadenceTranslator, Alike t p ct ct' →
    outcomes t p ct calls = outcomes t p ct' (calls.filter (Call.concerns t p)) := by
  induction calls with
  | nil => exact fun _ _ _ => rfl
  | cons call calls ih =>
    intro ct ct' h
    cases hc : call.concerns t p with
    | true =>
      obtain ⟨hout, halike⟩ := h.outcome_apply hc
      rw [List.filter_cons_of_pos hc, outcomes, outcomes, hout, ih _ _ halike]
    | false =>
      have halike : Alike t p (ct.apply call) ct := apply_alike hc
      rw [List.filter_cons_of_neg (by rw [hc]; exact Bool.false_ne_true), outcomes,
        outcome_of_not_concerns hc, List.nil_append]
      exact ih _ _ ⟨halike.rule.trans h.rule, halike.limiter.trans h.limiter⟩

theorem outcomes_congr {calls calls' : List Call}
    (h : calls.filter (Call.concerns t p) = calls'.filter (Call.concerns t p)) :
    outcomes t p new calls = outcomes t p new calls' := by
  rw [outcomes_filter calls new new ⟨rfl, rfl⟩, outcomes_filter calls' new new ⟨rfl, rfl⟩, h]

/-! ## The throttle -/

/-- The pair's limiter remembers its last Send; there is none before the first. -/
def Tracks (t : String) (p : Protocol) (d : Int) (ct : CadenceTranslator) (last : Option Int) : Prop :=
  (ct.rateLimiters.lookup (limiterKey t p)).map (fun l => (l.lastSent, l.minInterval)) =
    last.map fun sent => (sent, d)

/-- Send or Drop. -/
def verdict (x : Int × Bool) : Int × TranslationAction := (x.1, if x.2 then .send else .drop)

/-- **A limiter is a throttle.** -/
theorem limit_tracks {d now : Int} {last : Option Int} (hd : 0 ≤ d) (h : Tracks t p d ct last)
    (hlast : ∀ sent ∈ last, sent ≤ now) :
    (now, (ct.limit now (limiterKey t p) d).1) = verdict (now, (Throttle.step d last now).1) ∧
    Tracks t p d (ct.limit now (limiterKey t p) d).2 (Throttle.step d last now).2 := by
  cases last with
  | none =>
    rw [Tracks, Option.map_none, Option.map_eq_none_iff] at h
    have hgo : max 0 (now - (now - d)) ≥ d := by omega
    rw [Throttle.step_none, Tracks, limit, h, Option.getD_none, RateLimiter.new, RateLimiter.shouldSend, if_pos hgo]
    exact ⟨rfl, by rw [AList.lookup_insert]; rfl⟩
  | some sent =>
    obtain ⟨l, hl, hpair⟩ := Option.map_eq_some_iff.mp h
    obtain ⟨rfl, rfl⟩ := Prod.mk.inj hpair
    have hpast := hlast l.lastSent rfl
    rw [Tracks, limit, hl, Option.getD_some, RateLimiter.shouldSend]
    rcases Throttle.step_cases l.minInterval (some l.lastSent) now with ⟨hstep, hgap⟩ | ⟨hstep, t, ht, hclose⟩
    · have := hgap l.lastSent rfl
      rw [hstep, if_pos (by omega)]
      exact ⟨rfl, by rw [AList.lookup_insert]; rfl⟩
    · obtain rfl := Option.some.inj ht
      rw [hstep, if_neg (by omega)]
      exact ⟨rfl, by rw [AList.lookup_insert]; rfl⟩

/-- One call: no message of the pair, or one that its throttle judges. -/
theorem outcome_throttle {d : Int} {last : Option Int} {call : Call} (hd : 0 ≤ d)
    (hrule : ∀ rule, ct.ruleFor t p = some rule → ∃ ms : UInt64,
      rule.transformation = .throttle ms ∧ d = ms.toNat * 1000000)
    (h : Tracks t p d ct last) (hlast : ∀ sent ∈ last, ∀ now ∈ call.instant, sent ≤ now) :
    (ct.outcome t p call = [] ∧ Tracks t p d (ct.apply call) last) ∨
    ∃ now, call.instant = some now ∧
      ct.outcome t p call = [verdict (now, (Throttle.step d last now).1)] ∧
      Tracks t p d (ct.apply call) (Throttle.step d last now).2 := by
  cases hc : call.concerns t p with
  | false =>
    refine .inl ⟨outcome_of_not_concerns hc, ?_⟩
    rw [Tracks, (apply_alike hc).limiter]
    exact h
  | true =>
    cases call with
    | addRule rule => exact .inl ⟨rfl, h⟩
    | translateMessage now t' p' priority =>
      obtain ⟨rfl, rfl, hpriority⟩ := of_decide_eq_true hc
      rw [apply, outcome, translateMessage_eq, transformationFor, if_neg hpriority]
      cases hfound : ct.ruleFor t' p' with
      | none => exact .inl ⟨if_neg fun hin => Bool.false_ne_true hin.2, h⟩
      | some rule =>
        obtain ⟨ms, hms, rfl⟩ := hrule rule hfound
        obtain ⟨haction, htracks⟩ := limit_tracks hd h fun sent hs => hlast sent hs now rfl
        rw [if_pos ⟨⟨rfl, rfl, hpriority⟩, rfl⟩, Option.elim_some, hms, transform]
        exact .inr ⟨now, rfl, congrArg (fun x => [x]) haction, htracks⟩

/-- **The messages of a pair with a `Throttle` rule go through a throttle of their own.** -/
theorem outcomes_eq_run {ms : UInt64} (hms : rule.transformation = .throttle ms)
    (calls : List Call) : ∀ (ct : CadenceTranslator) (last : Option Int),
    (calls.foldl apply ct).ruleFor t p = some rule → Tracks t p (ms.toNat * 1000000) ct last →
    (∀ sent ∈ last, ∀ call ∈ calls, ∀ now ∈ call.instant, sent ≤ now) →
    (calls.Pairwise fun c c' => ∀ i, c.instant = some i → ∀ j, c'.instant = some j → i ≤ j) →
    outcomes t p ct calls = (Throttle.run (ms.toNat * 1000000) last
      ((outcomes t p ct calls).map Prod.fst)).map verdict := by
  induction calls with
  | nil => exact fun _ _ _ _ _ _ => rfl
  | cons call calls ih =>
    intro ct last hrule h hlast hclock
    obtain ⟨hlater, hclock⟩ := List.pairwise_cons.mp hclock
    obtain ⟨hnow, hlast⟩ : (∀ sent ∈ last, ∀ now ∈ call.instant, sent ≤ now) ∧
        ∀ sent ∈ last, ∀ c ∈ calls, ∀ now ∈ c.instant, sent ≤ now :=
      ⟨fun sent hs => hlast sent hs call List.mem_cons_self,
        fun sent hs c hc => hlast sent hs c (List.mem_cons_of_mem _ hc)⟩
    -- a rule that is in place now is the one in place at the end
    have hplace : ∀ r, ct.ruleFor t p = some r → ∃ ms' : UInt64,
        r.transformation = .throttle ms' ∧ (ms.toNat * 1000000 : Int) = ms'.toNat * 1000000 := by
      intro r hr
      obtain rfl := Option.some.inj (hrule.symm.trans (ruleFor_foldl (call :: calls) ct hr))
      exact ⟨ms, hms, rfl⟩
    rw [outcomes]
    rcases outcome_throttle (by omega) hplace h hnow with ⟨hout, htracks⟩ | ⟨now, hi, hout, htracks⟩
    · rw [hout, List.nil_append]
      exact ih _ last hrule htracks hlast hclock
    · rw [hout, List.singleton_append, List.map_cons, verdict, Throttle.run, List.map_cons, verdict]
      refine congrArg _ (ih _ _ hrule htracks ?_ hclock)
      rcases Throttle.step_cases (ms.toNat * 1000000) last now with ⟨hstep, -⟩ | ⟨hstep, -⟩
      · rw [hstep]
        intro sent hs c hc
        obtain rfl := Option.some.inj hs
        exact hlater c hc _ hi
      · rw [hstep]
        exact hlast

/-- What a throttle of interval `d` lets through. -/
structure Throttled (d : Int) (out : List (Int × TranslationAction)) : Prop where
  first : ∀ x ∈ out.head?, x.2 = .send
  spaced : (out.filter (·.2 = .send)).Pairwise fun x y => d ≤ y.1 - x.1
  dropped : ∀ before now after, out = before ++ (now, .drop) :: after →
    ∃ front sent back, before = front ++ (sent, .send) :: back ∧ (∀ x ∈ back, x.2 ≠ .send) ∧
      now - sent < d

theorem verdict_eq_send {x : Int × Bool} : (verdict x).2 = .send ↔ x.2 = true := by
  rcases x with ⟨i, _ | _⟩ <;> simp [verdict]

theorem throttled_run {d : Int} (hd : 0 ≤ d) (ts : List Int) :
    Throttled d ((Throttle.run d none ts).map verdict) where
  first := by
    cases ts with
    | nil => exact fun _ hx => by cases hx
    | cons now rest =>
      intro x hx
      rw [Throttle.run_cons_none] at hx
      obtain rfl := Option.some.inj hx
      rfl
  spaced := by
    have hpair := (Throttle.run_spaced hd ts none).2
    have hsend : ((fun x : Int × TranslationAction => decide (x.2 = .send)) ∘ verdict) = (·.2) := by
      funext x
      simp [Function.comp, verdict_eq_send]
    rw [List.filter_map, hsend, List.pairwise_map]
    exact hpair
  dropped := by
    intro before now after h
    obtain ⟨before', tail, hrun, rfl, htail⟩ := List.map_eq_append_iff.mp h
    obtain ⟨x, after', rfl, hx, -⟩ := List.map_eq_cons_iff.mp htail
    obtain rfl : x = (now, false) := by
      rcases x with ⟨i, _ | _⟩ <;> cases hx
      rfl
    rcases Throttle.run_held ts none before' now after' hrun with
      ⟨front, sent, back, rfl, hback, hclose⟩ | ⟨t, ht, -⟩
    · refine ⟨front.map verdict, sent, back.map verdict, by rw [List.map_append]; rfl, ?_, hclose⟩
      intro x hx hsend
      obtain ⟨y, hy, rfl⟩ := List.mem_map.mp hx
      exact Bool.false_ne_true ((hback y hy).symm.trans (verdict_eq_send.mp hsend))
    · cases ht

/-- A message that is no emergency is sent or dropped, also before the rule is in place. -/
theorem sent_or_dropped {calls : List Call} {ms : UInt64}
    (hrule : (calls.foldl apply ct).ruleFor t p = some rule)
    (hms : rule.transformation = .throttle ms) (now : Int) (priority : Priority) :
    (ct.translateMessage now t p priority).1 = .send ∨ (ct.translateMessage now t p priority).1 = .drop := by
  rw [translateMessage_eq, transformationFor]
  split
  · exact .inl rfl
  · cases hfound : ct.ruleFor t p with
    | none => exact .inl rfl
    | some r =>
      obtain rfl := Option.some.inj (hrule.symm.trans (ruleFor_foldl calls ct hfound))
      rw [Option.elim_some, hms, transform]
      exact ite_eq_or_eq _ _ _

/-- **Throttled pairs.**  Over every run at non-decreasing instants, a pair whose first matching rule is
    `Throttle` gets Send or Drop for what is no emergency; with the rule in place the first message is
    sent, two Sends are the interval apart, and a message is dropped only less than the interval after
    the last Send.  Runs that differ in other pairs' calls and in emergencies have the same outcomes. -/
theorem throttled_pair (calls : List Call) (t : String) (p : Protocol) (rule : CadenceRule) (ms : UInt64)
    (hclock : (calls.filterMap Call.instant).Pairwise (· ≤ ·))
    (hrule : (run calls).ruleFor t p = some rule) (hms : rule.transformation = .throttle ms) :
    (∀ before now priority after, calls = before ++ .translateMessage now t p priority :: after →
      priority ≠ .emergency →
      ((run before).translateMessage now t p priority).1 = .send ∨
        ((run before).translateMessage now t p priority).1 = .drop) ∧
    Throttled (ms.toNat * 1000000) (outcomes t p new calls) ∧
    ∀ calls', calls'.filter (Call.concerns t p) = calls.filter (Call.concerns t p) →
      outcomes t p new calls' = outcomes t p new calls := by
  refine ⟨?_, ?_, fun calls' h => outcomes_congr h⟩
  · rintro before now priority after rfl -
    rw [run, List.foldl_append] at hrule
    exact sent_or_dropped hrule hms now priority
  · have hpast : ∀ sent ∈ (none : Option Int), ∀ call ∈ calls, ∀ now ∈ call.instant, sent ≤ now :=
      fun sent hs => by cases hs
    rw [outcomes_eq_run hms calls new none hrule rfl hpast (List.pairwise_filterMap.mp hclock)]
    exact throttled_run (by omega) _

/-- Locations of Iridium every five seconds or so, between an emergency and another type's message. -/
def locations : List Call :=
  [.addRule ⟨.iridiumSBD, "heartbeat", .throttle 1000⟩,
   .translateMessage 0 "location" .iridiumSBD .operational,
   .addRule ⟨.iridiumSBD, "location", .throttle 10000⟩,
   .translateMessage 5000000000 "location" .iridiumSBD .operational,
   .translateMessage 6000000000 "location" .iridiumSBD .emergency,
   .translateMessage 6000000000 "heartbeat" .iridiumSBD .operational,
   .translateMessage 10000000000 "location" .iridiumSBD .operational,
   .translateMessage 15000000000 "location" .iridiumSBD .operational]

example : outcomes "location" .iridiumSBD new locations =
    [(5000000000, .send), (10000000000, .drop), (15000000000, .send)] := by decide +kernel

theorem throttled_pair_locations :
    Throttled 10000000000 (outcomes "location" .iridiumSBD new locations) :=
  (throttled_pair locations "location" .iridiumSBD ⟨.iridiumSBD, "location", .throttle 10000⟩ 10000
    (by decide +kernel) (by decide +kernel) rfl).2.1

end CadenceTranslator

end FloatProtocols
