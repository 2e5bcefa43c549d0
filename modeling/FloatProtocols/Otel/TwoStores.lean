/-
  The two bi-temporal stores side by side: the ring of messages of `bitemporal.rs`, with u64 times, and
  the reconciler's map of records of `otel_reconciler.rs`, with i64 times read from attributes.

  An `Event` is a message and a span of the same two times.  Every query of either store is a filter of
  what was put in, so two queries give corresponding answers as soon as their conditions agree on the
  events (`corresponds_filter`).  They do for the two range queries.  They do not for
  `actual_state_at`: the ring takes it as "up to this time", the reconciler as "at this time", and the
  answers correspond only where nothing happened before (`answers_correspond_iff`).
-/
import FloatProtocols.Otel.Beliefs
import FloatProtocols.Storage.BiTemporal

namespace FloatProtocols

namespace TwoStores

open BitemporalReconciler (record extractTEvent extractTSystem)

/-- One time, as a u64 and as a non-negative i64. -/
def SameTime (t : UInt64) (t' : Int64) : Prop := t'.toInt = t.toNat

theorem SameTime.le_iff {s t : UInt64} {s' t' : Int64} (hs : SameTime s s') (ht : SameTime t t') :
    s' ≤ t' ↔ s ≤ t := by
  rw [Int64.le_iff_toInt_le, UInt64.le_iff_toNat_le, hs, ht]
  exact Int.ofNat_le

theorem SameTime.eq_iff {s t : UInt64} {s' t' : Int64} (hs : SameTime s s') (ht : SameTime t t') :
    s' = t' ↔ s = t := by
  rw [← Int64.toInt_inj, ← UInt64.toNat_inj, hs, ht]
  exact Int.ofNat_inj

/-- What happened, as the gateway stores it and as the collector ingests it. -/
structure Event where
  message : Message
  span : OtlpSpan
  tEvent : SameTime message.tEvent (extractTEvent span)
  tSystem : SameTime message.tSystem (extractTSystem span)

/-- The two answers are about the same events. -/
def Corresponds (events : List Event) (messages : List Message) (spans : List OtlpSpan) : Prop :=
  ∃ selected : List Event, selected.Subperm events ∧ messages.Perm (selected.map Event.message) ∧
    spans.Perm (selected.map Event.span)

variable {events : List Event} {p : Message → Bool} {q : BitemporalRecord → Bool}

/-- A filter of the stored messages is a filter of the events. -/
theorem filter_messages (events : List Event) (p : Message → Bool) :
    (events.map Event.message).filter p = (events.filter fun e => p e.message).map Event.message := by
  rw [List.filter_map]
  rfl

/-- And so is a filter of the ingested records. -/
theorem filter_spans (events : List Event) (q : BitemporalRecord → Bool) :
    (((BitemporalReconciler.new.ingestAll (events.map Event.span)).all.filter q).map (·.span)).Perm
      ((events.filter fun e => q (record e.span)).map Event.span) := by
  refine (((BitemporalReconciler.all_ingestAll_new _).filter q).map _).trans ?_
  rw [List.map_map, List.filter_map, List.map_map]
  rfl

/-- Conditions that agree on the events select corresponding answers. -/
theorem corresponds_filter (h : ∀ e ∈ events, p e.message = q (record e.span)) :
    Corresponds events ((events.map Event.message).filter p)
      (((BitemporalReconciler.new.ingestAll (events.map Event.span)).all.filter q).map (·.span)) := by
  refine ⟨events.filter fun e => p e.message, List.filter_sublist.subperm, ?_, ?_⟩
  · rw [filter_messages]
  · rw [List.filter_congr h]
    exact filter_spans events q

/-- Where one condition is the stronger, the answers correspond only if they agree: otherwise one is
    longer. -/
theorem corresponds_filter_iff (himp : ∀ e ∈ events, q (record e.span) = true → p e.message = true) :
    Corresponds events ((events.map Event.message).filter p)
      (((BitemporalReconciler.new.ingestAll (events.map Event.span)).all.filter q).map (·.span)) ↔
    ∀ e ∈ events, p e.message = true → q (record e.span) = true := by
  constructor
  · rintro ⟨selected, -, hmessages, hspans⟩
    have hlen : (events.filter fun e => q (record e.span)).length =
        (events.filter fun e => p e.message).length := by
      have hm := hmessages.length_eq
      have hs := ((filter_spans events q).symm.trans hspans).length_eq
      rw [filter_messages, List.length_map, List.length_map] at hm
      rw [List.length_map, List.length_map] at hs
      rw [hm, hs]
    -- the shorter answer is a filter of the longer one
    have hsub : (events.filter fun e => q (record e.span)) =
        (events.filter fun e => p e.message).filter fun e => q (record e.span) := by
      rw [List.filter_filter]
      refine List.filter_congr fun e he => ?_
      rw [Bool.eq_iff_iff, Bool.and_eq_true]
      exact ⟨fun hq => ⟨hq, himp e he hq⟩, And.left⟩
    rw [hsub, List.length_filter_eq_length_iff] at hlen
    intro e he hp
    exact hlen e (List.mem_filter.mpr ⟨he, hp⟩)
  · intro h
    refine corresponds_filter fun e he => ?_
    rw [Bool.eq_iff_iff]
    exact ⟨h e he, himp e he⟩

/-! ## The queries -/

/-- Below capacity the ring holds everything. -/
theorem messages_of_le {maxMessages : Nat} {ws : List BiTemporalStore.Write}
    (hws : ws.flatMap BiTemporalStore.Write.messages = events.map Event.message)
    (hcap : events.length ≤ maxMessages) :
    (ws.foldl BiTemporalStore.write (.new maxMessages)).messages = events.map Event.message := by
  rw [BiTemporalStore.messages_foldl_write, hws]
  exact BiTemporalStore.rtake_of_length_le (by rw [List.length_map]; omega)

/-- **Where the two stores agree.**  Any events, in any split into `store` and `store_batch`, below the
    ring's capacity: the two range queries give corresponding answers for all bounds, and
    `actual_state_at(t)` does exactly when no event is older than `t`. -/
theorem answers_correspond_iff (events : List Event) (maxMessages : Nat)
    (ws : List BiTemporalStore.Write)
    (hws : ws.flatMap BiTemporalStore.Write.messages = events.map Event.message)
    (hcap : events.length ≤ maxMessages) :
    let st := ws.foldl BiTemporalStore.write (.new maxMessages)
    let r := BitemporalReconciler.new.ingestAll (events.map Event.span)
    (∀ a b a' b', SameTime a a' → SameTime b b' →
      Corresponds events (st.queryValidTime a b) (r.queryValidTime a' b') ∧
      Corresponds events (st.queryTransactionTime a b) (r.queryTransactionTime a' b')) ∧
    ∀ t t', SameTime t t' →
      (Corresponds events (st.actualStateAt t) (r.actualStateAt t') ↔
        ∀ e ∈ events, ¬ e.message.tEvent < t) := by
  intro st r
  have hst : st.messages = events.map Event.message := messages_of_le hws hcap
  refine ⟨fun a b a' b' ha hb => ⟨?_, ?_⟩, fun t t' ht => ?_⟩
  · rw [BiTemporalStore.queryValidTime, BiTemporalStore.query, hst]
    refine corresponds_filter fun e _ => ?_
    rw [Bool.eq_iff_iff, BiTemporalQuery.matches_new, decide_eq_true_iff]
    exact and_congr (ha.le_iff e.tEvent).symm (e.tEvent.le_iff hb).symm
  · rw [BiTemporalStore.queryTransactionTime, BiTemporalStore.query, hst]
    refine corresponds_filter fun e _ => ?_
    rw [Bool.eq_iff_iff, BiTemporalQuery.matches_new, decide_eq_true_iff]
    exact and_congr (ha.le_iff e.tSystem).symm (e.tSystem.le_iff hb).symm
  · rw [BiTemporalStore.actualStateAt, hst, BitemporalReconciler.actualStateAt, corresponds_filter_iff]
    · refine forall₂_congr fun e _ => ?_
      rw [decide_eq_true_iff, decide_eq_true_iff]
      show (e.message.tEvent ≤ t → extractTEvent e.span = t') ↔ _
      rw [e.tEvent.eq_iff ht]
      -- up to `t` and at `t` are the same unless something is before `t`
      rw [UInt64.le_iff_toNat_le, UInt64.lt_iff_toNat_lt, ← UInt64.toNat_inj]
      omega
    · intro e _ heq
      rw [decide_eq_true_iff] at heq ⊢
      rw [(e.tEvent.eq_iff ht).mp heq]
      exact UInt64.le_refl t

/-! ## An event before the asked time -/

/-- A reading as a message and as a span. -/
def readingEvent : Event where
  message := .newWithTemporal .nidd [1] .operational 50 100
  span := BitemporalReconciler.reading 50 100
  tEvent := by
    show (extractTEvent (BitemporalReconciler.reading 50 100)).toInt = 50
    rw [show extractTEvent (BitemporalReconciler.reading 50 100) = 50 from
      (BitemporalReconciler.record_reading 50 100).1]
    decide
  tSystem := by
    show (extractTSystem (BitemporalReconciler.reading 50 100)).toInt = 100
    rw [show extractTSystem (BitemporalReconciler.reading 50 100) = 100 from
      (BitemporalReconciler.record_reading 50 100).2]
    decide

theorem answers_correspond_iff_reading :
    ∃ st : BiTemporalStore, st.messages = [readingEvent.message] ∧
      Corresponds [readingEvent] (st.actualStateAt 50)
        ((BitemporalReconciler.new.ingestAll [readingEvent.span]).actualStateAt 50) := by
  refine ⟨(BiTemporalStore.new 8).store readingEvent.message, rfl, ?_⟩
  refine ((answers_correspond_iff [readingEvent] 8 [.store readingEvent.message] rfl (by decide)).2 50 50
    rfl).mpr fun e he => ?_
  rw [List.mem_singleton.mp he]
  decide

/-- Asked for the state at 75, the ring shows the event of 50 and the reconciler nothing. -/
theorem actualStateAt_differs :
    ((BiTemporalStore.new 8).store readingEvent.message).actualStateAt 75 = [readingEvent.message] ∧
    (BitemporalReconciler.new.ingest readingEvent.span).actualStateAt 75 = [] ∧
    ¬ Corresponds [readingEvent] (((BiTemporalStore.new 8).store readingEvent.message).actualStateAt 75)
      ((BitemporalReconciler.new.ingest readingEvent.span).actualStateAt 75) := by
  have hring : ((BiTemporalStore.new 8).store readingEvent.message).actualStateAt 75 =
      [readingEvent.message] := by decide
  have hnone : (BitemporalReconciler.new.ingest readingEvent.span).actualStateAt 75 = [] := by
    have hperm := (filter_spans [readingEvent] fun x => x.tEvent = 75)
    have hevent : (record readingEvent.span).tEvent = 50 := (BitemporalReconciler.record_reading 50 100).1
    rw [List.filter_cons_of_neg (by rw [hevent]; decide), List.filter_nil] at hperm
    exact hperm.eq_nil
  refine ⟨hring, hnone, ?_⟩
  rintro ⟨selected, -, hmessages, hspans⟩
  rw [hring] at hmessages
  rw [hnone] at hspans
  have hm := hmessages.length_eq
  have hs := hspans.length_eq
  rw [List.length_map] at hm hs
  exact absurd (hs.trans hm.symm) (by decide)

end TwoStores

end FloatProtocols
