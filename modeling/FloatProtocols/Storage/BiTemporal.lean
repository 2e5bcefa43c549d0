/-
  `bitemporal.rs`: the audit store, a ring of the last messages, and its queries.

  `storeBatch` is `store` message by message under one lock.  One `store` on the last messages of a
  history gives the last messages of the longer history (`Holds.store`); so, however a history is
  cut into calls, the store holds its last `max 1 maxMessages` messages (a store of capacity 0 holds
  one: it evicts before it pushes), and each query is a filter of them.
-/
import Mathlib.Data.List.DropRight
import FloatProtocols.Protocol

namespace FloatProtocols

/-- `QueryTime`. -/
inductive QueryTime where
  | validTime
  | transactionTime
  deriving DecidableEq

/-- `BiTemporalQuery`. -/
structure BiTemporalQuery where
  queryTime : QueryTime
  startMs : UInt64
  endMs : UInt64
  protocolFilter : Option Protocol
  maxSpreadMs : Option Int64

namespace BiTemporalQuery

/-- `BiTemporalQuery::new`. -/
def new (queryTime : QueryTime) (startMs endMs : UInt64) : BiTemporalQuery :=
  { queryTime, startMs, endMs, protocolFilter := none, maxSpreadMs := none }

/-- `with_protocol`. -/
def withProtocol (q : BiTemporalQuery) (protocol : Protocol) : BiTemporalQuery :=
  { q with protocolFilter := some protocol }

/-- `with_max_spread`. -/
def withMaxSpread (q : BiTemporalQuery) (maxSpreadMs : Int64) : BiTemporalQuery :=
  { q with maxSpreadMs := some maxSpreadMs }

/-- The clock a query reads. -/
def timestamp (q : BiTemporalQuery) (message : Message) : UInt64 :=
  match q.queryTime with
  | .validTime => message.tEvent
  | .transactionTime => message.tSystem

/-- The protocol filter lets the message through. -/
def passesProtocol (q : BiTemporalQuery) (message : Message) : Bool :=
  match q.protocolFilter with
  | some protocol => message.protocol == protocol
  | none => true

/-- The spread filter lets the message through; `abs` wraps at `i64::MIN`. -/
def passesSpread (q : BiTemporalQuery) (message : Message) : Bool :=
  match q.maxSpreadMs with
  | some maxSpread => !decide (message.spreadMs.abs > maxSpread)
  | none => true

/-- `matches`. -/
def «matches» (q : BiTemporalQuery) (message : Message) : Bool :=
  if q.timestamp message < q.startMs ∨ q.timestamp message > q.endMs then false
  else if ¬ q.passesProtocol message then false
  else if ¬ q.passesSpread message then false
  else true

/-- What a query asks for. -/
structure Selects (q : BiTemporalQuery) (message : Message) : Prop where
  after : q.startMs ≤ q.timestamp message
  before : q.timestamp message ≤ q.endMs
  protocol : ∀ p, q.protocolFilter = some p → message.protocol = p
  spread : ∀ d, q.maxSpreadMs = some d → message.spreadMs.abs ≤ d

theorem passesProtocol_iff {q : BiTemporalQuery} {m : Message} :
    q.passesProtocol m = true ↔ ∀ p, q.protocolFilter = some p → m.protocol = p := by
  rw [passesProtocol]
  split <;> simp [*]

theorem passesSpread_iff {q : BiTemporalQuery} {m : Message} :
    q.passesSpread m = true ↔ ∀ d, q.maxSpreadMs = some d → m.spreadMs.abs ≤ d := by
  rw [passesSpread]
  split <;> simp [*]

theorem matches_iff {q : BiTemporalQuery} {m : Message} : q.matches m = true ↔ q.Selects m := by
  have hrange : ¬ (q.timestamp m < q.startMs ∨ q.timestamp m > q.endMs) ↔
      q.startMs ≤ q.timestamp m ∧ q.timestamp m ≤ q.endMs := by
    rw [not_or, UInt64.not_lt, gt_iff_lt, UInt64.not_lt]
  constructor
  · intro h
    rw [«matches»] at h
    split_ifs at h with hout hprotocol hspread
    obtain ⟨hafter, hbefore⟩ := hrange.mp hout
    exact ⟨hafter, hbefore, passesProtocol_iff.mp hprotocol, passesSpread_iff.mp hspread⟩
  · rintro ⟨hafter, hbefore, hprotocol, hspread⟩
    rw [«matches», if_neg (hrange.mpr ⟨hafter, hbefore⟩),
      if_neg (not_not.mpr (passesProtocol_iff.mpr hprotocol)),
      if_neg (not_not.mpr (passesSpread_iff.mpr hspread))]

/-- A query without filters is its time range. -/
theorem matches_new {queryTime : QueryTime} {startMs endMs : UInt64} {m : Message} :
    (new queryTime startMs endMs).matches m = true ↔
      startMs ≤ (new queryTime startMs endMs).timestamp m ∧
      (new queryTime startMs endMs).timestamp m ≤ endMs := by
  rw [matches_iff]
  exact ⟨fun h => ⟨h.after, h.before⟩, fun h => ⟨h.1, h.2, fun _ hp => (nomatch hp), fun _ hd => nomatch hd⟩⟩

end BiTemporalQuery

/-- `BiTemporalStore`. -/
structure BiTemporalStore where
  messages : List Message
  maxMessages : Nat

namespace BiTemporalStore

/-- `BiTemporalStore::new`. -/
def new (maxMessages : Nat) : BiTemporalStore := { messages := [], maxMessages }

/-- `store`; at capacity the oldest message goes first. -/
def store (st : BiTemporalStore) (message : Message) : BiTemporalStore :=
  let kept := if st.messages.length ≥ st.maxMessages then st.messages.tail else st.messages
  { st with messages := kept ++ [message] }

/-- `store_batch`. -/
def storeBatch (st : BiTemporalStore) (batch : List Message) : BiTemporalStore :=
  batch.foldl store st

/-- `query`. -/
def query (st : BiTemporalStore) (q : BiTemporalQuery) : List Message := st.messages.filter q.matches

/-- `query_valid_time`. -/
def queryValidTime (st : BiTemporalStore) (startMs endMs : UInt64) : List Message :=
  st.query (.new .validTime startMs endMs)

/-- `query_transaction_time`. -/
def queryTransactionTime (st : BiTemporalStore) (startMs endMs : UInt64) : List Message :=
  st.query (.new .transactionTime startMs endMs)

/-- `system_belief_at`. -/
def systemBeliefAt (st : BiTemporalStore) (timestampMs : UInt64) : List Message :=
  st.messages.filter fun m => m.tSystem ≤ timestampMs

/-- `actual_state_at`. -/
def actualStateAt (st : BiTemporalStore) (timestampMs : UInt64) : List Message :=
  st.messages.filter fun m => m.tEvent ≤ timestampMs

/-! ## Runs -/

/-- A call that changes the store. -/
inductive Write where
  | store (message : Message)
  | storeBatch (batch : List Message)

/-- What a call does. -/
def write (st : BiTemporalStore) : Write → BiTemporalStore
  | .store message => st.store message
  | .storeBatch batch => st.storeBatch batch

/-- The messages of a call. -/
def Write.messages : Write → List Message
  | .store message => [message]
  | .storeBatch batch => batch

theorem write_eq_foldl (st : BiTemporalStore) (w : Write) : st.write w = w.messages.foldl store st := by
  cases w <;> rfl

/-- How the messages are split into calls makes no difference. -/
theorem foldl_write_eq (ws : List Write) :
    ∀ st : BiTemporalStore, ws.foldl write st = (ws.flatMap Write.messages).foldl store st := by
  induction ws with
  | nil => exact fun _ => rfl
  | cons w ws ih =>
    intro st
    rw [List.foldl_cons, List.flatMap_cons, List.foldl_append, ih, write_eq_foldl]

/-- The store holds the last messages of a history. -/
def Holds (st : BiTemporalStore) (history : List Message) : Prop :=
  st.messages = history.rtake (max 1 st.maxMessages)

/-- The oldest of the last `k + 1` goes, and the last `k` stay. -/
theorem tail_rtake_succ {α : Type} {l : List α} {k : Nat} (h : k + 1 ≤ l.length) :
    (l.rtake (k + 1)).tail = l.rtake k := by
  rw [List.rtake, List.rtake, List.tail_drop]
  congr 1
  omega

theorem rtake_of_length_le {α : Type} {l : List α} {k : Nat} (h : l.length ≤ k) : l.rtake k = l := by
  rw [List.rtake, Nat.sub_eq_zero_of_le h, List.drop_zero]

theorem Holds.store {st : BiTemporalStore} {history : List Message} (h : st.Holds history)
    (message : Message) : (st.store message).Holds (history ++ [message]) := by
  obtain ⟨k, hk⟩ : ∃ k, max 1 st.maxMessages = k + 1 := ⟨max 1 st.maxMessages - 1, by omega⟩
  have hlen : (history.rtake (k + 1)).length = min history.length (k + 1) := by
    rw [List.rtake, List.length_drop]
    omega
  rw [Holds, hk] at h
  rw [Holds]
  show (if st.messages.length ≥ st.maxMessages then st.messages.tail else st.messages) ++ [message] =
    (history ++ [message]).rtake (max 1 st.maxMessages)
  rw [hk, List.rtake_concat_succ, h, hlen]
  congr 1
  rcases Nat.lt_or_ge history.length (k + 1) with hroom | hfull
  · rw [rtake_of_length_le (Nat.le_of_lt hroom), rtake_of_length_le (Nat.le_of_lt_succ hroom)]
    split
    · -- below the capacity nothing is evicted, but for an empty store of capacity 0
      have hnil : history = [] := List.eq_nil_of_length_eq_zero (by omega)
      rw [hnil, List.tail_nil]
    · rfl
  · rw [if_pos (by omega), tail_rtake_succ hfull]

theorem holds_foldl_store (batch : List Message) :
    ∀ {st : BiTemporalStore} {history : List Message}, st.Holds history →
      (batch.foldl store st).Holds (history ++ batch) ∧
      (batch.foldl store st).maxMessages = st.maxMessages := by
  induction batch with
  | nil =>
    intro st history h
    rw [List.append_nil]
    exact ⟨h, rfl⟩
  | cons message batch ih =>
    intro st history h
    have hrest := ih (h.store message)
    rwa [List.append_assoc] at hrest

/-- The last messages, after any calls. -/
theorem messages_foldl_write (maxMessages : Nat) (ws : List Write) :
    (ws.foldl write (new maxMessages)).messages =
      (ws.flatMap Write.messages).rtake (max 1 maxMessages) := by
  have hempty : (new maxMessages).Holds [] := (List.rtake_nil _).symm
  obtain ⟨hholds, hmax⟩ := holds_foldl_store (ws.flatMap Write.messages) hempty
  rw [← foldl_write_eq] at hholds hmax
  rw [Holds, hmax] at hholds
  exact hholds

/-- **A bounded history.**  After any calls of `store` and `store_batch`, in any split, the store holds
    the last `min n (max 1 maxMessages)` of the `n` messages stored, in order, and every query is a
    filter of that suffix. -/
theorem holds_suffix (maxMessages : Nat) (ws : List Write) :
    let stored := ws.flatMap Write.messages
    let held := stored.rtake (max 1 maxMessages)
    let st := ws.foldl write (new maxMessages)
    st.messages = held ∧ held.length = min stored.length (max 1 maxMessages) ∧
    (∀ q, st.query q = held.filter q.matches ∧ ∀ m, q.matches m = true ↔ q.Selects m) ∧
    (∀ t, st.systemBeliefAt t = held.filter fun m => m.tSystem ≤ t) ∧
    (∀ t, st.actualStateAt t = held.filter fun m => m.tEvent ≤ t) := by
  intro stored held st
  have hst : st.messages = held := messages_foldl_write maxMessages ws
  have hlen : held.length = min stored.length (max 1 maxMessages) := by
    show (stored.drop (stored.length - max 1 maxMessages)).length = _
    rw [List.length_drop]
    omega
  refine ⟨hst, hlen, fun q => ⟨?_, fun m => BiTemporalQuery.matches_iff⟩, fun t => ?_, fun t => ?_⟩
  · rw [query, hst]
  · rw [systemBeliefAt, hst]
  · rw [actualStateAt, hst]

end BiTemporalStore

end FloatProtocols
