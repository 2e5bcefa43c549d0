/-
  `cache.rs`: the translation cache, and where its entries come from.

  A hash map keyed by protocol and djb2 hash of the payload, with a queue of keys in insertion order
  for eviction.  Each public function holds the locks for its whole body, so it is one step; the
  clock is read once per ITEM, hence the readings `now : Nat → Nat` of the two batch functions.

  Two things are proved here for the modules above.  Provenance: a property that every stored message
  had when it was stored, every message found later has (`Holds.set`, `Holds.setBatch`, `Holds.get`).
  And what each function does to a lookup: eviction only takes away, an invalidation is a filter
  (`lookup_evict`, `lookup_put`, `lookup_retain`).
-/
import Mathlib.Data.List.AList
import FloatProtocols.Protocol

namespace FloatProtocols

open Wire

/-- `CacheKey`. -/
structure CacheKey where
  protocol : Protocol
  dataHash : UInt64
  deriving DecidableEq, Repr

/-- `CacheEntry`; times in nanoseconds. -/
structure CacheEntry where
  message : Message
  tEvent : UInt64
  timestamp : Nat
  ttl : Nat
  deriving DecidableEq, Repr

/-- `AsyncCache`. -/
structure AsyncCache where
  entries : AList fun _ : CacheKey => CacheEntry
  evictionOrder : List CacheKey
  maxEntries : Nat
  defaultTtl : Nat

namespace AsyncCache

/-- `AsyncCache::new`. -/
def new (maxEntries defaultTtl : Nat) : AsyncCache where
  entries := ∅
  evictionOrder := []
  maxEntries := maxEntries
  defaultTtl := defaultTtl

/-- `hash_data`, djb2. -/
def hashData (data : Bytes) : UInt64 := data.foldl (fun h b => h * 33 + b.toUInt64) 5381

/-- The key of a payload. -/
def key (protocol : Protocol) (data : Bytes) : CacheKey := ⟨protocol, hashData data⟩

/-- `get`; `elapsed` saturates at zero, as truncated subtraction does. -/
def get (c : AsyncCache) (now : Nat) (protocol : Protocol) (data : Bytes) : Option Message :=
  (c.entries.lookup (key protocol data)).bind fun e =>
    if now - e.timestamp < e.ttl then some e.message else none

/-- `get_batch`. -/
def getBatch (c : AsyncCache) (now : Nat → Nat) (queries : List (Protocol × Bytes)) :
    List (Option Message) :=
  queries.mapIdx fun i q => c.get (now i) q.1 q.2

/-- Make room: at capacity the oldest key goes, with its entry. -/
def evict (c : AsyncCache) : AsyncCache :=
  if c.entries.keys.length ≥ c.maxEntries then
    match c.evictionOrder with
    | oldest :: rest => { c with entries := c.entries.erase oldest, evictionOrder := rest }
    | [] => c
  else c

/-- `set`; only a key that was absent joins the queue. -/
def set (c : AsyncCache) (now : Nat) (protocol : Protocol) (data : Bytes) (message : Message) :
    AsyncCache :=
  let c := c.evict
  { c with
    entries := c.entries.insert (key protocol data)
      { message, tEvent := message.tEvent, timestamp := now, ttl := c.defaultTtl }
    evictionOrder :=
      if key protocol data ∈ c.entries then c.evictionOrder
      else c.evictionOrder ++ [key protocol data] }

/-- `set_batch`, item `i` at reading `now i`. -/
def setBatch (c : AsyncCache) (now : Nat → Nat) (batch : List (Protocol × Bytes × Message)) :
    AsyncCache :=
  batch.zipIdx.foldl (fun c x => c.set (now x.2) x.1.1 x.1.2.1 x.1.2.2) c

/-- `position` and `remove` on the queue, and the entry goes. -/
def drop (c : AsyncCache) (k : CacheKey) : AsyncCache :=
  { c with entries := c.entries.erase k, evictionOrder := c.evictionOrder.erase k }

/-- `retain`: the entries that are not kept are dropped one by one. -/
def retain (c : AsyncCache) (keep : CacheKey → CacheEntry → Bool) : AsyncCache :=
  (c.entries.entries.filter fun x => !keep x.1 x.2).foldl (fun c x => c.drop x.1) c

/-- What a time-range invalidation keeps. -/
def outsideRange (protocol : Protocol) (startMs endMs : UInt64) (k : CacheKey) (e : CacheEntry) :
    Bool :=
  k.protocol ≠ protocol ∨ ¬ (e.tEvent ≥ startMs ∧ e.tEvent ≤ endMs)

/-- `invalidate_protocol_time_range`. -/
def invalidateProtocolTimeRange (c : AsyncCache) (protocol : Protocol) (startMs endMs : UInt64) :
    AsyncCache :=
  c.retain (outsideRange protocol startMs endMs)

/-- `invalidate_protocol`. -/
def invalidateProtocol (c : AsyncCache) (protocol : Protocol) : AsyncCache :=
  c.retain fun k _ => k.protocol ≠ protocol

/-- `clear`. -/
def clear (c : AsyncCache) : AsyncCache := { c with entries := ∅, evictionOrder := [] }

/-- The calls that change the cache. -/
inductive Op where
  | set (now : Nat) (protocol : Protocol) (data : Bytes) (message : Message)
  | setBatch (now : Nat → Nat) (batch : List (Protocol × Bytes × Message))
  | invalidateProtocolTimeRange (protocol : Protocol) (startMs endMs : UInt64)
  | invalidateProtocol (protocol : Protocol)
  | clear

/-- One call. -/
def apply (c : AsyncCache) : Op → AsyncCache
  | .set now protocol data message => c.set now protocol data message
  | .setBatch now batch => c.setBatch now batch
  | .invalidateProtocolTimeRange protocol startMs endMs =>
    c.invalidateProtocolTimeRange protocol startMs endMs
  | .invalidateProtocol protocol => c.invalidateProtocol protocol
  | .clear => c.clear

/-- The cache after a run of calls. -/
def run (maxEntries defaultTtl : Nat) (ops : List Op) : AsyncCache :=
  ops.foldl apply (new maxEntries defaultTtl)

/-! ## What each function does to a lookup -/

/-- The entry of a `set`. -/
def entry (c : AsyncCache) (now : Nat) (message : Message) : CacheEntry :=
  { message, tEvent := message.tEvent, timestamp := now, ttl := c.defaultTtl }

/-- `set` behind the eviction. -/
def put (c : AsyncCache) (now : Nat) (protocol : Protocol) (data : Bytes) (message : Message) :
    AsyncCache :=
  { c with
    entries := c.entries.insert (key protocol data) (c.entry now message)
    evictionOrder :=
      if key protocol data ∈ c.entries then c.evictionOrder
      else c.evictionOrder ++ [key protocol data] }

theorem set_eq_put (c : AsyncCache) (now : Nat) (protocol : Protocol) (data : Bytes)
    (message : Message) : c.set now protocol data message = c.evict.put now protocol data message :=
  rfl

/-- By cases: nothing goes, or the head of the queue. -/
theorem evict_cases (c : AsyncCache) :
    (c.evict = c ∧ (c.entries.keys.length < c.maxEntries ∨ c.evictionOrder = [])) ∨
    ∃ oldest rest, c.evictionOrder = oldest :: rest ∧ c.maxEntries ≤ c.entries.keys.length ∧
      c.evict = { c with entries := c.entries.erase oldest, evictionOrder := rest } := by
  rw [evict]
  split
  · rename_i hfull
    split
    · rename_i oldest rest horder
      exact .inr ⟨oldest, rest, horder, hfull, rfl⟩
    · rename_i horder
      exact .inl ⟨rfl, .inr horder⟩
  · rename_i hroom
    exact .inl ⟨rfl, .inl (Nat.not_le.mp hroom)⟩

theorem evict_defaultTtl (c : AsyncCache) : c.evict.defaultTtl = c.defaultTtl := by
  rcases evict_cases c with ⟨heq, -⟩ | ⟨oldest, rest, -, -, heq⟩ <;> rw [heq]

theorem evict_maxEntries (c : AsyncCache) : c.evict.maxEntries = c.maxEntries := by
  rcases evict_cases c with ⟨heq, -⟩ | ⟨oldest, rest, -, -, heq⟩ <;> rw [heq]

/-- What is found after an eviction was there before it. -/
theorem lookup_evict {c : AsyncCache} {k : CacheKey} {e : CacheEntry}
    (h : c.evict.entries.lookup k = some e) : c.entries.lookup k = some e := by
  rcases evict_cases c with ⟨heq, -⟩ | ⟨oldest, rest, -, -, heq⟩
  · rwa [heq] at h
  · rw [heq] at h
    rcases eq_or_ne k oldest with rfl | hne
    · rw [AList.lookup_erase] at h
      cases h
    · rwa [AList.lookup_erase_ne hne] at h

theorem lookup_put (c : AsyncCache) (now : Nat) (protocol : Protocol) (data : Bytes)
    (message : Message) (k : CacheKey) :
    (c.put now protocol data message).entries.lookup k =
      if k = key protocol data then some (c.entry now message) else c.entries.lookup k := by
  show AList.lookup k (c.entries.insert _ _) = _
  split
  · rename_i heq
    rw [heq, AList.lookup_insert]
  · rename_i hne
    rw [AList.lookup_insert_ne hne]

theorem getElem?_getBatch (c : AsyncCache) (now : Nat → Nat) (queries : List (Protocol × Bytes))
    (i : Nat) :
    (c.getBatch now queries)[i]? = queries[i]?.map fun q => c.get (now i) q.1 q.2 := by
  rw [getBatch, List.getElem?_mapIdx]

/-- Dropping keys one by one: the map loses them, the queue loses them, and nothing else changes. -/
theorem foldl_drop : ∀ (l : List (Sigma fun _ : CacheKey => CacheEntry)) (c : AsyncCache),
    (∀ k, (l.foldl (fun c x => c.drop x.1) c).entries.lookup k =
      if k ∈ l.map Sigma.fst then none else c.entries.lookup k) ∧
    (l.foldl (fun c x => c.drop x.1) c).evictionOrder = c.evictionOrder.diff (l.map Sigma.fst) ∧
    (l.foldl (fun c x => c.drop x.1) c).maxEntries = c.maxEntries ∧
    (l.foldl (fun c x => c.drop x.1) c).defaultTtl = c.defaultTtl := by
  intro l
  induction l with
  | nil =>
    intro c
    exact ⟨fun k => (if_neg (List.not_mem_nil)).symm, rfl, rfl, rfl⟩
  | cons x l ih =>
    intro c
    obtain ⟨hlookup, horder, hmax, httl⟩ := ih (c.drop x.1)
    refine ⟨?_, ?_, hmax, httl⟩
    · intro k
      rw [List.foldl_cons, hlookup, List.map_cons]
      by_cases hl : k ∈ l.map Sigma.fst
      · rw [if_pos hl, if_pos (List.mem_cons_of_mem _ hl)]
      · rw [if_neg hl]
        show AList.lookup k (c.entries.erase x.1) = _
        rcases eq_or_ne k x.1 with heq | hne
        · rw [heq, AList.lookup_erase, if_pos List.mem_cons_self]
        · rw [AList.lookup_erase_ne hne, if_neg (by simp [hne, hl])]
    · rw [List.foldl_cons, horder, List.map_cons, List.diff_cons]
      rfl

/-- **An invalidation is a filter.** -/
theorem lookup_retain (c : AsyncCache) (keep : CacheKey → CacheEntry → Bool) (k : CacheKey) :
    (c.retain keep).entries.lookup k = (c.entries.lookup k).filter (keep k) := by
  rw [retain, (foldl_drop _ c).1 k]
  have hmem : k ∈ (c.entries.entries.filter fun x => !keep x.1 x.2).map Sigma.fst ↔
      ∃ e, c.entries.lookup k = some e ∧ keep k e = false := by
    rw [List.mem_map]
    constructor
    · rintro ⟨⟨k', e⟩, hx, rfl⟩
      obtain ⟨hin, hkeep⟩ := List.mem_filter.mp hx
      exact ⟨e, AList.mem_lookup_iff.mpr hin, by simpa using hkeep⟩
    · rintro ⟨e, he, hkeep⟩
      exact ⟨⟨k, e⟩, List.mem_filter.mpr ⟨AList.mem_lookup_iff.mp he, by simpa using hkeep⟩, rfl⟩
  cases hlook : c.entries.lookup k with
  | none =>
    rw [Option.filter_none]
    split <;> rfl
  | some e =>
    by_cases hkeep : keep k e = true
    · rw [Option.filter_some_pos hkeep, if_neg]
      rw [hmem]
      rintro ⟨e', he', hkeep'⟩
      rw [hlook] at he'
      cases he'
      rw [hkeep] at hkeep'
      cases hkeep'
    · rw [Bool.not_eq_true] at hkeep
      rw [Option.filter_some_neg hkeep, if_pos (hmem.mpr ⟨e, hlook, hkeep⟩)]

/-! ## Provenance -/

/-- Every stored message stands in the relation `R` to its key. -/
def Holds (R : CacheKey → Message → Prop) (c : AsyncCache) : Prop :=
  ∀ k e, c.entries.lookup k = some e → R k e.message

variable {R : CacheKey → Message → Prop} {c : AsyncCache}

theorem holds_new (maxEntries defaultTtl : Nat) : Holds R (new maxEntries defaultTtl) := by
  intro k e h
  simp [new] at h

theorem Holds.evict (h : Holds R c) : Holds R c.evict :=
  fun k e hk => h k e (lookup_evict hk)

/-- A `set` decides what holds of its own key. -/
theorem Holds.overwrite {R' : CacheKey → Message → Prop} (h : Holds R c) {protocol : Protocol}
    {data : Bytes} {message : Message} (hnew : R' (key protocol data) message)
    (hothers : ∀ k t, k ≠ key protocol data → R k t → R' k t) (now : Nat) :
    Holds R' (c.set now protocol data message) := by
  intro k e hk
  rw [set_eq_put, lookup_put] at hk
  split at hk
  · rename_i hkey
    cases hk
    exact hkey ▸ hnew
  · rename_i hkey
    exact hothers k _ hkey (h.evict k e hk)

theorem Holds.set (h : Holds R c) {protocol : Protocol} {data : Bytes} {message : Message}
    (hnew : R (key protocol data) message) (now : Nat) :
    Holds R (c.set now protocol data message) :=
  h.overwrite hnew (fun _ _ _ hold => hold) now

theorem Holds.setBatch {now : Nat → Nat} {batch : List (Protocol × Bytes × Message)}
    (h : Holds R c) (hnew : ∀ x ∈ batch, R (key x.1 x.2.1) x.2.2) :
    Holds R (c.setBatch now batch) := by
  refine List.foldlRecOn batch.zipIdx _ h fun c hc x hx => hc.set ?_ (now x.2)
  exact hnew x.1 (List.fst_mem_of_mem_zipIdx hx)

theorem Holds.get (h : Holds R c) {now : Nat} {protocol : Protocol} {data : Bytes} {t : Message}
    (hget : c.get now protocol data = some t) : R (key protocol data) t := by
  obtain ⟨e, he, hlive⟩ := Option.bind_eq_some_iff.mp hget
  split at hlive
  · cases hlive
    exact h _ e he
  · cases hlive

/-- A hit of `getBatch`, seen from the query it answers. -/
theorem Holds.getBatch (h : Holds R c) {now : Nat → Nat} {msgs : List Message} {m t : Message}
    (hmem : (m, some t) ∈ msgs.zip (c.getBatch now (msgs.map fun m => (m.protocol, m.data)))) :
    R (key m.protocol m.data) t := by
  obtain ⟨i, hi, heq⟩ := List.getElem_of_mem hmem
  rw [List.getElem_zip, Prod.mk.injEq] at heq
  obtain ⟨rfl, hget⟩ := heq
  simp only [AsyncCache.getBatch, List.getElem_mapIdx, List.getElem_map] at hget
  exact h.get hget

end AsyncCache

end FloatProtocols
