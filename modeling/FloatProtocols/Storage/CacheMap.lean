/-
  The cache as a map from EXACT payloads, and the price of comparing hashes.

  1. **Abstract map** — `ExactMap`: what was last set for a protocol and a payload, byte for byte, and
     not invalidated since.  It never evicts and never expires; a lookup that hits must give what it
     gives, within the entry's TTL (`Right`).

  2. **The crux (`Tracks.apply`)** — the cache stores under protocol and 64-bit hash and never looks
     at the payload again.  Over a set of payloads without collisions every entry found is the exact
     map's; eviction and invalidation only take away.

  3. With one collision the map is wrong already after a single `set`, so the condition is exact
     (`exact_map_iff`).  djb2 does collide on two bytes: one more in the first, 33 less in the second.
-/
import Mathlib.Data.Set.Basic
import FloatProtocols.Storage.Cache

namespace FloatProtocols

open Wire

namespace AsyncCache

/-! ## The abstract map -/

/-- The entry of a protocol and a payload. -/
abbrev ExactMap := Protocol → Bytes → Option CacheEntry

namespace ExactMap

/-- Nothing set. -/
def empty : ExactMap := fun _ _ => none

/-- One `set`. -/
def set (m : ExactMap) (ttl now : Nat) (protocol : Protocol) (data : Bytes) (message : Message) :
    ExactMap := fun p d =>
  if p = protocol ∧ d = data then
    some { message, tEvent := message.tEvent, timestamp := now, ttl }
  else m p d

/-- One call. -/
def apply (ttl : Nat) (m : ExactMap) : Op → ExactMap
  | .set now protocol data message => m.set ttl now protocol data message
  | .setBatch now batch =>
    batch.zipIdx.foldl (fun m x => m.set ttl (now x.2) x.1.1 x.1.2.1 x.1.2.2) m
  | .invalidateProtocolTimeRange protocol startMs endMs => fun p d =>
    (m p d).filter fun e => p ≠ protocol ∨ ¬ (e.tEvent ≥ startMs ∧ e.tEvent ≤ endMs)
  | .invalidateProtocol protocol => fun p d => (m p d).filter fun _ => p ≠ protocol
  | .clear => empty

/-- A run of calls. -/
def run (ttl : Nat) (ops : List Op) : ExactMap := ops.foldl (apply ttl) empty

end ExactMap

/-- The payloads a call sets. -/
def Op.payloads : Op → List (Protocol × Bytes)
  | .set _ protocol data _ => [(protocol, data)]
  | .setBatch _ batch => batch.map fun x => (x.1, x.2.1)
  | _ => []

/-- A hit is right: it is the message last set for this protocol and this payload, not invalidated
    since, and within its TTL. -/
def Right (ttl : Nat) (ops : List Op) (now : Nat) (protocol : Protocol) (data : Bytes)
    (message : Message) : Prop :=
  ∃ e, ExactMap.run ttl ops protocol data = some e ∧ e.message = message ∧ now - e.timestamp < e.ttl

/-- No two payloads of one protocol share a hash. -/
def CollisionFree (U : Set (Protocol × Bytes)) : Prop :=
  ∀ p d d', (p, d) ∈ U → (p, d') ∈ U → hashData d = hashData d' → d = d'

/-! ## The cache follows the map -/

/-- Every entry has the cache's TTL, and, without collisions, every entry found for a payload of `U`
    is the exact map's. -/
structure Tracks (U : Set (Protocol × Bytes)) (ttl : Nat) (c : AsyncCache) (m : ExactMap) : Prop where
  ttl_eq : c.defaultTtl = ttl
  ttl_entry : ∀ k e, c.entries.lookup k = some e → e.ttl = ttl
  found : CollisionFree U → ∀ p d, (p, d) ∈ U → ∀ e, c.entries.lookup (key p d) = some e →
    m p d = some e

variable {U : Set (Protocol × Bytes)} {ttl : Nat} {c : AsyncCache} {m : ExactMap}

theorem tracks_new (maxEntries : Nat) : Tracks U ttl (new maxEntries ttl) ExactMap.empty := by
  refine ⟨rfl, ?_, ?_⟩
  · intro k e h
    simp [new] at h
  · intro _ p d _ e h
    simp [new] at h

theorem Tracks.set (h : Tracks U ttl c m) (now : Nat) {protocol : Protocol} {data : Bytes}
    (hU : (protocol, data) ∈ U) (message : Message) :
    Tracks U ttl (c.set now protocol data message) (m.set ttl now protocol data message) := by
  have httl : c.evict.defaultTtl = ttl := (evict_defaultTtl c).trans h.ttl_eq
  rw [set_eq_put]
  refine ⟨httl, ?_, ?_⟩
  · intro k e hk
    rw [lookup_put] at hk
    split at hk
    · cases hk
      exact httl
    · exact h.ttl_entry k e (lookup_evict hk)
  · intro hfree p d hpd e hk
    rw [lookup_put] at hk
    split at hk
    · -- the same key, and so the same payload
      rename_i hkey
      obtain ⟨rfl, hhash⟩ : p = protocol ∧ hashData d = hashData data := by
        rw [key, key, CacheKey.mk.injEq] at hkey
        exact hkey
      obtain rfl := hfree p d data hpd hU hhash
      cases hk
      rw [ExactMap.set, if_pos ⟨rfl, rfl⟩, entry, httl]
    · rename_i hkey
      have hother : ¬ (p = protocol ∧ d = data) := by
        rintro ⟨rfl, rfl⟩
        exact hkey rfl
      rw [ExactMap.set, if_neg hother]
      exact h.found hfree p d hpd e (lookup_evict hk)

/-- An invalidation, on both sides by the same test. -/
theorem Tracks.retain (h : Tracks U ttl c m) (keep : CacheKey → CacheEntry → Bool)
    {keep' : Protocol → CacheEntry → Bool} (hkeep : ∀ p d e, keep (key p d) e = keep' p e) :
    Tracks U ttl (c.retain keep) fun p d => (m p d).filter (keep' p) := by
  refine ⟨(foldl_drop _ c).2.2.2.trans h.ttl_eq, ?_, ?_⟩
  · intro k e hk
    rw [lookup_retain] at hk
    obtain ⟨hk, -⟩ := Option.filter_eq_some_iff.mp hk
    exact h.ttl_entry k e hk
  · intro hfree p d hpd e hk
    rw [lookup_retain] at hk
    obtain ⟨hk, hkept⟩ := Option.filter_eq_some_iff.mp hk
    rw [hkeep] at hkept
    exact Option.filter_eq_some_iff.mpr ⟨h.found hfree p d hpd e hk, hkept⟩

/-- **Every call keeps the cache in step with the map.** -/
theorem Tracks.apply (h : Tracks U ttl c m) {op : Op} (hU : ∀ x ∈ op.payloads, x ∈ U) :
    Tracks U ttl (c.apply op) (ExactMap.apply ttl m op) := by
  cases op with
  | set now protocol data message =>
    exact h.set now (hU _ (List.mem_singleton.mpr rfl)) message
  | setBatch now batch =>
    -- item by item
    refine List.foldl_rel h ?_
    intro x hx c m hcm
    have hpayload : (x.1.1, x.1.2.1) ∈ U :=
      hU _ (List.mem_map.mpr ⟨x.1, List.fst_mem_of_mem_zipIdx hx, rfl⟩)
    exact hcm.set (now x.2) hpayload x.1.2.2
  | invalidateProtocolTimeRange protocol startMs endMs =>
    exact h.retain (outsideRange protocol startMs endMs) fun p d e => rfl
  | invalidateProtocol protocol =>
    exact h.retain (fun k _ => k.protocol ≠ protocol) fun p d e => rfl
  | clear =>
    refine ⟨h.ttl_eq, ?_, ?_⟩
    · intro k e hk
      simp [AsyncCache.apply, clear] at hk
    · intro _ p d _ e hk
      simp [AsyncCache.apply, clear] at hk

theorem tracks_run (maxEntries : Nat) {ops : List Op} (hU : ∀ op ∈ ops, ∀ x ∈ op.payloads, x ∈ U) :
    Tracks U ttl (run maxEntries ttl ops) (ExactMap.run ttl ops) := by
  refine List.foldl_rel (tracks_new maxEntries) ?_
  intro op hop c m hcm
  exact hcm.apply (hU op hop)

/-- A hit comes from an entry, within its TTL. -/
theorem get_eq_some {now : Nat} {protocol : Protocol} {data : Bytes} {message : Message}
    (h : c.get now protocol data = some message) :
    ∃ e, c.entries.lookup (key protocol data) = some e ∧ e.message = message ∧
      now - e.timestamp < e.ttl := by
  obtain ⟨e, he, hlive⟩ := Option.bind_eq_some_iff.mp h
  split at hlive
  · rename_i httl
    cases hlive
    exact ⟨e, he, rfl, httl⟩
  · cases hlive

/-- One `set` is found under any payload with the same hash. -/
theorem get_set_new (maxEntries : Nat) {defaultTtl : Nat} (httl : 0 < defaultTtl)
    (protocol : Protocol) {data data' : Bytes} (hhash : hashData data = hashData data')
    (message : Message) :
    (run maxEntries defaultTtl [.set 0 protocol data' message]).get 0 protocol data =
      some message := by
  have hkey : key protocol data = key protocol data' := by rw [key, key, hhash]
  have hevict : (new maxEntries defaultTtl).evict.defaultTtl = defaultTtl :=
    evict_defaultTtl _
  show ((new maxEntries defaultTtl).evict.put 0 protocol data' message).get 0 protocol data = _
  rw [get, lookup_put, if_pos hkey, Option.bind_some]
  exact if_pos (by rw [entry, hevict]; exact httl)

/-- **When the cache is a map keyed by exact payloads**, for every run and every lookup over a set of
    payloads: when no two of them that share a protocol share a hash (or nothing ever hits). -/
theorem exact_map_iff (maxEntries defaultTtl : Nat) (U : Set (Protocol × Bytes)) :
    (∀ ops : List Op, (∀ op ∈ ops, ∀ x ∈ op.payloads, x ∈ U) →
      (∀ now p d message, (p, d) ∈ U → (run maxEntries defaultTtl ops).get now p d = some message →
        Right defaultTtl ops now p d message) ∧
      (∀ now queries i p d message, (p, d) ∈ U → queries[i]? = some (p, d) →
        ((run maxEntries defaultTtl ops).getBatch now queries)[i]? = some (some message) →
        Right defaultTtl ops (now i) p d message)) ↔
    defaultTtl = 0 ∨ CollisionFree U := by
  constructor
  · intro hright
    rcases Nat.eq_zero_or_pos defaultTtl with hzero | hpos
    · exact .inl hzero
    · refine .inr ?_
      intro p d d' hd hd' hhash
      by_contra hne
      -- set the one, ask for the other
      have hhit := get_set_new maxEntries hpos p hhash
        (.newWithTemporal p d' .operational 0 0)
      have hops : ∀ op ∈ [Op.set 0 p d' (.newWithTemporal p d' .operational 0 0)],
          ∀ x ∈ op.payloads, x ∈ U := by
        intro op hop x hx
        rw [List.mem_singleton.mp hop] at hx
        rw [List.mem_singleton.mp hx]
        exact hd'
      obtain ⟨e, he, -⟩ := (hright _ hops).1 0 p d _ hd hhit
      change (if p = p ∧ d = d' then _ else none) = some e at he
      rw [if_neg (fun h => hne h.2)] at he
      cases he
  · intro hcond ops hU
    have htracks : Tracks U defaultTtl (run maxEntries defaultTtl ops) (ExactMap.run defaultTtl ops) :=
      tracks_run maxEntries hU
    have hget : ∀ now p d message, (p, d) ∈ U →
        (run maxEntries defaultTtl ops).get now p d = some message →
        Right defaultTtl ops now p d message := by
      intro now p d message hpd hhit
      obtain ⟨e, he, hmessage, hlive⟩ := get_eq_some hhit
      rcases hcond with hzero | hfree
      · have httl := htracks.ttl_entry _ e he
        omega
      · exact ⟨e, htracks.found hfree p d hpd e he, hmessage, hlive⟩
    refine ⟨hget, ?_⟩
    intro now queries i p d message hpd hquery hhit
    rw [getElem?_getBatch, hquery] at hhit
    exact hget (now i) p d message hpd (Option.some.inj hhit)

/-- Payload `[1, 0]` is set, payload `[0, 33]` is asked for and found: `33 * 1 + 0 = 33 * 0 + 33`. -/
theorem hash_collision_hit :
    (run 1000 60 [.set 0 .nidd [1, 0] (.newWithTemporal .nidd [1, 0] .operational 7 7)]).get 5 .nidd
        [0, 33] = some (.newWithTemporal .nidd [1, 0] .operational 7 7) ∧
    ExactMap.run 60 [.set 0 .nidd [1, 0] (.newWithTemporal .nidd [1, 0] .operational 7 7)] .nidd
        [0, 33] = none := by
  decide +kernel

end AsyncCache

end FloatProtocols
