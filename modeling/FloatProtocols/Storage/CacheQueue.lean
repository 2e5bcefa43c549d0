/-
  The eviction queue of the cache: it lists the keys of the map, oldest first.

  Map and queue are updated separately by five calls, and a key can be evicted by the very `set` that
  overwrites it.  "Oldest" is said without the queue: a `Journal` runs beside the cache and notes, at
  each moment the map changes, which keys went from absent to present (`note`).  A `set` has two such
  moments, the eviction and the insertion, so a key that is evicted and put back is born again.

  1. **The invariant (`Queued`)** — the queue has exactly the map's keys, in increasing order of birth.
     Each once follows: no key is born before itself.

  2. **Steps** — whatever only takes keys away keeps it (`Queued.shrink`): evictions, invalidations,
     clear.  An insertion of an absent key is born later than all others and goes to the back
     (`Queued.put`).

  3. **Size** — an eviction makes room for one (`evict_room`), so a `set` never exceeds
     `max 1 maxEntries`; the 1 is for a capacity of 0, where the first `set` finds nothing to evict.

  4. **Refreshing (`refresh_keeps_iff`)** — `set` makes room before it knows whether its key is new, so
     in a full cache a key that is already there costs the oldest entry its place, unless it is the
     oldest itself.
-/
import Mathlib.Data.List.Nodup
import FloatProtocols.Storage.Cache

namespace FloatProtocols

open Wire

namespace AsyncCache

/-! ## Births -/

/-- The cache, a clock that counts the changes of its map, and when each key last went from absent to
    present. -/
structure Journal where
  cache : AsyncCache
  time : Nat
  born : CacheKey → Nat

namespace Journal

/-- The map changes. -/
def note (j : Journal) (c : AsyncCache) : Journal where
  cache := c
  time := j.time + 1
  born k := if k ∉ j.cache.entries ∧ k ∈ c.entries then j.time + 1 else j.born k

/-- `set`: an eviction, then an insertion. -/
def set (j : Journal) (now : Nat) (protocol : Protocol) (data : Bytes) (message : Message) : Journal :=
  (j.note j.cache.evict).note (j.cache.evict.put now protocol data message)

/-- One call; an invalidation only takes away and is one change. -/
def apply (j : Journal) : Op → Journal
  | .set now protocol data message => j.set now protocol data message
  | .setBatch now batch =>
    batch.zipIdx.foldl (fun j x => j.set (now x.2) x.1.1 x.1.2.1 x.1.2.2) j
  | op => j.note (j.cache.apply op)

/-- A run of calls on a new cache. -/
def run (maxEntries defaultTtl : Nat) (ops : List Op) : Journal :=
  ops.foldl apply ⟨new maxEntries defaultTtl, 0, fun _ => 0⟩

/-! ## The queue follows the births -/

/-- The queue lists the keys of the map, oldest first. -/
structure Queued (j : Journal) : Prop where
  mem : ∀ k, k ∈ j.cache.evictionOrder ↔ k ∈ j.cache.entries
  sorted : j.cache.evictionOrder.Pairwise fun a b => j.born a < j.born b
  past : ∀ k ∈ j.cache.evictionOrder, j.born k ≤ j.time

variable {j : Journal}

theorem Queued.nodup (h : Queued j) : j.cache.evictionOrder.Nodup := by
  refine h.sorted.imp ?_
  rintro a b hlt rfl
  exact Nat.lt_irrefl _ hlt

/-- The queue is as long as the map is large. -/
theorem Queued.length_keys (h : Queued j) :
    j.cache.entries.keys.length = j.cache.evictionOrder.length := by
  refine List.Perm.length_eq ((List.perm_ext_iff_of_nodup j.cache.entries.keys_nodup h.nodup).mpr ?_)
  intro k
  rw [← AList.mem_keys, h.mem]

/-- Taking keys away keeps the order of the rest. -/
theorem Queued.shrink (h : Queued j) {c : AsyncCache}
    (hsub : c.evictionOrder.Sublist j.cache.evictionOrder)
    (hmem : ∀ k, k ∈ c.evictionOrder ↔ k ∈ c.entries) : Queued (j.note c) := by
  -- a key that is still there was there before, and is not born again
  have hborn : ∀ k ∈ c.evictionOrder, (j.note c).born k = j.born k := by
    intro k hk
    refine if_neg ?_
    rintro ⟨habsent, -⟩
    exact habsent ((h.mem k).mp (hsub.subset hk))
  refine ⟨hmem, ?_, ?_⟩
  · refine (h.sorted.sublist hsub).imp_of_mem ?_
    intro a b ha hb hlt
    rw [hborn a ha, hborn b hb]
    exact hlt
  · intro k hk
    rw [hborn k hk]
    exact Nat.le_succ_of_le (h.past k (hsub.subset hk))

theorem Queued.evict (h : Queued j) : Queued (j.note j.cache.evict) := by
  rcases evict_cases j.cache with ⟨heq, -⟩ | ⟨oldest, rest, horder, -, heq⟩
  · rw [heq]
    exact h.shrink (List.Sublist.refl _) h.mem
  · rw [heq]
    have hnodup := h.nodup
    rw [horder, List.nodup_cons] at hnodup
    refine h.shrink ?_ ?_
    · rw [horder]
      exact List.sublist_cons_self oldest rest
    · intro k
      show k ∈ rest ↔ k ∈ j.cache.entries.erase oldest
      rw [AList.mem_erase, ← h.mem, horder, List.mem_cons]
      constructor
      · intro hk
        refine ⟨?_, .inr hk⟩
        rintro rfl
        exact hnodup.1 hk
      · rintro ⟨hne, hk | hk⟩
        · exact absurd hk hne
        · exact hk

/-- An insertion: the key stays where it is, or is born now and goes to the back. -/
theorem Queued.put (h : Queued j) (now : Nat) (protocol : Protocol) (data : Bytes)
    (message : Message) : Queued (j.note (j.cache.put now protocol data message)) := by
  by_cases hin : key protocol data ∈ j.cache.entries
  · have horder : (j.cache.put now protocol data message).evictionOrder = j.cache.evictionOrder :=
      if_pos hin
    refine h.shrink (by rw [horder]) ?_
    intro k
    show k ∈ (j.cache.put now protocol data message).evictionOrder ↔ k ∈ j.cache.entries.insert _ _
    rw [horder, AList.mem_insert, h.mem]
    constructor
    · exact .inr
    · rintro (rfl | hk)
      · exact hin
      · exact hk
  · have horder : (j.cache.put now protocol data message).evictionOrder =
        j.cache.evictionOrder ++ [key protocol data] := if_neg hin
    have hnew : (j.note (j.cache.put now protocol data message)).born (key protocol data) =
        j.time + 1 :=
      if_pos ⟨hin, (AList.mem_insert _).mpr (.inl rfl)⟩
    have hold : ∀ k ∈ j.cache.evictionOrder,
        (j.note (j.cache.put now protocol data message)).born k = j.born k := by
      intro k hk
      refine if_neg ?_
      rintro ⟨habsent, -⟩
      exact habsent ((h.mem k).mp hk)
    refine ⟨?_, ?_, ?_⟩
    · intro k
      show k ∈ (j.cache.put now protocol data message).evictionOrder ↔
        k ∈ j.cache.entries.insert _ _
      rw [horder, AList.mem_insert, List.mem_append, List.mem_singleton, h.mem, or_comm]
    · show (j.cache.put now protocol data message).evictionOrder.Pairwise _
      rw [horder, List.pairwise_append]
      refine ⟨?_, List.pairwise_singleton _ _, ?_⟩
      · refine h.sorted.imp_of_mem ?_
        intro a b ha hb hlt
        rw [hold a ha, hold b hb]
        exact hlt
      · intro a ha b hb
        rw [List.mem_singleton.mp hb, hold a ha, hnew]
        exact Nat.lt_succ_of_le (h.past a ha)
    · intro k hk
      change k ∈ (j.cache.put now protocol data message).evictionOrder at hk
      rw [horder, List.mem_append, List.mem_singleton] at hk
      rcases hk with hk | rfl
      · rw [hold k hk]
        exact Nat.le_succ_of_le (h.past k hk)
      · rw [hnew]
        exact Nat.le_refl _

/-- An invalidation takes the same keys from queue and map. -/
theorem Queued.retain (h : Queued j) (keep : CacheKey → CacheEntry → Bool) :
    Queued (j.note (j.cache.retain keep)) := by
  obtain ⟨hlookup, horder, -, -⟩ :=
    foldl_drop (j.cache.entries.entries.filter fun x => !keep x.1 x.2) j.cache
  refine h.shrink ?_ ?_
  · rw [AsyncCache.retain, horder]
    exact List.diff_sublist _ _
  · intro k
    rw [AsyncCache.retain, horder, h.nodup.mem_sdiff_iff, h.mem, ← AList.lookup_isSome,
      ← AList.lookup_isSome, hlookup]
    split
    · rename_i hdropped
      simp [hdropped]
    · rename_i hkept
      simp [hkept]

theorem Queued.clear (h : Queued j) : Queued (j.note j.cache.clear) :=
  h.shrink (List.nil_sublist _) fun k => by simp [AsyncCache.clear]

/-! ## The size -/

/-- The queue, and with it the map, is within the capacity. -/
def Fits (j : Journal) : Prop := j.cache.evictionOrder.length ≤ max 1 j.cache.maxEntries

/-- An eviction leaves room for one. -/
theorem Queued.evict_room (h : Queued j) (hfits : Fits j) :
    j.cache.evict.evictionOrder.length < max 1 j.cache.maxEntries := by
  have hlength := h.length_keys
  rw [Fits] at hfits
  rcases evict_cases j.cache with ⟨heq, hroom | hempty⟩ | ⟨oldest, rest, horder, -, heq⟩
  · rw [heq]
    omega
  · rw [heq, hempty, List.length_nil]
    omega
  · rw [heq]
    rw [horder, List.length_cons] at hfits
    exact hfits

theorem length_put_le (c : AsyncCache) (now : Nat) (protocol : Protocol) (data : Bytes)
    (message : Message) :
    (c.put now protocol data message).evictionOrder.length ≤ c.evictionOrder.length + 1 := by
  show (if key protocol data ∈ c.entries then c.evictionOrder else _).length ≤ _
  split
  · exact Nat.le_succ _
  · rw [List.length_append, List.length_singleton]

/-! ## Runs -/

/-- What a run keeps. -/
def Sound (maxEntries : Nat) (j : Journal) : Prop :=
  Queued j ∧ Fits j ∧ j.cache.maxEntries = maxEntries

variable {maxEntries : Nat}

theorem Sound.set (h : Sound maxEntries j) (now : Nat) (protocol : Protocol) (data : Bytes)
    (message : Message) : Sound maxEntries (j.set now protocol data message) := by
  obtain ⟨hqueued, hfits, hmax⟩ := h
  have hroom := hqueued.evict_room hfits
  have hlength := length_put_le j.cache.evict now protocol data message
  refine ⟨hqueued.evict.put now protocol data message, ?_, (evict_maxEntries _).trans hmax⟩
  show (j.cache.evict.put now protocol data message).evictionOrder.length ≤
    max 1 j.cache.evict.maxEntries
  rw [evict_maxEntries]
  omega

/-- A change that only takes keys away keeps the size too. -/
theorem Sound.shrink (h : Sound maxEntries j) {c : AsyncCache} (hqueued : Queued (j.note c))
    (hsub : c.evictionOrder.length ≤ j.cache.evictionOrder.length)
    (hmax : c.maxEntries = j.cache.maxEntries) : Sound maxEntries (j.note c) := by
  obtain ⟨-, hfits, hmax'⟩ := h
  refine ⟨hqueued, ?_, hmax.trans hmax'⟩
  show c.evictionOrder.length ≤ max 1 c.maxEntries
  rw [hmax]
  exact hsub.trans hfits

theorem Sound.retain (h : Sound maxEntries j) (keep : CacheKey → CacheEntry → Bool) :
    Sound maxEntries (j.note (j.cache.retain keep)) := by
  obtain ⟨-, horder, hmax, -⟩ :=
    foldl_drop (j.cache.entries.entries.filter fun x => !keep x.1 x.2) j.cache
  refine h.shrink (h.1.retain keep) ?_ hmax
  rw [AsyncCache.retain, horder]
  exact (List.diff_sublist _ _).length_le

/-- **Every call keeps the queue in order and the cache in size.** -/
theorem Sound.apply (h : Sound maxEntries j) (op : Op) : Sound maxEntries (j.apply op) := by
  cases op with
  | set now protocol data message => exact h.set now protocol data message
  | setBatch now batch =>
    refine List.foldlRecOn batch.zipIdx _ h ?_
    intro j hj x _
    exact hj.set (now x.2) x.1.1 x.1.2.1 x.1.2.2
  | invalidateProtocolTimeRange protocol startMs endMs =>
    exact h.retain (outsideRange protocol startMs endMs)
  | invalidateProtocol protocol => exact h.retain fun k _ => k.protocol ≠ protocol
  | clear => exact h.shrink h.1.clear (Nat.zero_le _) rfl

theorem sound_run (maxEntries defaultTtl : Nat) (ops : List Op) :
    Sound maxEntries (run maxEntries defaultTtl ops) := by
  refine List.foldlRecOn ops _ ?_ fun j hj op _ => hj.apply op
  refine ⟨⟨?_, List.Pairwise.nil, ?_⟩, Nat.zero_le _, rfl⟩
  · intro k
    simp [new]
  · intro k hk
    cases hk

/-- The journal runs beside the cache and does not touch it. -/
theorem cache_apply (j : Journal) (op : Op) : (j.apply op).cache = j.cache.apply op := by
  cases op with
  | setBatch now batch =>
    exact (List.foldl_hom Journal.cache fun _ _ => rfl).symm
  | set => rfl
  | invalidateProtocolTimeRange => rfl
  | invalidateProtocol => rfl
  | clear => rfl

theorem cache_run (maxEntries defaultTtl : Nat) (ops : List Op) :
    (run maxEntries defaultTtl ops).cache = AsyncCache.run maxEntries defaultTtl ops := by
  exact (List.foldl_hom Journal.cache fun j op => (cache_apply j op).symm).symm

/-- What the queue is for: the keys of the map, each once, in the order of birth; a map within its
    capacity; and an eviction that takes away the oldest entry and no other. -/
structure OldestFirst (c : AsyncCache) (born : CacheKey → Nat) (maxEntries : Nat) : Prop where
  lists : ∀ k, k ∈ c.evictionOrder ↔ k ∈ c.entries
  once : c.evictionOrder.Nodup
  order : c.evictionOrder.Pairwise fun a b => born a < born b
  size : c.entries.keys.length ≤ max 1 maxEntries
  evicts : c.entries.keys ≠ [] → maxEntries ≤ c.entries.keys.length →
    ∃ oldest ∈ c.entries, c.evict.entries = c.entries.erase oldest ∧
      ∀ k ∈ c.entries, k ≠ oldest → born oldest < born k

/-- **In every reachable state the queue lists the entries, oldest first.** -/
theorem queue_lists_entries (maxEntries defaultTtl : Nat) (ops : List Op) :
    OldestFirst (AsyncCache.run maxEntries defaultTtl ops) (run maxEntries defaultTtl ops).born
      maxEntries := by
  obtain ⟨hqueued, hfits, hmax⟩ := sound_run maxEntries defaultTtl ops
  rw [← cache_run]
  generalize run maxEntries defaultTtl ops = j at hqueued hfits hmax
  rw [Fits, hmax] at hfits
  refine ⟨hqueued.mem, hqueued.nodup, hqueued.sorted, hqueued.length_keys.trans_le hfits, ?_⟩
  intro hne hfull
  rcases evict_cases j.cache with ⟨-, hroom | hempty⟩ | ⟨oldest, rest, horder, -, heq⟩
  · omega
  · -- an empty queue, and a key in the map
    have hzero : j.cache.entries.keys.length = 0 := by
      rw [hqueued.length_keys, hempty, List.length_nil]
    exact absurd (List.eq_nil_of_length_eq_zero hzero) hne
  · refine ⟨oldest, (hqueued.mem oldest).mp (by rw [horder]; exact List.mem_cons_self), ?_, ?_⟩
    · rw [heq]
    · intro k hk hother
      have hsorted := hqueued.sorted
      rw [horder, List.pairwise_cons] at hsorted
      rw [← hqueued.mem, horder, List.mem_cons] at hk
      rcases hk with hk | hk
      · exact absurd hk hother
      · exact hsorted.1 k hk

/-- The last `set` finds a full cache, evicts its own payload and puts it back, at the end. -/
def refilled : List Op :=
  [.set 0 .nidd [1] (.newWithTemporal .nidd [1] .operational 0 0),
   .set 1 .nidd [2] (.newWithTemporal .nidd [2] .operational 1 1),
   .set 2 .nidd [1] (.newWithTemporal .nidd [1] .operational 2 2)]

/-- The next to go is the other one. -/
theorem queue_lists_entries_refilled :
    let c := AsyncCache.run 2 60 refilled
    c.evictionOrder = [key .nidd [2], key .nidd [1]] ∧
    ∃ oldest ∈ c.entries, c.evict.entries = c.entries.erase oldest ∧
      ∀ k ∈ c.entries, k ≠ oldest → (run 2 60 refilled).born oldest < (run 2 60 refilled).born k :=
  ⟨by decide +kernel,
    (queue_lists_entries 2 60 refilled).evicts (by decide +kernel) (by decide +kernel)⟩

end Journal

/-! ## Refreshing -/

theorem mem_evictionOrder_run (maxEntries defaultTtl : Nat) (ops : List Op) (k : CacheKey) :
    k ∈ (run maxEntries defaultTtl ops).evictionOrder ↔ k ∈ (run maxEntries defaultTtl ops).entries := by
  obtain ⟨hqueued, -, -⟩ := Journal.sound_run maxEntries defaultTtl ops
  rw [← Journal.cache_run]
  exact hqueued.mem k

theorem run_maxEntries (maxEntries defaultTtl : Nat) (ops : List Op) :
    (run maxEntries defaultTtl ops).maxEntries = maxEntries := by
  obtain ⟨-, -, hmax⟩ := Journal.sound_run maxEntries defaultTtl ops
  rw [← Journal.cache_run]
  exact hmax

/-- Every entry but that of `k` stays, with its value. -/
def KeepsOthers (c c' : AsyncCache) (k : CacheKey) : Prop :=
  ∀ k' e, k' ≠ k → c.entries.lookup k' = some e → c'.entries.lookup k' = some e

/-- A `set` on a key that is there keeps the others if nothing is evicted, or the key itself. -/
theorem keepsOthers_set_iff {c : AsyncCache} (hqueue : ∀ k, k ∈ c.evictionOrder ↔ k ∈ c.entries)
    (now : Nat) {protocol : Protocol} {data : Bytes} (message : Message)
    (hpresent : key protocol data ∈ c.entries) :
    KeepsOthers c (c.set now protocol data message) (key protocol data) ↔
      c.entries.keys.length < c.maxEntries ∨ c.evictionOrder.head? = some (key protocol data) := by
  have hset : ∀ k ≠ key protocol data,
      (c.set now protocol data message).entries.lookup k = c.evict.entries.lookup k := by
    intro k hne
    rw [set_eq_put, lookup_put, if_neg hne]
  rcases evict_cases c with ⟨heq, hroom⟩ | ⟨oldest, rest, horder, hfull, heq⟩
  · refine iff_of_true ?_ ?_
    · intro k e hne hk
      rw [hset k hne, heq, hk]
    · rcases hroom with hroom | hempty
      · exact .inl hroom
      · have hmem := (hqueue _).mpr hpresent
        rw [hempty] at hmem
        cases hmem
  · rw [or_iff_right (by omega), horder, List.head?_cons, Option.some.injEq]
    constructor
    · intro h
      by_contra hne
      have hoid : oldest ∈ c.entries := (hqueue oldest).mp (by rw [horder]; exact List.mem_cons_self)
      obtain ⟨e, he⟩ := Option.isSome_iff_exists.mp (AList.lookup_isSome.mpr hoid)
      have hkept := h oldest e hne he
      rw [hset oldest hne, heq, AList.lookup_erase] at hkept
      cases hkept
    · rintro rfl k e hne hk
      rw [hset k hne, heq, AList.lookup_erase_ne hne, hk]

/-- An item of a batch is a `set` on what the items before it left. -/
theorem setBatch_take_succ (c : AsyncCache) (now : Nat → Nat)
    {batch : List (Protocol × Bytes × Message)} {i : Nat} {protocol : Protocol} {data : Bytes}
    {message : Message} (hi : batch[i]? = some (protocol, data, message)) :
    c.setBatch now (batch.take (i + 1)) =
      (c.setBatch now (batch.take i)).set (now i) protocol data message := by
  obtain ⟨hlt, -⟩ := List.getElem?_eq_some_iff.mp hi
  rw [List.take_add_one, hi, Option.toList_some, setBatch, List.zipIdx_append, List.foldl_append,
    List.length_take, Nat.min_eq_left (Nat.le_of_lt hlt), Nat.zero_add]
  rfl

/-- **When refreshing an entry disturbs no other.**  In every reachable state, for every `set` and
    every item of a `set_batch` on a key that is there: exactly when the cache is not full, or the key
    is the oldest. -/
theorem refresh_keeps_iff (maxEntries defaultTtl : Nat) (ops : List Op) :
    let c := run maxEntries defaultTtl ops
    (∀ now protocol data message, key protocol data ∈ c.entries →
      (KeepsOthers c (c.set now protocol data message) (key protocol data) ↔
        c.entries.keys.length < maxEntries ∨ c.evictionOrder.head? = some (key protocol data))) ∧
    ∀ now (batch : List (Protocol × Bytes × Message)) (i : Nat) protocol data message,
      batch[i]? = some (protocol, data, message) →
      let before := c.setBatch now (batch.take i)
      key protocol data ∈ before.entries →
      (KeepsOthers before (c.setBatch now (batch.take (i + 1))) (key protocol data) ↔
        before.entries.keys.length < maxEntries ∨
          before.evictionOrder.head? = some (key protocol data)) := by
  intro c
  constructor
  · intro now protocol data message hpresent
    have h := keepsOthers_set_iff (mem_evictionOrder_run maxEntries defaultTtl ops) now message hpresent
    rwa [run_maxEntries] at h
  · intro now batch i protocol data message hi before hpresent
    have hrun : before = run maxEntries defaultTtl (ops ++ [.setBatch now (batch.take i)]) := by
      rw [run, List.foldl_append]
      rfl
    rw [setBatch_take_succ c now hi]
    show KeepsOthers before (before.set (now i) protocol data message) _ ↔ _
    rw [hrun] at hpresent ⊢
    have h := keepsOthers_set_iff (mem_evictionOrder_run maxEntries defaultTtl
      (ops ++ [.setBatch now (batch.take i)])) (now i) message hpresent
    rwa [run_maxEntries] at h

/-- A reading with the given payload. -/
def reading (data : Bytes) : Message := .newWithTemporal .nidd data .operational 0 0

/-- Two entries in a cache of two. -/
def twoEntries : List Op := [.set 0 .nidd [1] (reading [1]), .set 1 .nidd [2] (reading [2])]

/-- With room for a third, refreshing the second keeps the first. -/
theorem refresh_keeps_iff_room :
    KeepsOthers (run 3 60 twoEntries) ((run 3 60 twoEntries).set 2 .nidd [2] (reading [2])) (key .nidd [2]) :=
  ((refresh_keeps_iff 3 60 twoEntries).1 2 .nidd [2] (reading [2]) (by decide +kernel)).mpr
    (.inl (by decide +kernel))

/-- **Refreshing the second entry of a full cache loses the first.** -/
theorem refresh_evicts_oldest :
    key .nidd [2] ∈ (run 2 60 twoEntries).entries ∧
    ((run 2 60 twoEntries).entries.lookup (key .nidd [1])).isSome ∧
    ((run 2 60 twoEntries).set 2 .nidd [2] (reading [2])).entries.lookup (key .nidd [1]) = none := by
  decide +kernel

end AsyncCache

end FloatProtocols
