/-
  When a snapshot counts as fresh, in the words of each operation of `snapshot.rs`.

  The test is written five times, as a comparison of `now - created_at` in u64 arithmetic with the time
  to live.  Four operations ask whether it is BELOW; `get_snapshot` asks whether it is ABOVE, and so
  still returns a snapshot of exactly that age.  And when the clock has stepped back behind a creation
  the subtraction wraps: a snapshot made a moment ago is then half a billion years old.
  `freshness_iff` says that there is no third way for them to differ from each other or from the integers.
-/
import FloatProtocols.Storage.SnapshotStore

namespace FloatProtocols

namespace SnapshotManager

/-! ## Each operation, of one stored snapshot -/

variable {sm : SnapshotManager} {id : String} {s : Snapshot}

/-- A stored snapshot is among the values of the map. -/
theorem mem_values (hs : sm.map.lookup id = some s) : s ∈ sm.map.entries.map Sigma.snd :=
  List.mem_map.mpr ⟨⟨id, s⟩, AList.mem_lookup_iff.mp hs, rfl⟩

/-- `retain` decides about a snapshot by its own contents. -/
theorem lookup_retain (hs : sm.map.lookup id = some s) (keep : Snapshot → Bool) :
    (sm.retain keep).map.lookup id = if keep s then some s else none := by
  have hmem : ∀ t, (sm.retain keep).map.lookup id = some t ↔ sm.map.lookup id = some t ∧ keep t := by
    intro t
    have hiff : (⟨id, t⟩ : Sigma fun _ : String => Snapshot) ∈ (sm.retain keep).map.entries ↔
        ⟨id, t⟩ ∈ sm.map.entries ∧ keep t := List.mem_filter
    exact AList.mem_lookup_iff.trans (hiff.trans (and_congr_left' AList.mem_lookup_iff.symm))
  split
  · rename_i hkeep
    exact (hmem s).mpr ⟨hs, hkeep⟩
  · rename_i hdrop
    refine Option.eq_none_iff_forall_ne_some.mpr ?_
    intro t ht
    obtain ⟨ht, hkeep⟩ := (hmem t).mp ht
    obtain rfl := Option.some.inj (hs.symm.trans ht)
    exact hdrop hkeep

theorem mem_getProtocolSnapshots (hs : sm.map.lookup id = some s) (now : UInt64) :
    s ∈ sm.getProtocolSnapshots now s.protocol ↔ sm.unexpired now s := by
  rw [getProtocolSnapshots, List.mem_filter, and_iff_right (mem_values hs), decide_eq_true_iff,
    and_iff_right rfl]

theorem forUplink_self (now sinceMs : UInt64) (hsince : sinceMs ≤ s.createdAt) :
    sm.forUplink now s.deviceId sinceMs s = sm.unexpired now s := by
  rw [Bool.eq_iff_iff, forUplink, decide_eq_true_iff, and_iff_right rfl, and_iff_right hsince]

/-- A drain that is meant for the snapshot returns it and takes it out, or does neither. -/
theorem drained_iff (hs : sm.map.lookup id = some s) (now : UInt64) {sinceMs : UInt64}
    (hsince : sinceMs ≤ s.createdAt) :
    (s ∈ (sm.drainForUplink now s.deviceId sinceMs).1 ∧
      (sm.drainForUplink now s.deviceId sinceMs).2.map.lookup id = none) ↔ sm.unexpired now s := by
  have hlookup := lookup_retain hs fun t => !sm.forUplink now s.deviceId sinceMs t
  have hmem : s ∈ (sm.drainForUplink now s.deviceId sinceMs).1 ↔ sm.unexpired now s := by
    rw [drainForUplink, List.mem_filter, and_iff_right (mem_values hs), forUplink_self now sinceMs hsince]
  rw [hmem]
  refine and_iff_left_of_imp fun hfresh => ?_
  rw [← forUplink_self now sinceMs hsince] at hfresh
  exact hlookup.trans (if_neg (by simp [hfresh]))

/-- A snapshot counts if the count is one less without it. -/
theorem counted_iff (hs : sm.map.lookup id = some s) (now : UInt64) :
    (sm.stats now).validSnapshots = ((sm.deleteSnapshot id).2.stats now).validSnapshots + 1 ↔
      sm.unexpired now s := by
  have hkey : id ∈ sm.map.entries.keys := AList.lookup_isSome.mp (by rw [hs]; rfl)
  obtain ⟨t, before, after, -, hsplit, herase⟩ := List.exists_of_kerase hkey
  have ht : sm.map.lookup id = some t := by
    refine AList.mem_lookup_iff.mpr ?_
    rw [hsplit]
    exact List.mem_append_right _ List.mem_cons_self
  obtain rfl := Option.some.inj (hs.symm.trans ht)
  have hwith : (sm.stats now).validSnapshots =
      (before.map Sigma.snd).countP (sm.unexpired now) +
        ((after.map Sigma.snd).countP (sm.unexpired now) + if sm.unexpired now s then 1 else 0) := by
    rw [stats, hsplit, List.map_append, List.map_cons, List.countP_append, List.countP_cons]
  have hwithout : ((sm.deleteSnapshot id).2.stats now).validSnapshots =
      (before.map Sigma.snd).countP (sm.unexpired now) +
        (after.map Sigma.snd).countP (sm.unexpired now) := by
    show ((sm.map.entries.kerase id).map Sigma.snd).countP (sm.unexpired now) = _
    rw [herase, List.map_append, List.countP_append]
  rw [hwith, hwithout]
  cases sm.unexpired now s with
  | true =>
    rw [if_pos rfl]
    exact iff_of_true (by omega) rfl
  | false =>
    rw [if_neg Bool.false_ne_true]
    exact iff_of_false (by omega) Bool.false_ne_true

theorem kept_iff (hs : sm.map.lookup id = some s) (now : UInt64) :
    (sm.clearExpired now).map.lookup id = some s ↔ sm.unexpired now s := by
  rw [clearExpired, lookup_retain hs]
  split <;> simp_all

/-- Under its id a snapshot is returned for one millisecond more. -/
theorem returned_iff (hs : sm.map.lookup id = some s) (now : UInt64) :
    sm.getSnapshot now id = some s ↔ sm.unexpired now s ∨ now - s.createdAt = sm.snapshotTtlMs := by
  rw [getSnapshot_eq_some, and_iff_right hs, unexpired, decide_eq_true_iff, UInt64.le_iff_toNat_le,
    UInt64.lt_iff_toNat_lt, ← UInt64.toNat_inj]
  omega

/-- While the clock is not behind, the wrapping age is the age. -/
theorem unexpired_of_young {now : UInt64} (hclock : s.createdAt ≤ now)
    (hyoung : (now.toNat : Int) - s.createdAt.toNat < sm.snapshotTtlMs.toNat) :
    sm.unexpired now s := by
  rw [unexpired, decide_eq_true_iff, UInt64.lt_iff_toNat_lt, UInt64.toNat_sub_of_le now _ hclock]
  rw [UInt64.le_iff_toNat_le] at hclock
  omega

/-! ## Agreement -/

/-- All operations agree with `get_snapshot` about a stored snapshot, and a snapshot that is younger
    than the time to live is fresh. -/
structure Agree (sm : SnapshotManager) (now : UInt64) (id : String) (s : Snapshot) : Prop where
  listed : sm.getSnapshot now id = some s ↔ s ∈ sm.getProtocolSnapshots now s.protocol
  drained : ∀ sinceMs ≤ s.createdAt, sm.getSnapshot now id = some s ↔
    s ∈ (sm.drainForUplink now s.deviceId sinceMs).1 ∧
      (sm.drainForUplink now s.deviceId sinceMs).2.map.lookup id = none
  counted : sm.getSnapshot now id = some s ↔
    (sm.stats now).validSnapshots = ((sm.deleteSnapshot id).2.stats now).validSnapshots + 1
  kept : sm.getSnapshot now id = some s ↔ (sm.clearExpired now).map.lookup id = some s
  fresh : (now.toNat : Int) - s.createdAt.toNat < sm.snapshotTtlMs.toNat →
    sm.getSnapshot now id = some s

/-- **Where freshness is agreed on.**  In every state and at every clock reading: unless the age, in
    wrapping arithmetic, is exactly the time to live, or the clock is behind the creation and the
    wrapped age not below the time to live. -/
theorem freshness_iff (sm : SnapshotManager) (now : UInt64) (hs : sm.map.lookup id = some s) :
    Agree sm now id s ↔ now - s.createdAt ≠ sm.snapshotTtlMs ∧
      (s.createdAt ≤ now ∨ now - s.createdAt < sm.snapshotTtlMs) := by
  constructor
  · intro h
    have hsame : sm.getSnapshot now id = some s ↔ sm.unexpired now s := by
      rw [h.listed, mem_getProtocolSnapshots hs]
    constructor
    · intro heq
      have hbelow := of_decide_eq_true (hsame.mp ((returned_iff hs now).mpr (.inr heq)))
      rw [heq] at hbelow
      exact UInt64.lt_irrefl _ hbelow
    · rcases UInt64.lt_or_le now s.createdAt with hback | hforth
      · -- over the integers the age is negative
        refine .inr (of_decide_eq_true (hsame.mp (h.fresh ?_)))
        rw [UInt64.lt_iff_toNat_lt] at hback
        omega
      · exact .inl hforth
  · rintro ⟨hne, hclock⟩
    have hsame : sm.getSnapshot now id = some s ↔ sm.unexpired now s := by
      rw [returned_iff hs, or_iff_left hne]
    refine ⟨?_, ?_, ?_, ?_, ?_⟩
    · rw [hsame, mem_getProtocolSnapshots hs]
    · intro sinceMs hsince
      rw [hsame, drained_iff hs now hsince]
    · rw [hsame, counted_iff hs]
    · rw [hsame, kept_iff hs]
    · intro hyoung
      rw [hsame]
      rcases hclock with hforth | hbelow
      · exact unexpired_of_young hforth hyoung
      · exact decide_eq_true hbelow

/-- One snapshot, made at the given time, in a store with five minutes to live. -/
def single (now : UInt64) : SnapshotManager :=
  ((new 100 300000).createSnapshot now [reading [1]] .nidd 7).2

theorem lookup_single (now : UInt64) : (single now).map.lookup (generateSnapshotId [reading [1]] .nidd) =
    some (made now [reading [1]] .nidd 7) :=
  AList.lookup_insert _

/-- One millisecond before it expires. -/
theorem freshness_iff_last : Agree (single 1000) 300999 (generateSnapshotId [reading [1]] .nidd)
    (made 1000 [reading [1]] .nidd 7) :=
  (freshness_iff (single 1000) 300999 (lookup_single 1000)).mpr (by decide)

/-- **Two ways to disagree**: at the age of exactly five minutes the snapshot is returned under its id
    and is listed nowhere; and with the clock one millisecond behind its creation, when its age is -1,
    it is not returned. -/
theorem freshness_disagrees :
    let id := generateSnapshotId [reading [1]] .nidd
    let s := made 1000 [reading [1]] .nidd 7
    (single 1000).map.lookup id = some s ∧
    ((single 1000).getSnapshot 301000 id = some s ∧
      s ∉ (single 1000).getProtocolSnapshots 301000 .nidd) ∧
    (single 1000).getSnapshot 999 id = none ∧
    ¬ Agree (single 1000) 301000 id s ∧ ¬ Agree (single 1000) 999 id s := by
  intro id s
  have hs : (single 1000).map.lookup id = some s := lookup_single 1000
  have hget : (single 1000).getSnapshot 301000 id = some s :=
    getSnapshot_eq_some.mpr ⟨hs, by decide⟩
  have hunlisted : s ∉ (single 1000).getProtocolSnapshots 301000 s.protocol := by
    rw [mem_getProtocolSnapshots hs]
    decide
  have hnone : (single 1000).getSnapshot 999 id = none := by
    rw [getSnapshot, hs]
    decide
  refine ⟨hs, ⟨hget, hunlisted⟩, hnone, fun h => hunlisted (h.listed.mp hget), fun h => ?_⟩
  have hfresh := h.fresh (by decide)
  rw [hnone] at hfresh
  cases hfresh

end SnapshotManager

end FloatProtocols
