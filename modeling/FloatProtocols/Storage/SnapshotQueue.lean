/-
  The order queue of the snapshot store: which snapshot an eviction takes, and how long the queue gets.

  An id enters the queue at every creation and leaves it only when an eviction pops it.  In between it
  may be drained, deleted or expire, and be created again: its old occurrence then stands in the queue
  as if it were the new snapshot's.

  1. **Age (`evictsOldest_iff`)** — "created longest ago" is said of the calls (`created`), not of the
     queue.  The queue lists every creation that was not popped (`stamped_run`), so LAST occurrences
     are in the right order; eviction stops at the FIRST occurrence of a live id.  The two agree
     unless that id was created again behind some other snapshot.

  2. **Length (`queue_bounded_iff`)** — ghosts are popped by evictions only, and there is none while
     the map is below capacity.  A store that is drained as fast as it is filled never evicts, and its
     queue grows with every snapshot.  Only capacity 0, where every creation evicts, has a bound.
-/
import Mathlib.Data.List.Induction
import FloatProtocols.Lib.LazyQueue
import FloatProtocols.Storage.SnapshotStore

namespace FloatProtocols

open Wire LazyQueue

namespace SnapshotManager

/-! ## Creations of a run -/

/-- The id that a call creates. -/
def Op.creates : Op → Option String
  | .createSnapshot _ messages protocol _ => some (generateSnapshotId messages protocol)
  | .createBatchSnapshot _ messages protocol _ => some (generateSnapshotId messages protocol)
  | .drainForUplink _ _ _ => none
  | .deleteSnapshot _ => none
  | .clearExpired _ => none

/-- The place in a run, from 1, of the latest creation of an id. -/
def created (ops : List Op) (id : String) : Nat :=
  (ops.reverse.dropWhile fun op => op.creates ≠ some id).length

theorem created_concat (ops : List Op) (op : Op) (id : String) :
    created (ops ++ [op]) id = if op.creates = some id then ops.length + 1 else created ops id := by
  rw [created, List.reverse_append, List.reverse_singleton, List.singleton_append, List.dropWhile_cons]
  by_cases h : op.creates = some id
  · simp [h]
  · simp [h, created]

theorem run_concat (maxSnapshots : Nat) (snapshotTtlMs : UInt64) (ops : List Op) (op : Op) :
    run maxSnapshots snapshotTtlMs (ops ++ [op]) = (run maxSnapshots snapshotTtlMs ops).apply op :=
  List.foldl_append ..

/-- What one call does to the ids: a creation makes room and pushes, everything else takes away. -/
theorem apply_cases (sm : SnapshotManager) (op : Op) :
    (∃ id, op.creates = some id ∧ (sm.apply op).order = sm.room.2 ++ [id] ∧
      ∀ k, k ∈ (sm.apply op).map ↔ k = id ∨ k ∈ sm.room.1) ∨
    (op.creates = none ∧ (sm.apply op).order = sm.order ∧ ∀ k ∈ (sm.apply op).map, k ∈ sm.map) := by
  have hretain : ∀ keep : Snapshot → Bool, ∀ k ∈ (sm.retain keep).map, k ∈ sm.map := by
    intro keep k hk
    have hsub : (sm.retain keep).map.keys.Sublist sm.map.keys := List.filter_sublist.map Sigma.fst
    exact hsub.subset hk
  cases op with
  | createSnapshot now messages protocol deviceId =>
    exact .inl ⟨_, rfl, rfl, fun k => AList.mem_insert _⟩
  | createBatchSnapshot now messages protocol deviceId =>
    exact .inl ⟨_, rfl, rfl, fun k => AList.mem_insert _⟩
  | drainForUplink now deviceId sinceMs =>
    exact .inr ⟨rfl, rfl, hretain fun s => !sm.forUplink now deviceId sinceMs s⟩
  | deleteSnapshot id =>
    refine .inr ⟨rfl, rfl, ?_⟩
    intro k hk
    exact (AList.mem_erase.mp hk).2
  | clearExpired now => exact .inr ⟨rfl, rfl, hretain (sm.unexpired now)⟩

/-! ## The queue lists the creations -/

variable {sm : SnapshotManager} {latest : String → Nat} {now : Nat}

/-- Making room pops ghosts and at most one live id, whose snapshot goes with it. -/
theorem stamped_room (h : Stamped sm.order (· ∈ sm.map) latest now) :
    Stamped sm.room.2 (· ∈ sm.room.1) latest now := by
  rw [room]
  split
  · rcases evictOldest_cases sm.map sm.order with
      ⟨hghosts, heq⟩ | ⟨ghosts, id, rest, horder, hghosts, -, heq⟩
    · rw [heq]
      rw [← List.append_nil sm.order] at h
      exact h.drop (fun _ hk => hk) hghosts
    · rw [heq]
      rw [horder, List.append_cons] at h
      refine h.drop (fun _ hk => (AList.mem_erase.mp hk).2) ?_
      intro k hk hlive
      obtain ⟨hne, hlive⟩ := AList.mem_erase.mp hlive
      rcases List.mem_append.mp hk with hk | hk
      · exact hghosts k hk hlive
      · exact hne (List.mem_singleton.mp hk)
  · exact h

/-- **The order queue is stamped with the creations**, by induction on the calls. -/
theorem stamped_run (maxSnapshots : Nat) (snapshotTtlMs : UInt64) (ops : List Op) :
    Stamped (run maxSnapshots snapshotTtlMs ops).order (· ∈ (run maxSnapshots snapshotTtlMs ops).map)
      (created ops) ops.length := by
  induction ops using List.reverseRecOn with
  | nil => exact stamped_nil fun k => AList.notMem_empty k
  | append_singleton ops op ih =>
    rw [run_concat, List.length_append, List.length_singleton]
    rcases apply_cases (run maxSnapshots snapshotTtlMs ops) op with
      ⟨id, hid, horder, hmap⟩ | ⟨hnone, horder, hmap⟩
    · have hcreated : created (ops ++ [op]) = fun k => if k = id then ops.length + 1 else created ops k := by
        funext k
        rw [created_concat, hid]
        simp only [Option.some.injEq, eq_comm]
      rw [horder, hcreated]
      simp only [hmap]
      exact (stamped_room ih).push id
    · have hcreated : created (ops ++ [op]) = created ops := by
        funext k
        rw [created_concat, hnone, if_neg (by simp)]
      rw [horder, hcreated]
      rw [← List.nil_append (run maxSnapshots snapshotTtlMs ops).order] at ih
      exact (ih.drop hmap (by simp)).tick

/-! ## Which snapshot is evicted -/

/-- What the next creation evicts was created, the last time, before everything else in the map. -/
def EvictsOldest (sm : SnapshotManager) (latest : String → Nat) : Prop :=
  ∀ id ∈ sm.map, id ∉ sm.room.1 → ∀ k ∈ sm.map, k ≠ id → latest id < latest k

/-- Every other snapshot's id stands behind the last occurrence of the first live id. -/
def FrontSettled (sm : SnapshotManager) : Prop :=
  ∀ id ∈ sm.order.find? (· ∈ sm.map), ∀ k ∈ sm.map, k ≠ id → Behind sm.order id k

/-- Eviction takes the first live id of the queue. -/
theorem evictOldest_find (map : AList fun _ : String => Snapshot) (order : List String) :
    (evictOldest map order).1 =
      (order.find? (· ∈ map)).elim map fun id => map.erase id := by
  rcases evictOldest_cases map order with ⟨hghosts, heq⟩ | ⟨ghosts, id, rest, rfl, hghosts, hid, heq⟩
  · have hfind : order.find? (· ∈ map) = none := by simpa [List.find?_eq_none] using hghosts
    rw [heq, hfind]
    rfl
  · have hfind : (ghosts ++ id :: rest).find? (· ∈ map) = some id := by
      rw [List.find?_append, List.find?_eq_none.mpr (by simpa using hghosts), Option.none_or,
        List.find?_cons_of_pos (by simpa using hid)]
    rw [heq, hfind]
    rfl

/-- **Which evictions take the oldest snapshot.**  In every reachable state the next creation evicts
    nothing, as the store is not full, or the snapshot whose latest creation is the earliest — unless
    the first live id of the queue has been created again behind some other snapshot. -/
theorem evictsOldest_iff (maxSnapshots : Nat) (snapshotTtlMs : UInt64) (ops : List Op) :
    let sm := run maxSnapshots snapshotTtlMs ops
    sm.EvictsOldest (created ops) ↔ sm.map.keys.length < maxSnapshots ∨ sm.FrontSettled := by
  intro sm
  have hmax : sm.maxSnapshots = maxSnapshots := (stored_run maxSnapshots snapshotTtlMs ops).2
  have hstamped : Stamped sm.order (· ∈ sm.map) (created ops) ops.length :=
    stamped_run maxSnapshots snapshotTtlMs ops
  rcases Nat.lt_or_ge sm.map.keys.length maxSnapshots with hroom | hfull
  · have hsame : sm.room = (sm.map, sm.order) := if_neg (by omega)
    refine iff_of_true ?_ (.inl hroom)
    intro id hid hgone
    rw [hsame] at hgone
    exact absurd hid hgone
  · have hevict : sm.room.1 = (sm.order.find? (· ∈ sm.map)).elim sm.map fun id => sm.map.erase id := by
      rw [room, if_pos (by omega)]
      exact evictOldest_find sm.map sm.order
    rw [or_iff_right (by omega), EvictsOldest, FrontSettled, hevict]
    cases hfirst : sm.order.find? (· ∈ sm.map) with
    | none =>
      refine iff_of_true (fun id hid hgone => absurd hid hgone) ?_
      intro id hid
      cases hid
    | some first =>
      have hlive : first ∈ sm.map := by simpa using List.find?_some hfirst
      constructor
      · intro h id hid k hk hne
        obtain rfl : first = id := Option.some.inj hid
        have hgone : first ∉ sm.map.erase first := fun hmem => (AList.mem_erase.mp hmem).1 rfl
        exact (hstamped.behind_iff hlive hk).mpr (h first hlive hgone k hk hne)
      · intro h id hid hgone k hk hne
        obtain rfl : id = first := by
          by_contra hother
          exact hgone (AList.mem_erase.mpr ⟨hother, hid⟩)
        exact (hstamped.behind_iff hid hk).mp (h id rfl k hk hne)

/-- Two snapshots, of which the first is deleted and created again. -/
def recreated : List Op :=
  [.createSnapshot 0 [reading [1]] .nidd 7, .createSnapshot 1 [reading [2]] .nidd 7,
   .deleteSnapshot (generateSnapshotId [reading [1]] .nidd), .createSnapshot 2 [reading [1]] .nidd 7]

/-- **The snapshot just created goes, the older one stays**: the queue still has the first creation. -/
theorem recreated_evicted :
    let first := generateSnapshotId [reading [1]] .nidd
    let second := generateSnapshotId [reading [2]] .nidd
    let sm := run 2 300000 recreated
    created recreated second = 2 ∧ created recreated first = 4 ∧ first ∈ sm.map ∧ second ∈ sm.map ∧
      first ∉ sm.room.1 ∧ second ∈ sm.room.1 ∧ ¬ sm.EvictsOldest (created recreated) := by
  intro first second sm
  have hfacts : created recreated second = 2 ∧ created recreated first = 4 ∧ first ∈ sm.map ∧
      second ∈ sm.map ∧ first ∉ sm.room.1 ∧ second ∈ sm.room.1 := by decide +kernel
  obtain ⟨hsecond, hfirst, hlive, hother, hgone, hstays⟩ := hfacts
  refine ⟨hsecond, hfirst, hlive, hother, hgone, hstays, ?_⟩
  intro h
  have hne : second ≠ first := by
    rintro heq
    exact hgone (heq ▸ hstays)
  have hlt := h first hlive hgone second hother hne
  omega

/-! ## The length of the queue -/

/-- A snapshot is created and taken out again, `n` times over. -/
def rounds (create remove : Op) (n : Nat) : List Op := (List.replicate n [create, remove]).flatten

theorem rounds_succ (create remove : Op) (n : Nat) :
    rounds create remove (n + 1) = rounds create remove n ++ [create] ++ [remove] := by
  rw [rounds, List.replicate_succ', List.flatten_append, List.append_assoc]
  rfl

/-- If what was created is taken out each time, the map stays empty and the queue keeps all. -/
theorem order_rounds {maxSnapshots : Nat} (hmax : 0 < maxSnapshots) (snapshotTtlMs now : UInt64)
    (messages : List Message) (protocol : Protocol) (deviceId : UInt64) (remove : Op)
    (hremove : ∀ sm : SnapshotManager, sm.snapshotTtlMs = snapshotTtlMs →
      sm.map.entries = [⟨generateSnapshotId messages protocol, made now messages protocol deviceId⟩] →
      (sm.apply remove).map.entries = [] ∧ (sm.apply remove).order = sm.order ∧
      (sm.apply remove).snapshotTtlMs = snapshotTtlMs) (n : Nat) :
    let sm := run maxSnapshots snapshotTtlMs
      (rounds (.createSnapshot now messages protocol deviceId) remove n)
    sm.map.entries = [] ∧ sm.order.length = n ∧ sm.snapshotTtlMs = snapshotTtlMs := by
  induction n with
  | zero => exact ⟨rfl, rfl, rfl⟩
  | succ n ih =>
    obtain ⟨hempty, hlength, httl⟩ := ih
    intro sm
    have hmax' := (stored_run maxSnapshots snapshotTtlMs
      (rounds (.createSnapshot now messages protocol deviceId) remove n)).2
    have hsm : sm = ((run maxSnapshots snapshotTtlMs
        (rounds (.createSnapshot now messages protocol deviceId) remove n)).apply
          (.createSnapshot now messages protocol deviceId)).apply remove := by
      rw [← run_concat, ← run_concat, ← rounds_succ]
    generalize run maxSnapshots snapshotTtlMs
      (rounds (.createSnapshot now messages protocol deviceId) remove n) = before at *
    -- the map is empty, so the creation evicts nothing
    have hroom : before.room = (before.map, before.order) := by
      refine if_neg ?_
      rw [AList.keys, hempty, hmax']
      exact Nat.not_le.mpr hmax
    have hcreate : (before.apply (.createSnapshot now messages protocol deviceId)).map.entries =
        [⟨generateSnapshotId messages protocol, made now messages protocol deviceId⟩] := by
      show _ :: before.room.1.entries.kerase _ = _
      rw [hroom, hempty]
      rfl
    obtain ⟨hentries, horder, httl'⟩ :=
      hremove (before.apply (.createSnapshot now messages protocol deviceId)) httl hcreate
    rw [hsm]
    refine ⟨hentries, ?_, httl'⟩
    rw [horder]
    show (before.room.2 ++ [_]).length = n + 1
    rw [hroom, List.length_append, hlength, List.length_singleton]

/-- At capacity 0 every creation evicts, and leaves its own id alone in the queue. -/
theorem length_order_zero (snapshotTtlMs : UInt64) (ops : List Op) :
    (run 0 snapshotTtlMs ops).order.length ≤ 1 := by
  induction ops using List.reverseRecOn with
  | nil => exact Nat.zero_le _
  | append_singleton ops op ih =>
    have hmax := (stored_run 0 snapshotTtlMs ops).2
    rw [run_concat]
    rcases apply_cases (run 0 snapshotTtlMs ops) op with ⟨id, -, horder, -⟩ | ⟨-, horder, -⟩
    · have hroom : (run 0 snapshotTtlMs ops).room.2 = [] := by
        rw [room, if_pos (by rw [hmax]; exact Nat.zero_le _)]
        rcases evictOldest_cases (run 0 snapshotTtlMs ops).map (run 0 snapshotTtlMs ops).order with
          ⟨-, heq⟩ | ⟨ghosts, first, rest, hsplit, -, -, heq⟩
        · rw [heq]
        · rw [heq]
          rw [hsplit, List.length_append, List.length_cons] at ih
          exact List.length_eq_zero_iff.mp (show rest.length = 0 by omega)
      rw [horder, hroom]
      exact Nat.le_refl _
    · rw [horder]
      exact ih

/-- **No capacity but 0 bounds the queue.** -/
theorem queue_bounded_iff (maxSnapshots : Nat) :
    (∃ bound, ∀ snapshotTtlMs ops, (run maxSnapshots snapshotTtlMs ops).order.length ≤ bound) ↔
      maxSnapshots = 0 := by
  constructor
  · rintro ⟨bound, hbound⟩
    by_contra hne
    -- deletions work at any time to live
    have hlength := (order_rounds (Nat.pos_of_ne_zero hne) 0 0 [] .nidd 0
      (.deleteSnapshot (generateSnapshotId [] .nidd)) ?_ (bound + 1)).2.1
    · have := hbound 0 (rounds (.createSnapshot 0 [] .nidd 0)
        (.deleteSnapshot (generateSnapshotId [] .nidd)) (bound + 1))
      omega
    · intro sm httl hentries
      refine ⟨?_, rfl, httl⟩
      show (sm.map.entries.kerase _) = []
      rw [hentries]
      exact List.kerase_cons_eq rfl
  · rintro rfl
    exact ⟨1, length_order_zero⟩

/-- One device's snapshot, drained at once, `n` times over. -/
def drainedRounds (n : Nat) : List Op :=
  rounds (.createSnapshot 0 [reading [1]] .nidd 7) (.drainForUplink 1 7 0) n

/-- **A store that is drained after every snapshot** never holds more than one and has, after `n`
    rounds, all `n` ids in its queue; so no function of the capacity bounds it. -/
theorem drained_queue_grows :
    (∀ n, (run 100 300000 (drainedRounds n)).map.entries = [] ∧
      (run 100 300000 (drainedRounds n)).order.length = n) ∧
    ¬ ∃ bound : Nat → Nat, ∀ maxSnapshots snapshotTtlMs ops,
      (run maxSnapshots snapshotTtlMs ops).order.length ≤ bound maxSnapshots := by
  have hdrain : ∀ before : SnapshotManager, before.snapshotTtlMs = 300000 →
      before.map.entries = [⟨generateSnapshotId [reading [1]] .nidd, made 0 [reading [1]] .nidd 7⟩] →
      (before.apply (.drainForUplink 1 7 0)).map.entries = [] ∧
      (before.apply (.drainForUplink 1 7 0)).order = before.order ∧
      (before.apply (.drainForUplink 1 7 0)).snapshotTtlMs = 300000 := by
    intro before httl hentries
    refine ⟨?_, rfl, httl⟩
    have hdrained : before.forUplink 1 7 0 (made 0 [reading [1]] .nidd 7) = true := by
      rw [forUplink, unexpired, httl]
      decide
    show before.map.entries.filter (fun x => !before.forUplink 1 7 0 x.2) = []
    rw [hentries, List.filter_cons_of_neg (by rw [hdrained]; decide), List.filter_nil]
  have hrounds := order_rounds (show 0 < 100 by decide) 300000 0 [reading [1]] .nidd 7
    (.drainForUplink 1 7 0) hdrain
  refine ⟨fun n => ⟨(hrounds n).1, (hrounds n).2.1⟩, ?_⟩
  rintro ⟨bound, hbound⟩
  have hlength := (hrounds (bound 100 + 1)).2.1
  have hle := hbound 100 300000 (drainedRounds (bound 100 + 1))
  rw [drainedRounds] at hle
  omega

end SnapshotManager

end FloatProtocols
