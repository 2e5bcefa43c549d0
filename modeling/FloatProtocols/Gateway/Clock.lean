/-
  `clock_reconciliation.rs`: from device time to network time.

  1. **Program** — an offset is used while it is fresh; the corrected time is refused when it would be
     negative.  Differences are `i64` and wrap.  A full reconciler gives up its stalest device for a new
     one; which of several equally stale ones depends on the order of the hash map, which is an argument
     (`Iteration`).

  2. **The arithmetic (`sub_calculateOffset`)** — two casts and two subtractions may each overflow, and cancel:
     modulo 2⁶⁴ the corrected time is the network time plus what has passed on the device.

  3. **The table (`length_offsets_le`)** — a removal makes room before a new device comes in, and the
     device that comes in is never the one removed.
-/
import Mathlib.Data.List.AList
import Mathlib.Data.List.Induction
import FloatProtocols.Lib.Selection
import FloatProtocols.Storage.Cache

namespace FloatProtocols

/-- `ClockOffset`, without the confidence that only `reconcile_with_confidence` reads. -/
structure ClockOffset where
  deviceId : UInt64
  offsetMs : Int64
  lastUpdated : UInt64
  deriving DecidableEq, Repr

/-- `is_stale`; the age wraps when the clock has gone back. -/
def ClockOffset.isStale (o : ClockOffset) (now maxAgeMs : UInt64) : Bool :=
  now - o.lastUpdated > maxAgeMs

/-- `ClockReconciler`. -/
structure ClockReconciler where
  offsets : AList fun _ : UInt64 => ClockOffset
  maxOffsets : Nat
  maxAgeMs : UInt64

namespace ClockReconciler

/-- `ClockReconciler::new`. -/
def new (maxOffsets : Nat) (maxAgeMs : UInt64) : ClockReconciler := { offsets := ∅, maxOffsets, maxAgeMs }

/-- An order in which the entries of the hash map come. -/
structure Iteration where
  order : List (Sigma fun _ : UInt64 => ClockOffset) → List (Sigma fun _ : UInt64 => ClockOffset)
  perm : ∀ entries, (order entries).Perm entries

/-- The stalest entry is removed when a new device finds the table full. -/
def room (r : ClockReconciler) (it : Iteration) (deviceId : UInt64) :
    AList fun _ : UInt64 => ClockOffset :=
  if r.offsets.keys.length ≥ r.maxOffsets ∧ deviceId ∉ r.offsets then
    match Selection.minByKey (fun e => e.2.lastUpdated.toNat) (it.order r.offsets.entries) with
    | some e => r.offsets.erase e.1
    | none => r.offsets
  else r.offsets

/-- `register_offset`. -/
def registerOffset (r : ClockReconciler) (it : Iteration) (offset : ClockOffset) : ClockReconciler :=
  { r with offsets := (r.room it offset.deviceId).insert offset.deviceId offset }

/-- `calculate_offset`. -/
def calculateOffset (_deviceId deviceTimestampMs networkTimestampMs : UInt64) : Int64 :=
  deviceTimestampMs.toInt64 - networkTimestampMs.toInt64

/-- `update_offsets`. -/
def updateOffsets (r : ClockReconciler) (now : UInt64) : ClockReconciler :=
  { r with offsets :=
      { entries := r.offsets.entries.filter fun e => !e.2.isStale now r.maxAgeMs
        nodupKeys := r.offsets.nodupKeys.sublist List.filter_sublist } }

/-- `get_offset`. -/
def getOffset (r : ClockReconciler) (now deviceId : UInt64) : Option ClockOffset :=
  (r.offsets.lookup deviceId).filter fun o => !o.isStale now r.maxAgeMs

/-- `reconcile`. -/
def reconcile (r : ClockReconciler) (now deviceId deviceTimestampMs : UInt64) : Option UInt64 := do
  let offset ← r.getOffset now deviceId
  let networkTimeMs := deviceTimestampMs.toInt64 - offset.offsetMs
  if networkTimeMs < 0 then none else some networkTimeMs.toUInt64

/-- The gateway's use of it: the payload's hash stands in for the device. -/
def correct (r : ClockReconciler) (now : UInt64) (msg : Message) : Message :=
  match r.reconcile now (AsyncCache.hashData msg.data) msg.tEvent with
  | some corrected => { msg with tEvent := corrected }
  | none => msg

/-! ## Calibrated devices -/

/-- A device that has moved on by as much as the network reads the network's time. -/
theorem sub_calculateOffset {id dev net t u : UInt64} {k : Int} (ht : (t.toNat : Int) = dev.toNat + k)
    (hu : (u.toNat : Int) = net.toNat + k) :
    t.toInt64 - calculateOffset id dev net = u.toInt64 := by
  have hshift : t = u + (dev - net) := by
    rw [← UInt64.toNat_inj, UInt64.toNat_add, UInt64.toNat_sub]
    have := t.toNat_lt
    have := dev.toNat_lt
    have := net.toNat_lt
    omega
  rw [calculateOffset, ← UInt64.toInt64_sub, ← UInt64.toInt64_sub, hshift, UInt64.add_sub_cancel]

theorem toInt64_nonneg {u : UInt64} (h : u.toNat < 2 ^ 63) : ¬ u.toInt64 < 0 := by
  have hcast : u.toInt64.toInt = u.toNat := BitVec.toInt_eq_toNat_of_lt (show 2 * u.toNat < 2 ^ 64 by omega)
  rw [Int64.lt_iff_toInt_lt, hcast]
  exact Int.not_lt.mpr (Int.natCast_nonneg _)

/-- What is registered is found, while it is fresh. -/
theorem getOffset_registerOffset (r : ClockReconciler) (it : Iteration) {o : ClockOffset} {now : UInt64}
    (hfresh : o.isStale now r.maxAgeMs = false) :
    (r.registerOffset it o).getOffset now o.deviceId = some o := by
  show (((r.room it o.deviceId).insert o.deviceId o).lookup o.deviceId).filter _ = _
  rw [AList.lookup_insert]
  exact Option.filter_eq_some_iff.mpr ⟨rfl, by rw [Bool.not_eq_true']; exact hfresh⟩

/-! ## The table -/

/-- A full table has a stalest entry, in whatever order the map is read. -/
theorem exists_stalest {r : ClockReconciler} (it : Iteration) (hne : r.offsets.entries ≠ []) :
    ∃ e ∈ r.offsets.entries,
      Selection.minByKey (fun e => e.2.lastUpdated.toNat) (it.order r.offsets.entries) = some e := by
  have hperm := it.perm r.offsets.entries
  have hne' : it.order r.offsets.entries ≠ [] := fun h => hne (List.nil_perm.mp (h ▸ hperm))
  obtain ⟨e, he⟩ := Option.ne_none_iff_exists'.mp fun h => hne' (Selection.reduce_eq_none_iff.mp h)
  exact ⟨e, hperm.mem_iff.mp ((Selection.keeps_min _).reduce _ e he).1, he⟩

/-- After the removal there is a place for the device. -/
theorem length_room_lt {r : ClockReconciler} (it : Iteration) (id : UInt64) (hpos : 1 ≤ r.maxOffsets)
    (hlen : r.offsets.keys.length ≤ r.maxOffsets) :
    ((r.room it id).keys.erase id).length < r.maxOffsets := by
  rw [room]
  split
  · -- a new device, and the table is full
    rename_i hfull
    have hne : r.offsets.entries ≠ [] := by
      intro hnil
      rw [AList.keys, hnil] at hfull
      exact absurd (Nat.le_trans hpos hfull.1) (Nat.not_succ_le_zero 0)
    obtain ⟨e, he, hmin⟩ := exists_stalest it hne
    have hkey : e.1 ∈ r.offsets.keys := List.mem_map_of_mem he
    rw [hmin]
    have hshort : (r.offsets.keys.erase e.1).length = r.offsets.keys.length - 1 :=
      List.length_erase_of_mem hkey
    have hle := List.length_erase_le (a := id) (l := r.offsets.keys.erase e.1)
    have hcount := List.length_pos_of_mem hkey
    show ((r.offsets.erase e.1).keys.erase id).length < r.maxOffsets
    rw [AList.keys_erase]
    omega
  · rename_i hroom
    by_cases hid : id ∈ r.offsets
    · have hcount := List.length_pos_of_mem (show id ∈ r.offsets.keys from hid)
      rw [List.length_erase_of_mem hid]
      omega
    · have hshort : r.offsets.keys.length < r.maxOffsets := by
        by_contra hge
        exact hroom ⟨Nat.le_of_not_lt hge, hid⟩
      exact Nat.lt_of_le_of_lt List.length_erase_le hshort

/-- What changes a reconciler. -/
inductive Call where
  | registerOffset (it : Iteration) (offset : ClockOffset)
  | updateOffsets (now : UInt64)

/-- One call. -/
def apply (r : ClockReconciler) : Call → ClockReconciler
  | .registerOffset it offset => r.registerOffset it offset
  | .updateOffsets now => r.updateOffsets now

/-- The reconciler after a sequence of calls. -/
def after (maxOffsets : Nat) (maxAgeMs : UInt64) (calls : List Call) : ClockReconciler :=
  calls.foldl apply (new maxOffsets maxAgeMs)

theorem after_concat (maxOffsets : Nat) (maxAgeMs : UInt64) (calls : List Call) (call : Call) :
    after maxOffsets maxAgeMs (calls ++ [call]) = (after maxOffsets maxAgeMs calls).apply call :=
  List.foldl_concat _ _ _ _

/-- Nothing is added but by a registration, which makes room first. -/
theorem length_apply_le {r : ClockReconciler} (call : Call) (hpos : 1 ≤ r.maxOffsets)
    (hlen : r.offsets.keys.length ≤ r.maxOffsets) :
    (r.apply call).offsets.keys.length ≤ r.maxOffsets := by
  cases call with
  | registerOffset it offset =>
    show ((r.room it offset.deviceId).insert _ _).keys.length ≤ _
    rw [AList.keys_insert, List.length_cons]
    exact length_room_lt it offset.deviceId hpos hlen
  | updateOffsets now =>
    refine Nat.le_trans ?_ hlen
    exact (List.filter_sublist.map Sigma.fst).length_le

theorem apply_config (r : ClockReconciler) (call : Call) :
    (r.apply call).maxOffsets = r.maxOffsets ∧ (r.apply call).maxAgeMs = r.maxAgeMs := by
  cases call <;> exact ⟨rfl, rfl⟩

/-- **The table stays within its bound**, by induction on the calls. -/
theorem length_offsets_le {maxOffsets : Nat} (hpos : 1 ≤ maxOffsets) (maxAgeMs : UInt64)
    (calls : List Call) :
    let r := after maxOffsets maxAgeMs calls
    (r.maxOffsets = maxOffsets ∧ r.maxAgeMs = maxAgeMs) ∧ r.offsets.keys.length ≤ maxOffsets := by
  induction calls using List.reverseRecOn with
  | nil => exact ⟨⟨rfl, rfl⟩, Nat.zero_le _⟩
  | append_singleton calls call ih =>
    obtain ⟨⟨hmax, hage⟩, hlen⟩ := ih
    have hconfig := apply_config (after maxOffsets maxAgeMs calls) call
    have hstep := length_apply_le (r := after maxOffsets maxAgeMs calls) call
      (by rw [hmax]; exact hpos) (by rw [hmax]; exact hlen)
    rw [hmax] at hstep
    rw [after_concat]
    exact ⟨⟨hconfig.1.trans hmax, hconfig.2.trans hage⟩, hstep⟩

/-- **A calibrated device.**  After any calls, a device whose offset has just been computed from a pair
    of readings gets the network's time for its own, on both sides of the pair and past every overflow
    in between; at most `max_offsets` devices are known, the one just registered among them. -/
theorem calibrated (maxOffsets : Nat) (maxAgeMs : UInt64) (calls : List Call) (hpos : 1 ≤ maxOffsets) :
    let r := after maxOffsets maxAgeMs calls
    (∀ (it : Iteration) (id dev net lastUpdated now t u : UInt64) (k : Int),
      (t.toNat : Int) = dev.toNat + k → (u.toNat : Int) = net.toNat + k → u.toNat < 2 ^ 63 →
      ClockOffset.isStale ⟨id, calculateOffset id dev net, lastUpdated⟩ now maxAgeMs = false →
      (r.registerOffset it ⟨id, calculateOffset id dev net, lastUpdated⟩).reconcile now id t = some u) ∧
    r.offsets.keys.length ≤ maxOffsets ∧
    ∀ it o, calls.getLast? = some (.registerOffset it o) → o.deviceId ∈ r.offsets := by
  intro r
  obtain ⟨⟨-, hage⟩, hlen⟩ := length_offsets_le hpos maxAgeMs calls
  refine ⟨?_, hlen, ?_⟩
  · intro it id dev net lastUpdated now t u k ht hu hsmall hfresh
    have hget := getOffset_registerOffset r it (o := ⟨id, calculateOffset id dev net, lastUpdated⟩)
      (hage ▸ hfresh)
    rw [reconcile, hget]
    show (if t.toInt64 - calculateOffset id dev net < 0 then none else _) = _
    rw [sub_calculateOffset ht hu, if_neg (toInt64_nonneg hsmall), UInt64.toUInt64_toInt64]
  · intro it o hlast
    obtain ⟨before, rfl⟩ := List.getLast?_eq_some_iff.mp hlast
    show o.deviceId ∈ (after maxOffsets maxAgeMs (before ++ [.registerOffset it o])).offsets
    rw [after_concat]
    exact (AList.mem_insert _).mpr (.inl rfl)

/-- The map's own order. -/
def Iteration.asStored : Iteration := ⟨id, fun _ => .refl _⟩

/-- A network time beyond i64, read ten milliseconds earlier on the device; the table holds one device,
    and it was another one. -/
theorem calibrated_wrapped :
    let o : ClockOffset := ⟨7, calculateOffset 7 10 0x8000000000000005, 1000⟩
    ((after 1 3600000 [.registerOffset .asStored ⟨3, 0, 5⟩]).registerOffset .asStored o).reconcile 1000 7 0 =
      some 0x7FFFFFFFFFFFFFFB :=
  (calibrated 1 3600000 [.registerOffset .asStored ⟨3, 0, 5⟩] (by decide)).1 .asStored 7 10
    0x8000000000000005 1000 1000 0 0x7FFFFFFFFFFFFFFB (-10) (by decide) (by decide) (by decide) (by decide)

end ClockReconciler

end FloatProtocols
