/-
  `dynamic_buffer.rs`: a buffer that grows up to a maximum.

  1. **Program** — `write` replaces the contents.  If they do not fit it reserves, before clearing the old
     ones, as much as the new ones take, rounded up to a power of two and cut at the maximum; and a
     reservation is counted from the end of what is still there.

  2. **The bound (`capacity_bounded_iff`)** — one write stays within the maximum exactly if it does not grow, or
     the old contents and the reservation fit together (`capacity_write_le_iff`).  So whether a run
     does is a question to each growing write about the write before it.
-/
import Mathlib.Data.List.Induction
import Mathlib.Data.Nat.Log
import FloatProtocols.Lib.Exec
import FloatProtocols.Lib.GrowVec

namespace FloatProtocols

open Wire

/-- `BufferError`. -/
inductive BufferError where
  | tooLarge (requested max : Nat)
  | allocationFailed
  | invalidSize
  deriving DecidableEq, Repr

/-- `DynamicBuffer`. -/
structure DynamicBuffer where
  buffer : GrowVec UInt8
  maxCapacity : Nat

namespace DynamicBuffer

/-- `DynamicBuffer::new`. -/
def new (initialCapacity maxCapacity : Nat) : Except BufferError DynamicBuffer :=
  if initialCapacity > maxCapacity then .error (.tooLarge initialCapacity maxCapacity)
  else .ok { buffer := .withCapacity initialCapacity, maxCapacity }

/-- `next_power_of_two`. -/
def nextPowerOfTwo (n : Nat) : Nat := 2 ^ Nat.clog 2 n

/-- What a write of `data` reserves when it grows. -/
def newCap (b : DynamicBuffer) (data : Bytes) : Nat := min (nextPowerOfTwo data.length) b.maxCapacity

/-- `write`. -/
def write (b : DynamicBuffer) (data : Bytes) : Except BufferError Unit × DynamicBuffer :=
  if data.length > b.maxCapacity then (.error (.tooLarge data.length b.maxCapacity), b)
  else
    let buffer := if data.length > b.buffer.capacity then b.buffer.reserve (b.newCap data) else b.buffer
    (.ok (), { b with buffer := buffer.clear.extend data })

/-- `as_slice`. -/
def asSlice (b : DynamicBuffer) : Bytes := b.buffer.contents

/-- `len`. -/
def len (b : DynamicBuffer) : Nat := b.buffer.contents.length

/-- `capacity`. -/
def capacity (b : DynamicBuffer) : Nat := b.buffer.capacity

/-- `clear`. -/
def clear (b : DynamicBuffer) : DynamicBuffer := { b with buffer := b.buffer.clear }

/-- `reset`. -/
def reset (b : DynamicBuffer) (initialCapacity : Nat) : Except BufferError Unit × DynamicBuffer :=
  if initialCapacity > b.maxCapacity then (.error (.tooLarge initialCapacity b.maxCapacity), b)
  else (.ok (), { b with buffer := .withCapacity initialCapacity })

/-! ## One write -/

/-- A write that is accepted and does not fit. -/
def Grows (b : DynamicBuffer) (data : Bytes) : Prop :=
  b.capacity < data.length ∧ data.length ≤ b.maxCapacity

variable {b : DynamicBuffer} {data : Bytes}

/-- What is reserved is enough for the data. -/
theorem length_le_newCap (h : data.length ≤ b.maxCapacity) : data.length ≤ b.newCap data :=
  Nat.le_min.mpr ⟨Nat.le_pow_clog (by decide) _, h⟩

theorem write_of_too_large (h : b.maxCapacity < data.length) :
    b.write data = (.error (.tooLarge data.length b.maxCapacity), b) := if_pos h

theorem write_of_le (h : data.length ≤ b.maxCapacity) :
    b.write data = (.ok (), { b with buffer :=
      (if b.capacity < data.length then b.buffer.reserve (b.newCap data) else b.buffer).clear.extend data }) :=
  if_neg (Nat.not_lt.mpr h)

/-- A write that grows adds its reservation to what the buffer still holds. -/
theorem capacity_write_of_grows (h : b.Grows data) :
    (b.write data).2.capacity = max b.capacity (b.len + b.newCap data) := by
  have hbig : data.length ≤ (b.buffer.reserve (b.newCap data)).capacity := by
    refine Nat.le_trans (length_le_newCap h.2) ?_
    exact Nat.le_trans (Nat.le_add_left _ _) (Nat.le_max_right _ _)
  rw [write_of_le h.2, if_pos h.1]
  exact GrowVec.capacity_extend_clear hbig

theorem capacity_write_of_not_grows (h : ¬ b.Grows data) : (b.write data).2.capacity = b.capacity := by
  rcases Nat.lt_or_ge b.maxCapacity data.length with hlarge | hle
  · rw [write_of_too_large hlarge]
  · have hfits : data.length ≤ b.capacity := Nat.le_of_not_lt fun hlt => h ⟨hlt, hle⟩
    rw [write_of_le hle, if_neg (Nat.not_lt.mpr hfits)]
    exact GrowVec.capacity_extend_clear hfits

/-- **One write stays within the maximum** exactly if it does not grow or has room to. -/
theorem capacity_write_le_iff (hb : b.capacity ≤ b.maxCapacity) :
    (b.write data).2.capacity ≤ b.maxCapacity ↔
      (b.Grows data → b.len + b.newCap data ≤ b.maxCapacity) := by
  by_cases h : b.Grows data
  · rw [capacity_write_of_grows h, Nat.max_le, and_iff_right hb]
    exact ⟨fun hle _ => hle, fun hle => hle h⟩
  · rw [capacity_write_of_not_grows h]
    exact iff_of_true hb fun hgrows => absurd hgrows h

/-! ## Runs -/

/-- What changes a buffer. -/
inductive Op where
  | write (data : Bytes)
  | clear
  | reset (initialCapacity : Nat)

/-- One call. -/
def apply (b : DynamicBuffer) : Op → DynamicBuffer
  | .write data => (b.write data).2
  | .clear => b.clear
  | .reset initialCapacity => (b.reset initialCapacity).2

/-- The buffer after a run. -/
def after (b : DynamicBuffer) (ops : List Op) : DynamicBuffer := ops.foldl apply b

theorem after_concat (b : DynamicBuffer) (ops : List Op) (op : Op) :
    b.after (ops ++ [op]) = (b.after ops).apply op := List.foldl_concat _ _ _ _

theorem maxCapacity_apply (b : DynamicBuffer) (op : Op) : (b.apply op).maxCapacity = b.maxCapacity := by
  cases op with
  | write data =>
    show (b.write data).2.maxCapacity = _
    rw [write]
    split <;> rfl
  | clear => rfl
  | reset n =>
    show (b.reset n).2.maxCapacity = _
    rw [reset]
    split <;> rfl

/-- Clearing and resetting never pass the maximum. -/
theorem capacity_apply_le {op : Op} (hb : b.capacity ≤ b.maxCapacity)
    (hwrite : ∀ data, op = .write data → b.Grows data → b.len + b.newCap data ≤ b.maxCapacity) :
    (b.apply op).capacity ≤ b.maxCapacity := by
  cases op with
  | write data => exact (capacity_write_le_iff hb).mpr (hwrite data rfl)
  | clear => exact hb
  | reset n =>
    show (b.reset n).2.capacity ≤ _
    rw [reset]
    split
    · exact hb
    · rename_i hle
      exact Nat.le_of_not_lt hle

/-- **When the capacity stays within the maximum.**  In every run of a buffer that was made, at every
    moment, exactly if every write that grows finds contents short enough for its reservation; and a
    refused write changes nothing. -/
theorem capacity_bounded_iff (initialCapacity maxCapacity : Nat) (b : DynamicBuffer)
    (hnew : new initialCapacity maxCapacity = .ok b) (ops : List Op) :
    ((∀ before, before <+: ops → (b.after before).capacity ≤ (b.after before).maxCapacity) ↔
      ∀ before data, before ++ [.write data] <+: ops → (b.after before).Grows data →
        (b.after before).len + (b.after before).newCap data ≤ (b.after before).maxCapacity) ∧
    ∀ before data e, before ++ [.write data] <+: ops → ((b.after before).write data).1 = .error e →
      (b.after (before ++ [.write data])) = b.after before := by
  have hstart : b.capacity ≤ b.maxCapacity := by
    rw [new] at hnew
    split at hnew
    · cases hnew
    · rename_i hle
      cases hnew
      exact Nat.le_of_not_lt hle
  refine ⟨⟨?_, ?_⟩, ?_⟩
  · intro hbounded before data hprefix
    have hbefore := hbounded before ((List.prefix_append _ _).trans hprefix)
    have hafter := hbounded _ hprefix
    rw [after_concat, maxCapacity_apply] at hafter
    exact (capacity_write_le_iff hbefore).mp hafter
  · intro hwrites before
    induction before using List.reverseRecOn with
    | nil => exact fun _ => hstart
    | append_singleton before op ih =>
      intro hprefix
      have hbefore := ih ((List.prefix_append _ _).trans hprefix)
      rw [after_concat, maxCapacity_apply]
      refine capacity_apply_le hbefore ?_
      rintro data rfl
      exact hwrites before data hprefix
  · intro before data e _ herror
    rw [after_concat]
    show ((b.after before).write data).2 = _
    rcases Nat.lt_or_ge (b.after before).maxCapacity data.length with hlarge | hle
    · rw [write_of_too_large hlarge]
    · rw [write_of_le hle] at herror
      cases herror

/-- Five bytes in an empty buffer of at most eight. -/
theorem capacity_bounded_iff_five :
    ∃ b, new 0 8 = .ok b ∧ ∀ before, before <+: [Op.write [1, 2, 3, 4, 5]] →
      (b.after before).capacity ≤ (b.after before).maxCapacity := by
  refine ⟨_, rfl, (capacity_bounded_iff 0 8 _ rfl [.write [1, 2, 3, 4, 5]]).1.mpr ?_⟩
  rintro before data ⟨rest, hops⟩ -
  cases before with
  | nil =>
    obtain ⟨hop, -⟩ := List.cons.inj hops
    obtain rfl := Op.write.inj hop
    decide
  | cons op before =>
    obtain ⟨-, hrest⟩ := List.cons.inj hops
    simp at hrest

/-- **Past the maximum**: four bytes in a buffer of four, then five: the eight that are reserved come on
    top of the four. -/
theorem capacity_exceeds_max :
    ∃ b, new 4 8 = .ok b ∧
      (b.after [.write [1, 2, 3, 4], .write [1, 2, 3, 4, 5]]).capacity = 12 ∧
      (b.after [.write [1, 2, 3, 4], .write [1, 2, 3, 4, 5]]).maxCapacity = 8 :=
  ⟨_, rfl, by decide, by decide⟩

end DynamicBuffer

end FloatProtocols
