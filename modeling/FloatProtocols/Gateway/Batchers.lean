/-
  `batcher.rs` and `transmission_batcher.rs`: the two batching tasks of the gateway.

  Both are the batching task of `Lib.Batching` with their own policy.  `AsyncBatcher` lets emergencies
  bypass the buffer and has two more triggers (`shouldFlush`); `TransmissionBatcher` has neither, and
  flushes when its channel closes.  That last line is the one `AsyncBatcher` lacks: what its buffer
  holds at the close is gone.
-/
import FloatProtocols.Protocol
import FloatProtocols.Lib.Batching

namespace FloatProtocols

open Batching

namespace AsyncBatcher

/-- `DEFAULT_SPREAD_FLUSH_THRESHOLD_MS`. -/
def defaultSpreadFlushThresholdMs : Int64 := 30000

/-- `should_flush`. -/
def shouldFlush (buffer : List Message) (spreadThresholdMs : Int64) : Bool :=
  let safetyCriticalCount := (buffer.filter fun m => m.priority == .safetyCritical).length
  if safetyCriticalCount ≥ 5 then true
  else buffer.any fun m => m.spreadMs > spreadThresholdMs

/-- `new_with_spread_threshold`: the task it spawns. -/
def newWithSpreadThreshold (maxBatchSize batchTimeout bufferSize : Nat) (spreadThresholdMs : Int64) :
    Policy Message where
  maxBatchSize := maxBatchSize
  batchTimeout := batchTimeout
  bufferSize := bufferSize
  bypass := Message.isEmergency
  urgent buffer := shouldFlush buffer spreadThresholdMs
  -- `None => break`
  flushOnClose := false

/-- `new`. -/
def new (maxBatchSize batchTimeout bufferSize : Nat) : Policy Message :=
  newWithSpreadThreshold maxBatchSize batchTimeout bufferSize defaultSpreadFlushThresholdMs

variable {maxBatchSize batchTimeout bufferSize : Nat} {spreadThresholdMs : Int64}

theorem shouldFlush_nil (spreadThresholdMs : Int64) : shouldFlush [] spreadThresholdMs = false := rfl

/-- Without an overflow, the spread is the difference of the two clocks. -/
theorem toInt_spreadMs {m : Message} (hsystem : m.tSystem.toNat < 2 ^ 63)
    (hevent : m.tEvent.toNat < 2 ^ 63) :
    m.spreadMs.toInt = (m.tSystem.toNat : Int) - m.tEvent.toNat := by
  have hcast : ∀ u : UInt64, u.toNat < 2 ^ 63 → u.toInt64.toInt = u.toNat := fun u hu =>
    BitVec.toInt_eq_toNat_of_lt (show 2 * u.toNat < 2 ^ 64 by omega)
  rw [Message.spreadMs, Int64.toInt_sub, hcast _ hsystem, hcast _ hevent]
  exact Int.bmod_eq_of_le (by omega) (by omega)

/-- What a buffer that need not be flushed does not hold. -/
theorem shouldFlush_eq_false {buffer : List Message}
    (h : shouldFlush buffer spreadThresholdMs = false) :
    (buffer.filter fun m => m.priority == .safetyCritical).length < 5 ∧
    ∀ m ∈ buffer, m.spreadMs ≤ spreadThresholdMs := by
  rw [shouldFlush] at h
  split at h
  · cases h
  · rename_i hcount
    refine ⟨Nat.not_le.mp hcount, ?_⟩
    intro m hm
    rw [List.any_eq_false] at h
    exact Int64.not_lt.mp fun hspread => h m hm (decide_eq_true hspread)

theorem inv_run {start : Nat} {as : List (Act Message)} {t : Batcher Message}
    (h : Trace.run (Batcher.step (newWithSpreadThreshold maxBatchSize batchTimeout bufferSize
      spreadThresholdMs)) (Batcher.start start) as = some t) :
    Batcher.Inv (newWithSpreadThreshold maxBatchSize batchTimeout bufferSize spreadThresholdMs) t :=
  Batcher.Inv.run (shouldFlush_nil spreadThresholdMs) h

/-- **The batcher at every point of every run**: order, emergencies alone and at once, batch sizes,
    and a buffer with nothing in it that should have left.  The spread is that of the two clocks as
    `i64`; for clocks below `2 ^ 63`, it is their difference. -/
theorem async_batcher_accounts (maxBatchSize batchTimeout bufferSize : Nat)
    (spreadThresholdMs : Int64) (start : Nat) (as : List (Act Message)) (t : Batcher Message)
    (h : Trace.run (Batcher.step (newWithSpreadThreshold maxBatchSize batchTimeout bufferSize
      spreadThresholdMs)) (Batcher.start start) as = some t) :
    t.emitted.flatten.filter (fun m => !m.isEmergency) ++ t.buffer =
      t.received.filter (fun m => !m.isEmergency) ∧
    t.emitted.filter (fun batch => batch.any Message.isEmergency) =
      (t.received.filter Message.isEmergency).map ([·]) ∧
    (∀ now later m u, t.queue.head? = some m → m.isEmergency = true →
      t.step (newWithSpreadThreshold maxBatchSize batchTimeout bufferSize spreadThresholdMs)
        (.recv now later) = some u →
      u.emitted = t.emitted ++ [[m]] ∧ u.buffer = t.buffer) ∧
    (∀ batch ∈ t.emitted, batch ≠ [] ∧ batch.length ≤ max 1 maxBatchSize) ∧
    t.buffer.length < max 1 maxBatchSize ∧
    (t.buffer.filter fun m => m.priority == .safetyCritical).length < 5 ∧
    ∀ m ∈ t.buffer, m.tSystem.toInt64 - m.tEvent.toInt64 ≤ spreadThresholdMs ∧
      (m.tSystem.toNat < 2 ^ 63 → m.tEvent.toNat < 2 ^ 63 →
        (m.tSystem.toNat : Int) - m.tEvent.toNat ≤ spreadThresholdMs.toInt) := by
  have hinv := inv_run h
  obtain ⟨hcount, hspread⟩ := shouldFlush_eq_false hinv.calm
  refine ⟨hinv.ordered, hinv.alone, ?_, hinv.sized, hinv.short, hcount, fun m hm => ⟨hspread m hm, ?_⟩⟩
  · intro now later m u hqueue hemergency hstep
    exact Batcher.step_recv_bypass hemergency hqueue hstep
  · intro hsystem hevent
    rw [← toInt_spreadMs hsystem hevent]
    exact Int64.le_iff_toInt_le.mp (hspread m hm)

/-- A reading of the given priority. -/
def reading (priority : Priority) : Message := .newWithTemporal .nidd [1] priority 0 0

/-- An operational reading waits, an emergency overtakes it. -/
def overtaken : List (Act Message) :=
  [.send (reading .operational), .recv 0 0, .send (reading .emergency), .recv 1 1]

theorem async_batcher_accounts_overtaken :
    ∃ t, Trace.run (Batcher.step (new 10 100 8)) (Batcher.start 0) overtaken = some t ∧
      t.emitted = [[reading .emergency]] ∧ t.buffer.length < max 1 10 :=
  ⟨_, rfl, rfl, (async_batcher_accounts 10 100 8 defaultSpreadFlushThresholdMs 0 overtaken _
    rfl).2.2.2.2.1⟩

/-- **A closing batcher delivers everything exactly if its buffer is empty.** -/
theorem async_batcher_delivers_iff (maxBatchSize batchTimeout bufferSize : Nat)
    (spreadThresholdMs : Int64) (start : Nat) (as : List (Act Message)) (t u : Batcher Message)
    (h : Trace.run (Batcher.step (newWithSpreadThreshold maxBatchSize batchTimeout bufferSize
      spreadThresholdMs)) (Batcher.start start) as = some t)
    (hclose : t.step (newWithSpreadThreshold maxBatchSize batchTimeout bufferSize spreadThresholdMs)
      .close = some u) :
    u.emitted.flatten.Perm u.sent ↔ t.buffer = [] :=
  Batcher.closed_perm_iff (inv_run h) rfl hclose

/-- The reading leaves with the timer, then the channel closes. -/
def timedOut : List (Act Message) := [.send (reading .operational), .recv 0 0, .timer 100 100]

theorem async_batcher_delivers_iff_timedOut :
    ∃ t u, Trace.run (Batcher.step (new 10 100 8)) (Batcher.start 0) timedOut = some t ∧
      t.step (new 10 100 8) .close = some u ∧ u.emitted.flatten.Perm u.sent :=
  ⟨_, _, rfl, rfl, (async_batcher_delivers_iff 10 100 8 defaultSpreadFlushThresholdMs 0 timedOut _ _
    rfl rfl).mpr rfl⟩

/-- One reading in the buffer, and the channel closes: the task ends and no batch was sent. -/
theorem reading_lost_at_close :
    ∃ u, Trace.run (Batcher.step (new 10 100 8)) (Batcher.start 0)
        [.send (reading .operational), .recv 0 0, .close] = some u ∧
      u.closed = true ∧ u.sent = [reading .operational] ∧ u.emitted = [] :=
  ⟨_, rfl, rfl, rfl, rfl⟩

end AsyncBatcher

namespace TransmissionBatcher

/-- `new`: the task it spawns. -/
def new (maxBatchSize batchTimeout bufferSize : Nat) : Policy Message where
  maxBatchSize := maxBatchSize
  batchTimeout := batchTimeout
  bufferSize := bufferSize
  bypass _ := false
  urgent _ := false
  flushOnClose := true

/-- **Nothing is lost, doubled or reordered**: the batches run on one behind the other are always a
    prefix of what was enqueued, and all of it at the end. -/
theorem transmission_batcher_delivers (maxBatchSize batchTimeout bufferSize start : Nat)
    (as : List (Act Message)) (t : Batcher Message)
    (h : Trace.run (Batcher.step (new maxBatchSize batchTimeout bufferSize)) (Batcher.start start) as =
      some t) :
    (∀ batch ∈ t.emitted, batch ≠ [] ∧ batch.length ≤ max 1 maxBatchSize) ∧
    t.emitted.flatten <+: t.sent ∧
    (t.closed = true → t.emitted.flatten = t.sent) := by
  have hinv : Batcher.Inv (new maxBatchSize batchTimeout bufferSize) t := Batcher.Inv.run rfl h
  have hreceived : t.emitted.flatten ++ t.buffer = t.received := by
    have hordered := hinv.ordered
    simp only [new, Bool.not_false, List.filter_true] at hordered
    exact hordered
  have hsent : t.emitted.flatten ++ (t.buffer ++ t.queue) = t.sent := by
    rw [← List.append_assoc, hreceived]
    exact hinv.passed
  refine ⟨hinv.sized, ⟨_, hsent⟩, ?_⟩
  intro hclosed
  obtain ⟨hqueue, hbuffer⟩ := hinv.drained hclosed
  rw [← hsent, hqueue, hbuffer rfl, List.append_nil, List.append_nil]

/-- Two messages in batches of two, a third flushed by the close. -/
def closing : List (Act Message) :=
  [.send (AsyncBatcher.reading .operational), .send (AsyncBatcher.reading .diagnostic), .recv 0 0,
   .recv 1 1, .send (AsyncBatcher.reading .operational), .recv 2 2, .close]

theorem transmission_batcher_delivers_closing :
    ∃ t, Trace.run (Batcher.step (new 2 100 8)) (Batcher.start 0) closing = some t ∧
      t.emitted.length = 2 ∧ t.emitted.flatten = t.sent :=
  ⟨_, rfl, rfl, (transmission_batcher_delivers 2 100 8 0 closing _ rfl).2.2 rfl⟩

end TransmissionBatcher

end FloatProtocols
