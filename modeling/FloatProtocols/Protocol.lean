/-
  `protocol.rs`: the nine protocols, the message every component passes on, and its constraints.

  A `Message` carries its payload and three u64 clocks.  `new` cuts an oversized payload at the
  protocol's limit; `newWithTemporal` takes payload and clocks as they are.  `spreadMs` is i64
  arithmetic of the release profile: the two casts reinterpret, the subtraction wraps.
-/
import FloatProtocols.Lib.Bytes

namespace FloatProtocols

open Wire

/-- `Protocol`. -/
inductive Protocol where
  | iridiumSBD
  | inmarsatC
  | vsat
  | hfvhf
  | rockBLOCK
  | samsara
  | nidd
  | astSpaceMobile
  | loRaMesh
  deriving DecidableEq, Repr

/-- `Priority`. -/
inductive Priority where
  | emergency
  | safetyCritical
  | operational
  | diagnostic
  deriving DecidableEq, Repr

namespace Protocol

/-- `max_message_size`. -/
def maxMessageSize : Protocol → Nat
  | iridiumSBD => 340
  | inmarsatC => 128
  | vsat => 65536
  | hfvhf => 1024
  | rockBLOCK => 340
  | samsara => 1048576
  | nidd => 1600
  | astSpaceMobile => 120000000
  | loRaMesh => 250

/-- `spread_burst_threshold_ms`. -/
def spreadBurstThresholdMs : Protocol → Int64
  | samsara => 5000
  | iridiumSBD => 120000
  | rockBLOCK => 120000
  | inmarsatC => 300000
  | vsat => 3000
  | hfvhf => 30000
  | nidd => 10000
  | astSpaceMobile => 1000
  | loRaMesh => 60000

/-- `Display for Protocol`. -/
def display : Protocol → String
  | iridiumSBD => "IridiumSBD"
  | inmarsatC => "InmarsatC"
  | vsat => "VSAT"
  | hfvhf => "HFVHF"
  | rockBLOCK => "RockBLOCK"
  | samsara => "Samsara"
  | nidd => "NIDD"
  | astSpaceMobile => "ASTSpaceMobile"
  | loRaMesh => "LoRaMesh"

/-- `protocol as u64`: the variants are numbered in order. -/
def discriminant (p : Protocol) : UInt64 := .ofNat p.ctorIdx

end Protocol

/-- `Message`. -/
structure Message where
  protocol : Protocol
  data : Bytes
  priority : Priority
  timestamp : UInt64
  tEvent : UInt64
  tSystem : UInt64
  deriving DecidableEq, Repr

namespace Message

/-- `Message::new`, with the clock reading as an argument. -/
def new (protocol : Protocol) (data : Bytes) (priority : Priority) (now : UInt64) : Message :=
  let maxSize := protocol.maxMessageSize
  let data := if data.length > maxSize then data.take maxSize else data
  { protocol, data, priority, timestamp := now, tEvent := now, tSystem := now }

/-- The size guard is a `take`. -/
theorem new_data (protocol : Protocol) (data : Bytes) (priority : Priority) (now : UInt64) :
    (new protocol data priority now).data = data.take protocol.maxMessageSize := by
  show (if data.length > protocol.maxMessageSize then _ else data) = _
  split
  · rfl
  · rw [List.take_of_length_le (by omega)]

/-- `Message::new_with_temporal`. -/
def newWithTemporal (protocol : Protocol) (data : Bytes) (priority : Priority)
    (tEvent tSystem : UInt64) : Message :=
  { protocol, data, priority, timestamp := tSystem, tEvent, tSystem }

/-- `spread_ms`. -/
def spreadMs (m : Message) : Int64 := m.tSystem.toInt64 - m.tEvent.toInt64

/-- `size`. -/
def size (m : Message) : Nat := m.data.length

/-- `is_emergency`. -/
def isEmergency (m : Message) : Bool := m.priority == .emergency

end Message

end FloatProtocols
