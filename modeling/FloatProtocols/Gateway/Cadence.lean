/-
  `cadence_translation.rs`: what to do with a message of a source whose cadence differs.

  The first rule for the message's type and protocol decides.  Instants are integers (nanoseconds),
  so that the `now - min_interval` of a fresh limiter never fails; a `RateLimit` rule carries the
  interval that `Duration::from_secs_f64(1.0 / max_per_second)` computes from its rate.
-/
import Mathlib.Data.List.AList
import FloatProtocols.Protocol

namespace FloatProtocols

/-- `CadenceTransformation`. -/
inductive CadenceTransformation where
  | passthrough
  | rateLimit (minInterval : Int)
  | aggregate (windowMs : UInt64)
  | duplicate (maxDuplicates : Nat)
  | throttle (targetIntervalMs : UInt64)
  deriving DecidableEq, Repr

/-- `CadenceRule`, the fields that `translate_message` reads. -/
structure CadenceRule where
  sourceProtocol : Protocol
  messageType : String
  transformation : CadenceTransformation
  deriving DecidableEq, Repr

/-- `TranslationAction`. -/
inductive TranslationAction where
  | send
  | drop
  | duplicate (count : Nat)
  | buffer (windowMs : UInt64)
  deriving DecidableEq, Repr

/-- `RateLimiter`. -/
structure RateLimiter where
  lastSent : Int
  minInterval : Int
  messagesSinceLast : Nat
  deriving DecidableEq, Repr

namespace RateLimiter

/-- `RateLimiter::new`: the first message may go at once. -/
def new (now minInterval : Int) : RateLimiter :=
  { lastSent := now - minInterval, minInterval, messagesSinceLast := 0 }

/-- `should_send`; `duration_since` saturates at zero. -/
def shouldSend (l : RateLimiter) (now : Int) : Bool × RateLimiter :=
  if max 0 (now - l.lastSent) ≥ l.minInterval then
    (true, { l with lastSent := now, messagesSinceLast := 0 })
  else (false, { l with messagesSinceLast := l.messagesSinceLast + 1 })

end RateLimiter

/-- `CadenceTranslator`. -/
structure CadenceTranslator where
  rules : List CadenceRule
  rateLimiters : AList fun _ : String => RateLimiter

namespace CadenceTranslator

/-- `CadenceTranslator::new`. -/
def new : CadenceTranslator := { rules := [], rateLimiters := ∅ }

/-- `add_rule`. -/
def addRule (ct : CadenceTranslator) (rule : CadenceRule) : CadenceTranslator :=
  { ct with rules := ct.rules ++ [rule] }

/-- `default_iridium_to_asts_rules`. -/
def defaultIridiumToAstsRules : List CadenceRule :=
  [{ sourceProtocol := .iridiumSBD, messageType := "heartbeat", transformation := .duplicate 720 },
   { sourceProtocol := .iridiumSBD, messageType := "location", transformation := .throttle 10000 },
   { sourceProtocol := .iridiumSBD, messageType := "telemetry", transformation := .duplicate 60 },
   { sourceProtocol := .iridiumSBD, messageType := "emergency", transformation := .passthrough }]

/-- One message through the limiter of its rule, which is made on first use. -/
def limit (ct : CadenceTranslator) (now : Int) (key : String) (minInterval : Int) :
    TranslationAction × CadenceTranslator :=
  let limiter := (ct.rateLimiters.lookup key).getD (.new now minInterval)
  let (go, limiter) := limiter.shouldSend now
  (if go then .send else .drop, { ct with rateLimiters := ct.rateLimiters.insert key limiter })

/-- `translate_message`. -/
def translateMessage (ct : CadenceTranslator) (now : Int) (messageType : String)
    (sourceProtocol : Protocol) (priority : Priority) : TranslationAction × CadenceTranslator :=
  if priority = .emergency then (.send, ct)
  else
    match ct.rules.find? fun r => r.messageType = messageType ∧ r.sourceProtocol = sourceProtocol with
    | none => (.send, ct)
    | some rule =>
      let key := rule.messageType ++ ":" ++ sourceProtocol.display
      match rule.transformation with
      | .passthrough => (.send, ct)
      | .rateLimit minInterval => ct.limit now key minInterval
      | .aggregate windowMs => (.buffer windowMs, ct)
      | .duplicate maxDuplicates => (.duplicate maxDuplicates, ct)
      | .throttle targetIntervalMs => ct.limit now key (targetIntervalMs.toNat * 1000000)

end CadenceTranslator

end FloatProtocols
