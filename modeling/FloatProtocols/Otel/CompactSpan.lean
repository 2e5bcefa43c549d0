/-
  The compact span of `otel_compact_span.rs`: its wire format, and exactly what survives it.

  Layout (all integers big-endian):

      [trace_id:16][span_id:8][parent_id:8][name_len:1][name][start:8][end:8]
      [t_event:8][t_system:8][sensor_len:1][sensor][attr_count:1][attrs][status:1]

  1. **Program** — `encode` writes every length with a truncating `as u8` cast (`putStr`, and the
     attribute count); `decode` checks 68 bytes up front, then runs `body`, whose reads of the
     FIXED fields are unguarded and whose reads of the variable ones are guarded.

  2. **Round trip** — one iff per field (`Reader.Inverts`) adds up to `inverts_body`: `body`
     succeeds exactly on the bytes that start with the encoding of a span `WithinLimits`.  Both
     directions of `decode_encode_iff` are read off it: inside the limits the encoding comes back,
     and a decoded span is never outside them — so a truncated length always loses the span.

  3. **Panics** — `SpanFits` says, of the bytes alone, when every unguarded read has its bytes;
     `decode_ne_panic_iff` shows this is exactly when `decode` returns at all.
-/
import FloatProtocols.Lib.Exec

namespace FloatProtocols

open Wire Wire.Reader

/-! ## Data -/

/-- `SpanStatus`. -/
inductive SpanStatus where
  | ok
  | error
  deriving DecidableEq, Repr

/-- `self.status as u8`. -/
def SpanStatus.toU8 : SpanStatus → UInt8
  | .ok => 0
  | .error => 1

/-- `CompactSpan`. -/
structure CompactSpan where
  traceId : Arr 16
  spanId : Arr 8
  parentSpanId : Arr 8
  name : String
  startTimeUnixNano : UInt64
  endTimeUnixNano : UInt64
  tEvent : Int64
  tSystem : Int64
  sensorId : String
  attributes : List (String × String)
  status : SpanStatus
  deriving DecidableEq

namespace CompactSpan

/-! ## The writer -/

/-- `buf.put_u8(s.len() as u8); buf.put_slice(s)` — the cast keeps the length modulo 256. -/
def putStr (s : String) : Bytes := UInt8.ofNat (utf8 s).length :: utf8 s

/-- One attribute: key, then value. -/
def putAttr (kv : String × String) : Bytes := putStr kv.1 ++ putStr kv.2

/-- The attribute loop. -/
def putAttrs : List (String × String) → Bytes
  | [] => []
  | kv :: rest => putAttr kv ++ putAttrs rest

/-- `CompactSpan::encode`. -/
def encode (s : CompactSpan) : Bytes :=
  s.traceId.val ++ (s.spanId.val ++ (s.parentSpanId.val ++ (putStr s.name ++
    (u64Be s.startTimeUnixNano ++ (u64Be s.endTimeUnixNano ++ (i64Be s.tEvent ++
      (i64Be s.tSystem ++ (putStr s.sensorId ++ ([UInt8.ofNat s.attributes.length] ++
        (putAttrs s.attributes ++ [s.status.toU8]))))))))))

/-- `CompactSpan::encoded_size`. -/
def encodedSize (s : CompactSpan) : Nat :=
  16 + 8 + 8 +
  1 + (utf8 s.name).length +
  8 + 8 +
  8 + 8 +
  1 + (utf8 s.sensorId).length +
  1 +
  (s.attributes.map fun kv => 1 + (utf8 kv.1).length + 1 + (utf8 kv.2).length).sum +
  1

/-! ## The reader -/

/-- A length byte, the guard on the bytes it announces, and the text. -/
def getStr (eLen eUtf8 : String) : Reader String String := do
  let n ← getU8
  require n.toNat eLen
  let bs ← splitTo n.toNat
  text bs eUtf8

/-- One turn of the attribute loop; here the two length bytes are guarded as well. -/
def getAttr : Reader String (String × String) := do
  require 1 "Insufficient data for attribute key length"
  let key ← getStr "Insufficient data for attribute key" "Invalid UTF-8 in attribute key"
  require 1 "Insufficient data for attribute value length"
  let value ← getStr "Insufficient data for attribute value" "Invalid UTF-8 in attribute value"
  return (key, value)

/-- `for _ in 0..attr_count`. -/
def getAttrs : Nat → Reader String (List (String × String))
  | 0 => pure []
  | n + 1 => do
    let kv ← getAttr
    let rest ← getAttrs n
    return kv :: rest

/-- The status byte. -/
def getStatus : Reader String SpanStatus := do
  let b ← getU8
  if b = 0 then return .ok
  else if b = 1 then return .error
  else fail "Invalid status byte"

/-- `decode` after its size check. -/
def body : Reader String CompactSpan := do
  let traceId ← copyToSlice 16
  let spanId ← copyToSlice 8
  let parentSpanId ← copyToSlice 8
  let name ← getStr "Insufficient data for name" "Invalid UTF-8 in name"
  let startTimeUnixNano ← getU64
  let endTimeUnixNano ← getU64
  let tEvent ← getI64
  let tSystem ← getI64
  let sensorId ← getStr "Insufficient data for sensor_id" "Invalid UTF-8 in sensor_id"
  let attrCount ← getU8
  let attributes ← getAttrs attrCount.toNat
  let status ← getStatus
  return { traceId, spanId, parentSpanId, name, startTimeUnixNano, endTimeUnixNano, tEvent,
           tSystem, sensorId, attributes, status }

/-- The bytes a span needs when every variable part is empty. -/
def minSize : Nat := 16 + 8 + 8 + 1 + 8 + 8 + 8 + 8 + 1 + 1 + 1

/-- `CompactSpan::decode`; bytes after the span are ignored. -/
def decode (data : Bytes) : Exec String CompactSpan :=
  if data.length < minSize then .err "Insufficient data for compact span"
  else do
    let x ← body.run data
    return x.1

/-! ## The limits of the format -/

/-- A text whose length fits the length byte. -/
def Short (s : String) : Prop := (utf8 s).length ≤ 255

/-- The spans the format can carry. -/
structure WithinLimits (s : CompactSpan) : Prop where
  name : Short s.name
  sensorId : Short s.sensorId
  attrs : ∀ kv ∈ s.attributes, Short kv.1 ∧ Short kv.2
  count : s.attributes.length ≤ 255

theorem toNat_ofNat_of_le {n : Nat} (h : n ≤ 255) : (UInt8.ofNat n).toNat = n := by
  rw [UInt8.toNat_ofNat']
  omega

theorem inverts_getStr (eLen eUtf8 : String) : Inverts (getStr eLen eUtf8) putStr Short := by
  intro b s r
  simp only [getStr, bind_eq_ok, inverts_getU8 _ _ _, require_eq_ok, splitTo_eq_ok, text_eq_ok,
    true_and]
  constructor
  · rintro ⟨n, m, rfl, -, m', ⟨-, rfl⟩, w, m'', ⟨hw, rfl⟩, rfl, rfl⟩
    have hn := n.toNat_lt
    refine ⟨by unfold Short; omega, ?_⟩
    rw [putStr, hw, UInt8.ofNat_toNat]
    rfl
  · rintro ⟨hs, rfl⟩
    have hn := toNat_ofNat_of_le hs
    refine ⟨_, utf8 s ++ r, rfl, (), _, ⟨?_, rfl⟩, utf8 s, r, ⟨hn.symm, rfl⟩, rfl, rfl⟩
    rw [hn, List.length_append]
    omega

theorem putStr_length_pos (s : String) : 0 < (putStr s).length := by
  rw [putStr, List.length_cons]
  omega

theorem length_putStr_le {s : String} (h : Short s) : (putStr s).length ≤ 256 := by
  rw [putStr, List.length_cons]
  exact Nat.succ_le_succ h

theorem length_putAttrs_le : ∀ l : List (String × String),
    (∀ kv ∈ l, Short kv.1 ∧ Short kv.2) → (putAttrs l).length ≤ 512 * l.length
  | [], _ => Nat.zero_le _
  | kv :: l, h => by
    obtain ⟨hk, hv⟩ := h kv (List.mem_cons_self ..)
    have hrest := length_putAttrs_le l fun x hx => h x (List.mem_cons_of_mem kv hx)
    have hkey := length_putStr_le hk
    have hval := length_putStr_le hv
    rw [putAttrs, putAttr, List.length_append, List.length_append, List.length_cons]
    omega

/-- Sixty-six bytes of fixed fields, and the three parts whose length varies. -/
theorem length_encode (s : CompactSpan) : s.encode.length =
    66 + (putStr s.name).length + (putStr s.sensorId).length + (putAttrs s.attributes).length := by
  simp only [encode, List.length_append, length_u64Be, length_i64Be, List.length_cons,
    List.length_nil, s.traceId.property, s.spanId.property, s.parentSpanId.property]
  ac_rfl

/-- The attribute loop writes what the size formula sums up, whatever the length bytes say. -/
theorem length_putAttrs (l : List (String × String)) : (putAttrs l).length =
    (l.map fun kv => 1 + (utf8 kv.1).length + 1 + (utf8 kv.2).length).sum := by
  induction l with
  | nil => rfl
  | cons kv l ih =>
    rw [putAttrs, putAttr, List.length_append, List.length_append, ih, putStr, putStr,
      List.length_cons, List.length_cons, List.map_cons, List.sum_cons]
    omega

theorem encodedSize_eq_length (s : CompactSpan) : s.encodedSize = s.encode.length := by
  rw [length_encode, length_putAttrs, putStr, putStr, List.length_cons, List.length_cons, encodedSize]
  omega

/-- A span within the limits takes at most 131138 bytes. -/
theorem length_encode_le {s : CompactSpan} (h : WithinLimits s) : s.encode.length ≤ 131138 := by
  have hname := length_putStr_le h.name
  have hsensor := length_putStr_le h.sensorId
  have hattrs := length_putAttrs_le s.attributes h.attrs
  have hcount := h.count
  rw [length_encode]
  omega

theorem inverts_getAttr :
    Inverts getAttr putAttr (fun kv => Short kv.1 ∧ Short kv.2) := by
  rintro b ⟨k, v⟩ r
  simp only [getAttr, bind_eq_ok, require_eq_ok, inverts_getStr _ _ _ _ _, pure_eq_ok]
  constructor
  · rintro ⟨-, _, ⟨-, rfl⟩, k', m, ⟨hk, rfl⟩, -, _, ⟨-, rfl⟩, v', m', ⟨hv, rfl⟩, hkv, rfl⟩
    obtain ⟨rfl, rfl⟩ := Prod.mk.inj hkv
    exact ⟨⟨hk, hv⟩, by rw [putAttr, List.append_assoc]⟩
  · rintro ⟨⟨hk, hv⟩, rfl⟩
    have hkpos := putStr_length_pos k
    have hvpos := putStr_length_pos v
    refine ⟨(), _, ⟨?_, rfl⟩, k, putStr v ++ r, ⟨hk, by rw [putAttr, List.append_assoc]⟩,
      (), _, ⟨?_, rfl⟩, v, r, ⟨hv, rfl⟩, rfl, rfl⟩
    · show 1 ≤ (putStr k ++ putStr v ++ r).length
      rw [List.length_append, List.length_append]
      omega
    · rw [List.length_append]
      omega

/-- The attribute loop, by induction on the count: it inverts the writer on lists of that length
    whose texts are all short. -/
theorem inverts_getAttrs (n : Nat) : Inverts (getAttrs n) putAttrs
    (fun l => l.length = n ∧ ∀ kv ∈ l, Short kv.1 ∧ Short kv.2) := by
  induction n with
  | zero =>
    intro b l r
    simp only [getAttrs, pure_eq_ok, List.length_eq_zero_iff]
    constructor
    · rintro ⟨rfl, rfl⟩
      exact ⟨⟨rfl, by simp⟩, rfl⟩
    · rintro ⟨⟨rfl, -⟩, rfl⟩
      exact ⟨rfl, rfl⟩
  | succ n ih =>
    intro b l r
    simp only [getAttrs, bind_eq_ok, inverts_getAttr _ _ _, ih _ _ _, pure_eq_ok]
    constructor
    · rintro ⟨kv, m, ⟨hkv, rfl⟩, l', m', ⟨⟨hlen, hl'⟩, rfl⟩, rfl, rfl⟩
      refine ⟨⟨by rw [List.length_cons, hlen], ?_⟩, by rw [putAttrs, List.append_assoc]⟩
      intro x hx
      rcases List.mem_cons.mp hx with rfl | hx
      · exact hkv
      · exact hl' x hx
    · rintro ⟨⟨hlen, hl⟩, rfl⟩
      cases l with
      | nil => exact absurd hlen (by simp)
      | cons kv l' =>
        refine ⟨kv, putAttrs l' ++ r, ⟨hl kv (List.mem_cons_self ..), ?_⟩, l', r,
          ⟨⟨Nat.succ.inj hlen, fun x hx => hl x (List.mem_cons_of_mem kv hx)⟩, rfl⟩, rfl, rfl⟩
        rw [putAttrs, List.append_assoc]

theorem inverts_getStatus :
    Inverts getStatus (fun st => [st.toU8]) (fun _ => True) := by
  intro b st r
  simp only [getStatus, bind_eq_ok, inverts_getU8 _ _ _, true_and]
  constructor
  · rintro ⟨x, m, rfl, h⟩
    split at h
    · rename_i hx
      obtain ⟨rfl, rfl⟩ := pure_eq_ok.mp h
      rw [hx]
      rfl
    · split at h
      · rename_i hx
        obtain ⟨rfl, rfl⟩ := pure_eq_ok.mp h
        rw [hx]
        rfl
      · exact absurd h (by simp [fail])
  · rintro rfl
    refine ⟨st.toU8, r, rfl, ?_⟩
    cases st with
    | ok => rfl
    | error => rfl

/-- **The reader is the inverse of the writer, exactly on the spans within the limits.** -/
theorem inverts_body : Inverts body encode WithinLimits := by
  intro b s r
  simp only [body, bind_eq_ok, inverts_copyToSlice _ _ _ _, inverts_getStr _ _ _ _ _,
    inverts_getU64 _ _ _, inverts_getI64 _ _ _, inverts_getU8 _ _ _, inverts_getAttrs _ _ _ _,
    inverts_getStatus _ _ _, pure_eq_ok, true_and]
  constructor
  · rintro ⟨t, _, rfl, i, _, rfl, p, _, rfl, name, _, ⟨hname, rfl⟩, st, _, rfl, en, _, rfl,
      te, _, rfl, ts, _, rfl, sensor, _, ⟨hsensor, rfl⟩, c, _, rfl, attrs, _, ⟨⟨hlen, ha⟩, rfl⟩,
      status, _, rfl, rfl, rfl⟩
    have hc := c.toNat_lt
    refine ⟨⟨hname, hsensor, ha, ?_⟩, ?_⟩
    · show attrs.length ≤ 255
      omega
    · simp only [encode, List.append_assoc, hlen, UInt8.ofNat_toNat]
  · rintro ⟨⟨hname, hsensor, ha, hcount⟩, rfl⟩
    simp only [encode, List.append_assoc]
    refine ⟨s.traceId, _, rfl, s.spanId, _, rfl, s.parentSpanId, _, rfl, s.name, _,
      ⟨hname, rfl⟩, s.startTimeUnixNano, _, rfl, s.endTimeUnixNano, _, rfl, s.tEvent, _, rfl,
      s.tSystem, _, rfl, s.sensorId, _, ⟨hsensor, rfl⟩, UInt8.ofNat s.attributes.length, _, rfl,
      s.attributes, _, ⟨⟨(toNat_ofNat_of_le hcount).symm, ha⟩, rfl⟩, s.status, _, rfl, rfl, rfl⟩

/-- Every encoding passes the up-front size check. -/
theorem minSize_le_length_encode (s : CompactSpan) : minSize ≤ (encode s).length := by
  have hname := putStr_length_pos s.name
  have hsensor := putStr_length_pos s.sensorId
  rw [length_encode, minSize]
  omega

/-- What `decode` returns is what its bytes start with, and lies within the limits. -/
theorem decode_eq_ok {data : Bytes} {s : CompactSpan} :
    decode data = .ok s ↔ WithinLimits s ∧ ∃ r, data = encode s ++ r := by
  unfold decode
  constructor
  · intro h
    split at h
    · exact absurd h (by simp)
    · obtain ⟨⟨s', r⟩, hrun, hs⟩ := Exec.bind_eq_ok.mp h
      obtain rfl : s' = s := Exec.ok.inj hs
      obtain ⟨hlim, hdata⟩ := (inverts_body _ _ _).mp hrun
      exact ⟨hlim, r, hdata⟩
  · rintro ⟨hlim, r, rfl⟩
    have hmin := minSize_le_length_encode s
    rw [if_neg (by rw [List.length_append]; omega), (inverts_body _ _ _).mpr ⟨hlim, rfl⟩]
    rfl

/-- **The round trip, exactly**: a span comes back from its own encoding if and only if its texts
    are at most 255 bytes long and it has at most 255 attributes. -/
theorem decode_encode_iff (s : CompactSpan) :
    decode (encode s) = .ok s ↔
      (utf8 s.name).length ≤ 255 ∧ (utf8 s.sensorId).length ≤ 255 ∧
      (∀ kv ∈ s.attributes, (utf8 kv.1).length ≤ 255 ∧ (utf8 kv.2).length ≤ 255) ∧
      s.attributes.length ≤ 255 := by
  rw [decode_eq_ok]
  constructor
  · rintro ⟨⟨hname, hsensor, ha, hcount⟩, -⟩
    exact ⟨hname, hsensor, ha, hcount⟩
  · rintro ⟨hname, hsensor, ha, hcount⟩
    exact ⟨⟨hname, hsensor, ha, hcount⟩, [], (List.append_nil _).symm⟩

/-! ## When `decode` returns at all -/

/-- A text field, seen from the bytes: the length byte is there; and if the bytes it announces are
    there too and are well-formed, what follows them satisfies `next`.  (Otherwise a guard ends the
    decoding with an error.) -/
def StrFits (next : Bytes → Prop) (b : Bytes) : Prop :=
  ∃ n r, b = n :: r ∧
    (n.toNat ≤ r.length → (fromUtf8 (r.take n.toNat)).isSome → next (r.drop n.toNat))

/-- `n` attributes, then the status byte.  The length bytes of attributes are guarded, the status
    byte is not. -/
def AttrsFit : Nat → Bytes → Prop
  | 0, b => b ≠ []
  | n + 1, b => b ≠ [] → StrFits (fun r => r ≠ [] → StrFits (AttrsFit n) r) b

/-- From the attribute count on. -/
def CountFits (b : Bytes) : Prop := ∃ c r, b = c :: r ∧ AttrsFit c.toNat r

/-- From the timestamps on: all 32 bytes of them, then the sensor id. -/
def TimesFit (b : Bytes) : Prop := 32 ≤ b.length ∧ StrFits CountFits (b.drop 32)

/-- Every unguarded read has its bytes: after the name the four timestamps and the sensor length
    byte, after the sensor id the attribute count, after the last attribute the status byte —
    unless the input is short of 68 bytes or a guard fails first. -/
def SpanFits (data : Bytes) : Prop :=
  data.length < minSize ∨ StrFits TimesFit (data.drop 32)

/-- `getStr` on a non-empty buffer, branch by branch. -/
theorem run_getStr_cons (eLen eUtf8 : String) (n : UInt8) (r : Bytes) :
    (getStr eLen eUtf8).run (n :: r) =
      if n.toNat ≤ r.length then
        match fromUtf8 (r.take n.toNat) with
        | some s => .ok (s, r.drop n.toNat)
        | none => .err eUtf8
      else .err eLen := by
  have hget : (getU8 : Reader String UInt8).run (n :: r) = .ok (n, r) := rfl
  rcases Nat.lt_or_ge r.length n.toNat with h | h
  · have hreq : (require n.toNat eLen).run r = .err eLen := if_pos h
    rw [getStr, run_bind, hget, Exec.ok_bind, run_bind, hreq, if_neg (by omega)]
    rfl
  · have hreq : (require n.toNat eLen).run r = .ok ((), r) := if_neg (by omega)
    have hsplit : (splitTo n.toNat : Reader String Bytes).run r
        = .ok (r.take n.toNat, r.drop n.toNat) := if_pos h
    rw [getStr, run_bind, hget, Exec.ok_bind, run_bind, hreq, Exec.ok_bind, run_bind, hsplit,
      if_pos h]
    rfl

theorem safe_getStr_bind {β : Type} {eLen eUtf8 : String} {k : String → Reader String β}
    {b : Bytes} {Q : Bytes → Prop} (hk : ∀ s r, Safe (k s) r ↔ Q r) :
    Safe (getStr eLen eUtf8 >>= k) b ↔ StrFits Q b := by
  cases b with
  | nil =>
    have hrun : (getStr eLen eUtf8).run [] = .panic := rfl
    simp only [Safe, run_bind, hrun, Exec.panic_bind, StrFits]
    simp
  | cons n r =>
    have hfits : StrFits Q (n :: r) ↔
        (n.toNat ≤ r.length → (fromUtf8 (r.take n.toNat)).isSome → Q (r.drop n.toNat)) := by
      constructor
      · rintro ⟨n', r', heq, h⟩
        obtain ⟨rfl, rfl⟩ := List.cons.inj heq
        exact h
      · exact fun h => ⟨n, r, rfl, h⟩
    rw [hfits, Safe, run_bind, run_getStr_cons]
    by_cases hn : n.toNat ≤ r.length
    · rw [if_pos hn]
      cases hs : fromUtf8 (r.take n.toNat) with
      | none => simp
      | some s => simpa [hn, Safe] using hk s (r.drop n.toNat)
    · rw [if_neg hn]
      simp [hn]

theorem ne_nil_iff_length {b : Bytes} : b ≠ [] ↔ 1 ≤ b.length := by
  cases b with
  | nil => simp
  | cons x b => simp

theorem safe_getStatus_bind {β : Type} {k : SpanStatus → Reader String β} {b : Bytes}
    (hk : ∀ st r, Safe (k st) r) : Safe (getStatus >>= k) b ↔ b ≠ [] := by
  cases b with
  | nil =>
    have hrun : getStatus.run [] = .panic := rfl
    simp only [Safe, run_bind, hrun, Exec.panic_bind]
    simp
  | cons x b =>
    refine iff_of_true (Reader.safe_bind.mpr ⟨?_, fun st r _ => hk st r⟩) (by simp)
    refine safe_getU8_bind.mpr ⟨x, b, rfl, ?_⟩
    split
    · exact safe_pure _ _
    · split
      · exact safe_pure _ _
      · exact safe_fail _ _

/-- The attribute loop followed by the status byte, by induction on the count. -/
theorem safe_getAttrs_bind {β : Type} (n : Nat) :
    ∀ {k : List (String × String) → Reader String β} {b : Bytes},
      (∀ l r, Safe (k l) r ↔ r ≠ []) → (Safe (getAttrs n >>= k) b ↔ AttrsFit n b) := by
  induction n with
  | zero =>
    intro k b hk
    simp only [getAttrs, pure_bind]
    exact hk [] b
  | succ n ih =>
    intro k b hk
    simp only [getAttrs, getAttr, bind_assoc, pure_bind, AttrsFit]
    rw [safe_require_bind, ← ne_nil_iff_length]
    refine imp_congr_right fun _ => safe_getStr_bind fun key r => ?_
    rw [safe_require_bind, ← ne_nil_iff_length]
    exact imp_congr_right fun _ => safe_getStr_bind fun value r' => ih fun l r'' => hk _ r''

/-- The three ids are one 32-byte read. -/
theorem safe_ids_bind {β : Type} {k : Arr 16 → Arr 8 → Arr 8 → Reader String β} {b : Bytes}
    {Q : Bytes → Prop} (hk : ∀ t i p r, Safe (k t i p) r ↔ Q r) :
    Safe (do let t ← copyToSlice 16; let i ← copyToSlice 8; let p ← copyToSlice 8; k t i p) b ↔
      32 ≤ b.length ∧ Q (b.drop 32) := by
  have h3 : ∀ t i r, Safe (do let p ← copyToSlice 8; k t i p) r ↔ 8 ≤ r.length ∧ Q (r.drop 8) :=
    fun t i r => (fixedRead_copyToSlice 8).safe_bind (hk t i)
  have h2 : ∀ t r, Safe (do let i ← copyToSlice 8; let p ← copyToSlice 8; k t i p) r ↔
      16 ≤ r.length ∧ Q (r.drop 16) := by
    intro t r
    rw [(fixedRead_copyToSlice 8).safe_bind (h3 t), List.drop_drop, List.length_drop, ← and_assoc]
    exact and_congr_left' (by omega)
  rw [(fixedRead_copyToSlice 16).safe_bind h2, List.drop_drop, List.length_drop, ← and_assoc]
  exact and_congr_left' (by omega)

/-- The four timestamps are one 32-byte read. -/
theorem safe_times_bind {β : Type} {k : UInt64 → UInt64 → Int64 → Int64 → Reader String β}
    {b : Bytes} {Q : Bytes → Prop} (hk : ∀ st en te ts r, Safe (k st en te ts) r ↔ Q r) :
    Safe (do let st ← getU64; let en ← getU64; let te ← getI64; let ts ← getI64
             k st en te ts) b ↔ 32 ≤ b.length ∧ Q (b.drop 32) := by
  have h4 : ∀ st en te r, Safe (do let ts ← getI64; k st en te ts) r ↔
      8 ≤ r.length ∧ Q (r.drop 8) := fun st en te r => fixedRead_getI64.safe_bind (hk st en te)
  have h3 : ∀ st en r, Safe (do let te ← getI64; let ts ← getI64; k st en te ts) r ↔
      16 ≤ r.length ∧ Q (r.drop 16) := by
    intro st en r
    rw [fixedRead_getI64.safe_bind (h4 st en), List.drop_drop, List.length_drop, ← and_assoc]
    exact and_congr_left' (by omega)
  have h2 : ∀ st r, Safe (do let en ← getU64; let te ← getI64; let ts ← getI64
                             k st en te ts) r ↔ 24 ≤ r.length ∧ Q (r.drop 24) := by
    intro st r
    rw [fixedRead_getU64.safe_bind (h3 st), List.drop_drop, List.length_drop, ← and_assoc]
    exact and_congr_left' (by omega)
  rw [fixedRead_getU64.safe_bind h2, List.drop_drop, List.length_drop, ← and_assoc]
  exact and_congr_left' (by omega)

/-- The ids in front of the name are covered by the up-front size check; from the name on each
    unguarded read stands on its own. -/
theorem safe_body (data : Bytes) :
    Safe body data ↔ 32 ≤ data.length ∧ StrFits TimesFit (data.drop 32) := by
  refine safe_ids_bind (Q := StrFits TimesFit) fun t i p b => ?_
  refine safe_getStr_bind (Q := TimesFit) fun name b => ?_
  refine safe_times_bind (Q := StrFits CountFits) fun st en te ts b => ?_
  refine safe_getStr_bind (Q := CountFits) fun sensor b => ?_
  rw [safe_getU8_bind]
  refine exists_congr fun c => exists_congr fun r => and_congr_right fun _ => ?_
  exact safe_getAttrs_bind c.toNat fun l r => safe_getStatus_bind fun _ _ => safe_pure _ _

/-- **`decode` returns — `Ok` or `Err` — exactly on the bytes that fit.** -/
theorem decode_ne_panic_iff (data : Bytes) : decode data ≠ .panic ↔ SpanFits data := by
  rcases Nat.lt_or_ge data.length minSize with h | h
  · rw [decode, if_pos h]
    exact iff_of_true (by simp) (Or.inl h)
  · have h68 : 68 ≤ data.length := h
    have hsafe : decode data ≠ .panic ↔ Safe body data := by
      rw [decode, if_neg (Nat.not_lt.mpr h), Exec.bind_ne_panic]
      exact ⟨And.left, fun hs => ⟨hs, fun _ _ => by simp⟩⟩
    rw [hsafe, safe_body, SpanFits]
    exact ⟨fun hf => Or.inr hf.2, fun hf => ⟨by omega, hf.resolve_left (by omega)⟩⟩

end CompactSpan

end FloatProtocols
