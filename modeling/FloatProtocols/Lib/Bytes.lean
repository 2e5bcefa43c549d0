/-
  Byte strings, fixed-width integers on the wire, and UTF-8 text.

  A byte string is a `List UInt8`.  Everything here is about ONE question: what a writer that
  lays an integer or a string down as bytes, and a reader that picks the bytes up again, agree
  on.  The integer half goes through a single pair of functions on `Nat`,

  * `leBytes k n` — the `k` low base-256 digits of `n`, least significant first;
  * `leNat bs`    — the number those digits denote,

  with the two round trips `leNat_leBytes` (a writer's value comes back modulo `256 ^ k`) and
  `leBytes_leNat` (a reader's bytes come back verbatim).  The big-endian forms are the reversals,
  and the typed codecs for 16, 32 and 64 bits are one-line instances.

  The text half is `utf8` / `fromUtf8`: the encoding of a `String`, and the checked decoder that
  refuses ill-formed bytes.
-/
import Mathlib.Data.Nat.Basic
import Mathlib.Data.List.Basic
import Mathlib.Tactic.Ring

namespace Wire

/-- A byte string. -/
abbrev Bytes := List UInt8

/-- `[u8; n]`: a byte string that carries its length. -/
abbrev Arr (n : Nat) := { bs : Bytes // bs.length = n }

/-- The `k` bytes from place `i` on. -/
def window (bs : Bytes) (i k : Nat) : Bytes := (bs.drop i).take k

theorem length_window {bs : Bytes} {i k : Nat} (h : i + k ≤ bs.length) : (window bs i k).length = k := by
  rw [window, List.length_take, List.length_drop]
  omega

/-- What follows a window starts where the window ends. -/
theorem window_append_drop (bs : Bytes) {i k j : Nat} (h : i + k = j) :
    window bs i k ++ bs.drop j = bs.drop i := by
  rw [window, ← h, ← List.drop_drop, List.take_append_drop]

/-- The window over one piece of a concatenation. -/
theorem window_append {a b c : Bytes} {i k : Nat} (hi : a.length = i) (hk : b.length = k) :
    window (a ++ (b ++ c)) i k = b := by
  subst hi hk
  rw [window, List.drop_left, List.take_left]

/-- Cutting a byte string behind a window leaves the window alone. -/
theorem window_take {bs : Bytes} {i k n : Nat} (h : i + k ≤ n) :
    window (bs.take n) i k = window bs i k := by
  rw [window, window, List.drop_take, List.take_take, Nat.min_eq_left (by omega)]

/-! ## Base-256 digits of a natural number -/

/-- The `k` low base-256 digits of `n`, least significant first. -/
def leBytes : Nat → Nat → Bytes
  | 0, _ => []
  | k + 1, n => UInt8.ofNat n :: leBytes k (n / 256)

/-- The number a little-endian digit string denotes. -/
def leNat : Bytes → Nat
  | [] => 0
  | b :: bs => b.toNat + 256 * leNat bs

@[simp] theorem length_leBytes : ∀ k n, (leBytes k n).length = k
  | 0, _ => rfl
  | k + 1, n => by rw [leBytes, List.length_cons, length_leBytes k]

theorem leNat_lt : ∀ bs : Bytes, leNat bs < 256 ^ bs.length
  | [] => by simp [leNat]
  | b :: bs => by
    have hb : b.toNat < 256 := b.toNat_lt
    have ih := leNat_lt bs
    rw [leNat, List.length_cons, Nat.pow_succ]
    omega

/-- A writer's number comes back, up to the digits that did not fit. -/
theorem leNat_leBytes : ∀ k n, leNat (leBytes k n) = n % 256 ^ k
  | 0, n => by simp [leBytes, leNat, Nat.mod_one]
  | k + 1, n => by
    have h0 : (UInt8.ofNat n).toNat = n % 256 := by simp
    rw [leBytes, leNat, leNat_leBytes k, h0, Nat.pow_succ, Nat.mul_comm (256 ^ k),
      Nat.mod_mul]

/-- A reader's bytes come back verbatim. -/
theorem leBytes_leNat : ∀ bs : Bytes, leBytes bs.length (leNat bs) = bs
  | [] => rfl
  | b :: bs => by
    have hb : b.toNat < 256 := b.toNat_lt
    have hdigit : UInt8.ofNat (b.toNat + 256 * leNat bs) = b := by
      apply UInt8.toNat_inj.mp
      rw [UInt8.toNat_ofNat']
      omega
    have hrest : (b.toNat + 256 * leNat bs) / 256 = leNat bs := by omega
    rw [List.length_cons, leBytes, leNat, hdigit, hrest, leBytes_leNat bs]

/-- The `k` low base-256 digits of `n`, most significant first. -/
def beBytes (k n : Nat) : Bytes := (leBytes k n).reverse

/-- The number a big-endian digit string denotes. -/
def beNat (bs : Bytes) : Nat := leNat bs.reverse

@[simp] theorem length_beBytes (k n : Nat) : (beBytes k n).length = k := by
  rw [beBytes, List.length_reverse, length_leBytes]

theorem beNat_lt (bs : Bytes) : beNat bs < 256 ^ bs.length := by
  have h := leNat_lt bs.reverse
  rwa [List.length_reverse] at h

theorem beNat_beBytes (k n : Nat) : beNat (beBytes k n) = n % 256 ^ k := by
  rw [beNat, beBytes, List.reverse_reverse, leNat_leBytes]

theorem beBytes_beNat (bs : Bytes) : beBytes bs.length (beNat bs) = bs := by
  have h := leBytes_leNat bs.reverse
  rw [List.length_reverse] at h
  rw [beBytes, beNat, h, List.reverse_reverse]

/-! ## The typed codecs -/

/-- `u16::to_be_bytes`. -/
def u16Be (x : UInt16) : Bytes := beBytes 2 x.toNat
/-- `u16::from_be_bytes`. -/
def ofU16Be (bs : Bytes) : UInt16 := UInt16.ofNat (beNat bs)
/-- `u32::to_be_bytes`. -/
def u32Be (x : UInt32) : Bytes := beBytes 4 x.toNat
/-- `u32::from_be_bytes`. -/
def ofU32Be (bs : Bytes) : UInt32 := UInt32.ofNat (beNat bs)
/-- `u64::to_be_bytes`. -/
def u64Be (x : UInt64) : Bytes := beBytes 8 x.toNat
/-- `u64::from_be_bytes`. -/
def ofU64Be (bs : Bytes) : UInt64 := UInt64.ofNat (beNat bs)
/-- `i64::to_be_bytes`: the two's complement pattern. -/
def i64Be (x : Int64) : Bytes := u64Be x.toUInt64
/-- `i64::from_be_bytes`. -/
def ofI64Be (bs : Bytes) : Int64 := (ofU64Be bs).toInt64
/-- `i16::to_le_bytes`: the two's complement pattern, low byte first. -/
def i16Le (x : Int16) : Bytes := leBytes 2 x.toUInt16.toNat
/-- `i16::from_le_bytes`. -/
def ofI16Le (bs : Bytes) : Int16 := (UInt16.ofNat (leNat bs)).toInt16

@[simp] theorem length_u16Be (x : UInt16) : (u16Be x).length = 2 := length_beBytes _ _
@[simp] theorem length_u32Be (x : UInt32) : (u32Be x).length = 4 := length_beBytes _ _
@[simp] theorem length_u64Be (x : UInt64) : (u64Be x).length = 8 := length_beBytes _ _
@[simp] theorem length_i64Be (x : Int64) : (i64Be x).length = 8 := length_beBytes _ _
@[simp] theorem length_i16Le (x : Int16) : (i16Le x).length = 2 := length_leBytes _ _

/-- The leading byte is the top digit. -/
theorem u32Be_eq_cons (x : UInt32) : ∃ r, u32Be x = UInt8.ofNat (x.toNat / 2 ^ 24) :: r := by
  have hdiv : x.toNat / 256 / 256 / 256 = x.toNat / 2 ^ 24 := by omega
  refine ⟨[UInt8.ofNat (x.toNat / 256 / 256), UInt8.ofNat (x.toNat / 256), UInt8.ofNat x.toNat], ?_⟩
  rw [← hdiv]
  rfl

@[simp] theorem ofU16Be_u16Be (x : UInt16) : ofU16Be (u16Be x) = x := by
  apply UInt16.toNat_inj.mp
  rw [ofU16Be, u16Be, beNat_beBytes, UInt16.toNat_ofNat']
  have h := x.toNat_lt
  omega

@[simp] theorem ofU32Be_u32Be (x : UInt32) : ofU32Be (u32Be x) = x := by
  apply UInt32.toNat_inj.mp
  rw [ofU32Be, u32Be, beNat_beBytes, UInt32.toNat_ofNat']
  have h := x.toNat_lt
  omega

@[simp] theorem ofU64Be_u64Be (x : UInt64) : ofU64Be (u64Be x) = x := by
  apply UInt64.toNat_inj.mp
  rw [ofU64Be, u64Be, beNat_beBytes, UInt64.toNat_ofNat']
  have h := x.toNat_lt
  omega

@[simp] theorem ofI64Be_i64Be (x : Int64) : ofI64Be (i64Be x) = x := by
  rw [ofI64Be, i64Be, ofU64Be_u64Be, Int64.toInt64_toUInt64]

@[simp] theorem ofI16Le_i16Le (x : Int16) : ofI16Le (i16Le x) = x := by
  have h : UInt16.ofNat (leNat (leBytes 2 x.toUInt16.toNat)) = x.toUInt16 := by
    apply UInt16.toNat_inj.mp
    rw [leNat_leBytes, UInt16.toNat_ofNat']
    have h := x.toUInt16.toNat_lt
    omega
  rw [ofI16Le, i16Le, h, Int16.toInt16_toUInt16]

theorem toNat_ofU16Be_ofNat {n : Nat} (h : n < 2 ^ 16) :
    (ofU16Be (u16Be (UInt16.ofNat n))).toNat = n := by
  rw [ofU16Be_u16Be, UInt16.toNat_ofNat', Nat.mod_eq_of_lt h]

theorem toNat_ofU32Be_ofNat {n : Nat} (h : n < 2 ^ 32) :
    (ofU32Be (u32Be (UInt32.ofNat n))).toNat = n := by
  rw [ofU32Be_u32Be, UInt32.toNat_ofNat', Nat.mod_eq_of_lt h]

theorem u16Be_inj {x y : UInt16} (h : u16Be x = u16Be y) : x = y := by
  rw [← ofU16Be_u16Be x, h, ofU16Be_u16Be]

theorem u32Be_inj {x y : UInt32} (h : u32Be x = u32Be y) : x = y := by
  rw [← ofU32Be_u32Be x, h, ofU32Be_u32Be]

theorem u64Be_inj {x y : UInt64} (h : u64Be x = u64Be y) : x = y := by
  rw [← ofU64Be_u64Be x, h, ofU64Be_u64Be]

theorem u16Be_ofU16Be {bs : Bytes} (h : bs.length = 2) : u16Be (ofU16Be bs) = bs := by
  have hlt : beNat bs < 256 ^ 2 := h ▸ beNat_lt bs
  rw [u16Be, ofU16Be, UInt16.toNat_ofNat', Nat.mod_eq_of_lt (by omega), ← h, beBytes_beNat]

theorem u32Be_ofU32Be {bs : Bytes} (h : bs.length = 4) : u32Be (ofU32Be bs) = bs := by
  have hlt : beNat bs < 256 ^ 4 := h ▸ beNat_lt bs
  rw [u32Be, ofU32Be, UInt32.toNat_ofNat', Nat.mod_eq_of_lt (by omega), ← h, beBytes_beNat]

theorem u64Be_ofU64Be {bs : Bytes} (h : bs.length = 8) : u64Be (ofU64Be bs) = bs := by
  have hlt : beNat bs < 256 ^ 8 := h ▸ beNat_lt bs
  rw [u64Be, ofU64Be, UInt64.toNat_ofNat', Nat.mod_eq_of_lt (by omega), ← h, beBytes_beNat]

theorem i64Be_ofI64Be {bs : Bytes} (h : bs.length = 8) : i64Be (ofI64Be bs) = bs := by
  rw [i64Be, ofI64Be, UInt64.toUInt64_toInt64, u64Be_ofU64Be h]

theorem i16Le_ofI16Le {bs : Bytes} (h : bs.length = 2) : i16Le (ofI16Le bs) = bs := by
  have hlt : leNat bs < 256 ^ 2 := h ▸ leNat_lt bs
  rw [i16Le, ofI16Le, UInt16.toUInt16_toInt16, UInt16.toNat_ofNat', Nat.mod_eq_of_lt (by omega), ← h,
    leBytes_leNat]

/-! ## UTF-8 text -/

/-- `str::as_bytes`. -/
def utf8 (s : String) : Bytes := s.toByteArray.data.toList

/-- `String::from_utf8`: the text a byte string encodes, `none` when it is ill-formed. -/
def fromUtf8 (bs : Bytes) : Option String := String.fromUTF8? bs.toByteArray

theorem toByteArray_utf8 (s : String) : (utf8 s).toByteArray = s.toByteArray := by
  apply ByteArray.ext
  rw [List.data_toByteArray, utf8, Array.toArray_toList]

@[simp] theorem fromUtf8_utf8 (s : String) : fromUtf8 (utf8 s) = some s := by
  rw [fromUtf8, toByteArray_utf8, String.fromUTF8?, dif_pos s.isValidUTF8]
  rfl

theorem utf8_inj {s t : String} (h : utf8 s = utf8 t) : s = t := by
  have hs := fromUtf8_utf8 s
  rw [h, fromUtf8_utf8] at hs
  exact (Option.some.inj hs).symm

/-- Decoding loses nothing: the decoded text re-encodes to the bytes it was read from. -/
theorem utf8_of_fromUtf8 {bs : Bytes} {s : String} (h : fromUtf8 bs = some s) :
    utf8 s = bs := by
  rw [fromUtf8, String.fromUTF8?] at h
  split at h
  · have hs : String.fromUTF8 bs.toByteArray _ = s := Option.some.inj h
    rw [utf8, ← hs]
    show bs.toByteArray.data.toList = bs
    rw [List.data_toByteArray]
  · exact absurd h (by simp)

end Wire
