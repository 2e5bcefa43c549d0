/-
  Computations that return, fail, or PANIC — and the readers built on them.

  A Rust function of type `Result<T, E>` has three ways to end: `Ok`, `Err`, and a panic (an index
  out of bounds, a slice of the wrong length, a `Buf` read past the end).  `Exec ε α` keeps the
  three apart, so "never panics" is the statement `x ≠ .panic` and a panic can never be confused
  with a reported error.

  Three layers:

  1. `Exec` itself, a monad in which both failures short-circuit, with the two inversion rules
     every proof below goes through: `bind_eq_ok` (a sequence succeeded — so each part did) and
     `bind_ne_panic` (a sequence is panic-free exactly when each part reached is).

  2. Bounds-checked access to a byte string: `index`, `slice`, `copyInto` — the panicking
     primitives of slices, each with the lemma that says when it is in bounds.

  3. `Reader ε α`: a cursor over the unread bytes, the shape of `bytes::Buf`.  Its reads panic when
     too few bytes remain.  Two notions are packaged for it:
       * `Inverts p enc dom` — `p` succeeds EXACTLY on the bytes that start with `enc a` for some
         `a` in `dom`.  One such iff per field gives both the round trip and its converse;
       * `Safe p b` — `p` does not panic on `b`, with `safe_bind` splitting a sequence.
-/
import FloatProtocols.Lib.Bytes

namespace Wire

/-- The three ways a Rust computation ends. -/
inductive Exec (ε α : Type) where
  | ok (a : α)
  | err (e : ε)
  | panic
  deriving DecidableEq, Repr

namespace Exec

variable {ε α β : Type}

/-- Sequencing: an error or a panic ends the computation. -/
def bind (x : Exec ε α) (f : α → Exec ε β) : Exec ε β :=
  match x with
  | .ok a => f a
  | .err e => .err e
  | .panic => .panic

instance : Monad (Exec ε) where
  pure := .ok
  bind := bind

@[simp] theorem pure_eq (a : α) : (pure a : Exec ε α) = .ok a := rfl
@[simp] theorem ok_bind (a : α) (f : α → Exec ε β) : (Exec.ok a >>= f) = f a := rfl
@[simp] theorem err_bind (e : ε) (f : α → Exec ε β) : (Exec.err e >>= f) = .err e := rfl
@[simp] theorem panic_bind (f : α → Exec ε β) : ((.panic : Exec ε α) >>= f) = .panic := rfl

instance : LawfulMonad (Exec ε) := LawfulMonad.mk' (Exec ε)
  (fun x => by cases x <;> rfl) (fun _ _ => rfl) (fun x _ _ => by cases x <;> rfl)

/-- `Result::is_ok`. -/
def isOk : Exec ε α → Bool
  | .ok _ => true
  | _ => false

/-- `Result::ok`. -/
def toOption : Exec ε α → Option α
  | .ok a => some a
  | _ => none

theorem toOption_eq_some {x : Exec ε α} {a : α} : x.toOption = some a ↔ x = .ok a := by
  cases x <;> simp [toOption]

/-- `Option::ok_or`: a missing value becomes a reported error. -/
def okOr (o : Option α) (e : ε) : Exec ε α :=
  match o with
  | some a => .ok a
  | none => .err e

@[simp] theorem okOr_some (a : α) (e : ε) : okOr (some a) e = .ok a := rfl
@[simp] theorem okOr_none (e : ε) : okOr (none : Option α) e = .err e := rfl

theorem bind_eq_ok {x : Exec ε α} {f : α → Exec ε β} {b : β} :
    (x >>= f) = .ok b ↔ ∃ a, x = .ok a ∧ f a = .ok b := by
  cases x with
  | ok a => simp
  | err e => simp
  | panic => simp

theorem bind_ne_panic {x : Exec ε α} {f : α → Exec ε β} :
    (x >>= f) ≠ .panic ↔ x ≠ .panic ∧ ∀ a, x = .ok a → f a ≠ .panic := by
  cases x with
  | ok a => simp
  | err e => simp
  | panic => simp

theorem okOr_eq_ok {o : Option α} {e : ε} {a : α} : okOr o e = .ok a ↔ o = some a := by
  cases o <;> simp

theorem okOr_ne_panic (o : Option α) (e : ε) : okOr o e ≠ .panic := by
  cases o <;> simp

/-- `map_err(|_| e)`. -/
def orErr {δ : Type} (x : Exec ε α) (e : δ) : Exec δ α :=
  match x with
  | .ok a => .ok a
  | .err _ => .err e
  | .panic => .panic

theorem orErr_ne_panic {δ : Type} {x : Exec ε α} {e : δ} : orErr x e ≠ .panic ↔ x ≠ .panic := by
  cases x <;> simp [orErr]

theorem orErr_eq_ok {δ : Type} {x : Exec ε α} {e : δ} {a : α} : orErr x e = .ok a ↔ x = .ok a := by
  cases x <;> simp [orErr]

/-! ## Bounds-checked access -/

/-- `bs[i]`. -/
def index (bs : Bytes) (i : Nat) : Exec ε UInt8 :=
  match bs[i]? with
  | some b => .ok b
  | none => .panic

/-- `[bs[i], bs[j], ..]`. -/
def indices (bs : Bytes) (is : List Nat) : Exec ε Bytes := is.mapM (index bs)

/-- `&bs[lo..hi]`. -/
def slice (bs : Bytes) (lo hi : Nat) : Exec ε Bytes :=
  if lo ≤ hi ∧ hi ≤ bs.length then .ok ((bs.drop lo).take (hi - lo)) else .panic

/-- `buf[lo..hi].copy_from_slice(src)`: panics on a bad range and on unequal lengths. -/
def copyInto (buf : Bytes) (lo hi : Nat) (src : Bytes) : Exec ε Bytes :=
  if lo ≤ hi ∧ hi ≤ buf.length ∧ src.length = hi - lo then
    .ok (buf.take lo ++ src ++ buf.drop hi)
  else .panic

/-- `src` and zeros behind it. -/
def pad (n : Nat) (src : Bytes) : Arr n := ⟨(src ++ List.replicate n 0).take n, by simp⟩

/-- `[0u8; n]` with `src` copied to its first `len` bytes. -/
def fill (n len : Nat) (src : Bytes) : Exec ε (Arr n) :=
  if len ≤ n ∧ src.length = len then .ok (pad n src) else .panic

theorem index_eq_ok {bs : Bytes} {i : Nat} (h : i < bs.length) :
    (index bs i : Exec ε UInt8) = .ok bs[i] := by
  rw [index, List.getElem?_eq_getElem h]

theorem index_zero {bs : Bytes} (h : 0 < bs.length) : (index bs 0 : Exec ε UInt8) = .ok (bs.headD 0) := by
  cases bs with
  | nil => cases h
  | cons b bs => rfl

theorem index_of_length_le {bs : Bytes} {i : Nat} (h : bs.length ≤ i) :
    (index bs i : Exec ε UInt8) = .panic := by
  rw [index, List.getElem?_eq_none h]

theorem indices_eq_ok {bs : Bytes} : ∀ {is : List Nat}, (∀ i ∈ is, i < bs.length) →
    ∃ out, (indices bs is : Exec ε Bytes) = .ok out ∧ out.length = is.length
  | [], _ => ⟨[], rfl, rfl⟩
  | i :: is, h => by
    obtain ⟨out, hout, hlen⟩ := indices_eq_ok fun j hj => h j (List.mem_cons_of_mem i hj)
    have hi : i < bs.length := h i (List.mem_cons_self ..)
    refine ⟨bs[i] :: out, ?_, by rw [List.length_cons, List.length_cons, hlen]⟩
    rw [indices] at hout ⊢
    rw [List.mapM_cons, index_eq_ok hi, ok_bind, hout]
    rfl

/-- One index out of bounds is enough. -/
theorem indices_eq_panic {bs : Bytes} : ∀ {is : List Nat}, (∃ i ∈ is, bs.length ≤ i) →
    (indices bs is : Exec ε Bytes) = .panic
  | [], h => absurd h (by simp)
  | j :: is, h => by
    rw [indices, List.mapM_cons]
    rcases Nat.lt_or_ge j bs.length with hj | hj
    · have hrest : ∃ i ∈ is, bs.length ≤ i := by
        obtain ⟨i, hi, hle⟩ := h
        rcases List.mem_cons.mp hi with rfl | hi
        · omega
        · exact ⟨i, hi, hle⟩
      have ih : is.mapM (index bs) = (.panic : Exec ε Bytes) := indices_eq_panic hrest
      rw [index_eq_ok hj, ok_bind, ih, panic_bind]
    · rw [index_of_length_le hj, panic_bind]

/-- Neighbouring indices read a window. -/
theorem indices_range' {bs : Bytes} : ∀ {k i : Nat}, i + k ≤ bs.length →
    (indices bs (List.range' i k) : Exec ε Bytes) = .ok (window bs i k)
  | 0, i, _ => by simp [indices, window]
  | k + 1, i, h => by
    have ih : (List.range' (i + 1) k).mapM (index bs) = (.ok (window bs (i + 1) k) : Exec ε Bytes) :=
      indices_range' (by omega)
    have hcons : bs.drop i = bs[i] :: bs.drop (i + 1) := List.drop_eq_getElem_cons (by omega)
    rw [indices, List.range'_succ, List.mapM_cons, index_eq_ok (by omega), ok_bind, ih, ok_bind,
      pure_eq, window, window, hcons, List.take_succ_cons]

theorem length_indices {bs out : Bytes} {is : List Nat}
    (h : (indices bs is : Exec ε Bytes) = .ok out) : out.length = is.length := by
  by_cases hin : ∀ i ∈ is, i < bs.length
  · obtain ⟨out', hout', hlen⟩ := indices_eq_ok (ε := ε) hin
    rwa [← Exec.ok.inj (hout'.symm.trans h)]
  · simp only [not_forall, Nat.not_lt] at hin
    obtain ⟨i, hi, hle⟩ := hin
    rw [indices_eq_panic ⟨i, hi, hle⟩] at h
    exact absurd h (by simp)

theorem slice_eq_ok {bs : Bytes} {lo hi : Nat} (h₁ : lo ≤ hi) (h₂ : hi ≤ bs.length) :
    (slice bs lo hi : Exec ε Bytes) = .ok ((bs.drop lo).take (hi - lo)) :=
  if_pos ⟨h₁, h₂⟩

/-- The first bytes of an array. -/
theorem slice_arr {n k : Nat} (a : Arr n) (h : k ≤ n) :
    (slice a.val 0 k : Exec ε Bytes) = .ok (a.val.take k) ∧ (a.val.take k).length = k := by
  have hk : k ≤ a.val.length := by rwa [a.property]
  exact ⟨slice_eq_ok (Nat.zero_le k) hk, List.length_take_of_le hk⟩

/-- `&bs[..n.min(bs.len())]`. -/
theorem slice_min (bs : Bytes) (n : Nat) :
    (slice bs 0 (min n bs.length) : Exec ε Bytes) = .ok (bs.take n) := by
  rw [slice_eq_ok (Nat.zero_le _) (Nat.min_le_right _ _), List.drop_zero, Nat.sub_zero,
    ← List.length_take]
  exact congrArg Exec.ok (List.take_eq_take_iff.mpr (by rw [List.length_take]; omega))

theorem slice_window {bs : Bytes} {lo n : Nat} (h : lo + n ≤ bs.length) :
    (slice bs lo (lo + n) : Exec ε Bytes) = .ok (window bs lo n) := by
  rw [slice_eq_ok (Nat.le_add_right lo n) h, Nat.add_sub_cancel_left]
  rfl

theorem copyInto_eq_ok {buf src : Bytes} {lo hi : Nat} (h₁ : lo ≤ hi) (h₂ : hi ≤ buf.length)
    (h₃ : src.length = hi - lo) :
    (copyInto buf lo hi src : Exec ε Bytes) = .ok (buf.take lo ++ src ++ buf.drop hi) :=
  if_pos ⟨h₁, h₂, h₃⟩

/-- What was copied is there afterwards. -/
theorem window_copyInto_self {buf src buf' : Bytes} {lo hi : Nat}
    (h : (copyInto buf lo hi src : Exec ε Bytes) = .ok buf') : window buf' lo (hi - lo) = src := by
  unfold copyInto at h
  split at h
  · rename_i hb
    have hlen : (buf.take lo).length = lo := List.length_take_of_le (by omega)
    rw [← Exec.ok.inj h, window, List.append_assoc, List.drop_left' hlen, List.take_left' hb.2.2]
  · cases h

/-- What lies in front of the range stays. -/
theorem window_copyInto_of_le {buf src buf' : Bytes} {lo hi i k : Nat}
    (h : (copyInto buf lo hi src : Exec ε Bytes) = .ok buf') (hle : i + k ≤ lo) :
    window buf' i k = window buf i k := by
  unfold copyInto at h
  split at h
  · rename_i hb
    have hlen : (buf.take lo).length = lo := List.length_take_of_le (by omega)
    rw [← Exec.ok.inj h, ← window_take hle, List.append_assoc, List.take_left' hlen, window_take hle]
  · cases h

/-- Copying right behind what is already written. -/
theorem copyInto_append {done rest src : Bytes} {lo hi : Nat} (hlo : lo = done.length)
    (hhi : hi = lo + src.length) (hfits : src.length ≤ rest.length) :
    (copyInto (done ++ rest) lo hi src : Exec ε Bytes) = .ok (done ++ src ++ rest.drop src.length) := by
  subst hlo hhi
  rw [copyInto_eq_ok (Nat.le_add_right _ _) (by rw [List.length_append]; omega)
    (Nat.add_sub_cancel_left _ _).symm, List.take_left, List.drop_append,
    List.drop_of_length_le (Nat.le_add_right _ _), List.nil_append, Nat.add_sub_cancel_left]

/-- The next piece goes into a buffer of zeros that is filled from the front. -/
theorem copyInto_zeros {done src : Bytes} {lo hi n : Nat} (hlo : lo = done.length)
    (hhi : hi = lo + src.length) (hfits : src.length ≤ n) :
    (copyInto (done ++ List.replicate n 0) lo hi src : Exec ε Bytes)
      = .ok (done ++ src ++ List.replicate (n - src.length) 0) := by
  rw [copyInto_append hlo hhi (by rwa [List.length_replicate]), List.drop_replicate]

/-! ### Panic freedom, access by access -/

theorem indices_bind_ne_panic {bs : Bytes} {is : List Nat} {f : Bytes → Exec ε β}
    (h : ∀ i ∈ is, i < bs.length) (hf : ∀ out, out.length = is.length → f out ≠ .panic) :
    (indices bs is >>= f) ≠ .panic := by
  obtain ⟨out, hout, hlen⟩ := indices_eq_ok (ε := ε) h
  rw [hout, ok_bind]
  exact hf out hlen

theorem slice_bind_ne_panic {bs : Bytes} {lo hi : Nat} {f : Bytes → Exec ε β} (h₁ : lo ≤ hi)
    (h₂ : hi ≤ bs.length) (hf : ∀ out, out.length = hi - lo → f out ≠ .panic) :
    (slice bs lo hi >>= f) ≠ .panic := by
  rw [slice_eq_ok h₁ h₂, ok_bind]
  refine hf _ ?_
  rw [List.length_take, List.length_drop]
  omega

end Exec

/-! ## Readers: a cursor over the unread bytes -/

/-- A reader consumes bytes from the front of the buffer. -/
structure Reader (ε α : Type) where
  /-- Result and unread bytes, from the bytes to read. -/
  run : Bytes → Exec ε (α × Bytes)

namespace Reader

variable {ε α β : Type}

instance : Monad (Reader ε) where
  pure a := ⟨fun b => .ok (a, b)⟩
  bind p f := ⟨fun b => p.run b >>= fun x => (f x.1).run x.2⟩

@[simp] theorem run_pure (a : α) (b : Bytes) : (pure a : Reader ε α).run b = .ok (a, b) := rfl

@[simp] theorem run_bind (p : Reader ε α) (f : α → Reader ε β) (b : Bytes) :
    (p >>= f).run b = (p.run b >>= fun x => (f x.1).run x.2) := rfl

instance : LawfulMonad (Reader ε) := LawfulMonad.mk' (Reader ε)
  (fun p => by
    show (⟨fun b => p.run b >>= fun x => Exec.ok (x.1, x.2)⟩ : Reader ε _) = p
    congr 1
    funext b
    cases p.run b <;> rfl)
  (fun _ _ => rfl)
  (fun p f g => by
    show (⟨fun b => (p.run b >>= fun x => (f x.1).run x.2) >>= fun y => (g y.1).run y.2⟩ :
      Reader ε _) = ⟨fun b => p.run b >>= fun x => (f x.1).run x.2 >>= fun y => (g y.1).run y.2⟩
    congr 1
    funext b
    rw [bind_assoc])

/-- `return Err(e)`. -/
def fail (e : ε) : Reader ε α := ⟨fun _ => .err e⟩

/-- `split_to(n)`: the next `n` bytes, a panic if there are fewer. -/
def splitTo (n : Nat) : Reader ε Bytes := ⟨fun b =>
  if n ≤ b.length then .ok (b.take n, b.drop n) else .panic⟩

/-- `copy_to_slice(&mut [u8; n])`: the same read into a fixed-size array. -/
def copyToSlice (n : Nat) : Reader ε (Arr n) := ⟨fun b =>
  if h : n ≤ b.length then .ok (⟨b.take n, List.length_take_of_le h⟩, b.drop n) else .panic⟩

/-- `if buf.remaining() < n { return Err(e) }`. -/
def require (n : Nat) (e : ε) : Reader ε Unit := ⟨fun b =>
  if b.length < n then .err e else .ok ((), b)⟩

/-- A read of `n` bytes that reports instead of panicking: the guard, then the split. -/
def takeOr (n : Nat) (e : ε) : Reader ε Bytes := do
  require n e
  splitTo n

/-- `get_u8`. -/
def getU8 : Reader ε UInt8 := ⟨fun b =>
  match b with
  | [] => .panic
  | x :: r => .ok (x, r)⟩

/-- `get_u32`. -/
def getU32 : Reader ε UInt32 := do return ofU32Be (← splitTo 4)
/-- `get_u64`. -/
def getU64 : Reader ε UInt64 := do return ofU64Be (← splitTo 8)
/-- `get_i64`. -/
def getI64 : Reader ε Int64 := do return ofI64Be (← splitTo 8)

/-- `String::from_utf8(bytes).map_err(..)?`. -/
def text (bs : Bytes) (e : ε) : Reader ε String := ⟨fun b =>
  match fromUtf8 bs with
  | some s => .ok (s, b)
  | none => .err e⟩

/-! ### When a read succeeds, and what it ate -/

theorem bind_eq_ok {p : Reader ε α} {f : α → Reader ε β} {b r : Bytes} {c : β} :
    (p >>= f).run b = .ok (c, r) ↔ ∃ a m, p.run b = .ok (a, m) ∧ (f a).run m = .ok (c, r) := by
  rw [run_bind, Exec.bind_eq_ok]
  constructor
  · rintro ⟨⟨a, m⟩, hp, hf⟩
    exact ⟨a, m, hp, hf⟩
  · rintro ⟨a, m, hp, hf⟩
    exact ⟨(a, m), hp, hf⟩

theorem pure_eq_ok {a c : α} {b r : Bytes} :
    (pure a : Reader ε α).run b = .ok (c, r) ↔ c = a ∧ r = b := by
  rw [run_pure, Exec.ok.injEq, Prod.mk.injEq]
  exact and_congr eq_comm eq_comm

theorem splitTo_eq_ok {n : Nat} {b w r : Bytes} :
    (splitTo n : Reader ε Bytes).run b = .ok (w, r) ↔ w.length = n ∧ b = w ++ r := by
  show (if n ≤ b.length then Exec.ok (b.take n, b.drop n) else .panic) = _ ↔ _
  constructor
  · intro h
    split at h
    · rename_i hn
      obtain ⟨hw, hr⟩ := Prod.mk.inj (Exec.ok.inj h)
      rw [← hw, ← hr]
      exact ⟨List.length_take_of_le hn, (List.take_append_drop n b).symm⟩
    · exact absurd h (by simp)
  · rintro ⟨hn, rfl⟩
    subst hn
    rw [if_pos (by simp), List.take_left, List.drop_left]

theorem require_eq_ok {n : Nat} {e : ε} {b r : Bytes} {u : Unit} :
    (require n e).run b = .ok (u, r) ↔ n ≤ b.length ∧ r = b := by
  show (if b.length < n then Exec.err e else .ok ((), b)) = _ ↔ _
  by_cases h : b.length < n
  · rw [if_pos h]
    simp only [reduceCtorEq, false_iff, not_and]
    omega
  · rw [if_neg h, Exec.ok.injEq, Prod.mk.injEq]
    exact ⟨fun hr => ⟨by omega, hr.2.symm⟩, fun hr => ⟨rfl, hr.2.symm⟩⟩

theorem run_takeOr (n : Nat) (e : ε) (r : Bytes) :
    (takeOr n e).run r = if n ≤ r.length then .ok (r.take n, r.drop n) else .err e := by
  rcases Nat.lt_or_ge r.length n with h | h
  · have hreq : (require n e).run r = .err e := if_pos h
    rw [takeOr, run_bind, hreq, if_neg (by omega)]
    rfl
  · have hreq : (require n e).run r = .ok ((), r) := if_neg (by omega)
    have hsplit : (splitTo n : Reader ε Bytes).run r = .ok (r.take n, r.drop n) := if_pos h
    rw [takeOr, run_bind, hreq, Exec.ok_bind, hsplit, if_pos h]

theorem run_takeOr_append {n : Nat} {w : Bytes} (h : w.length = n) (e : ε) (r : Bytes) :
    (takeOr n e).run (w ++ r) = .ok (w, r) := by
  subst h
  rw [run_takeOr, if_pos (by simp), List.take_left, List.drop_left]

theorem run_takeOr_short {n : Nat} {r : Bytes} (h : r.length < n) (e : ε) :
    (takeOr n e).run r = .err e := by
  rw [run_takeOr, if_neg (by omega)]

theorem takeOr_bind_eq_ok {n : Nat} {e : ε} {f : Bytes → Reader ε β} {b r : Bytes} {c : β} :
    (takeOr n e >>= f).run b = .ok (c, r) ↔
      ∃ w m, w.length = n ∧ b = w ++ m ∧ (f w).run m = .ok (c, r) := by
  rw [bind_eq_ok]
  constructor
  · rintro ⟨w, m, htake, hf⟩
    obtain ⟨u, _, hreq, hsplit⟩ := bind_eq_ok.mp htake
    obtain ⟨-, rfl⟩ := require_eq_ok.mp hreq
    obtain ⟨hlen, hb⟩ := splitTo_eq_ok.mp hsplit
    exact ⟨w, m, hlen, hb, hf⟩
  · rintro ⟨w, m, hlen, rfl, hf⟩
    exact ⟨w, m, run_takeOr_append hlen e m, hf⟩

theorem text_eq_ok {bs : Bytes} {e : ε} {b r : Bytes} {s : String} :
    (text bs e).run b = .ok (s, r) ↔ bs = utf8 s ∧ r = b := by
  show (match fromUtf8 bs with | some s => Exec.ok (s, b) | none => .err e) = _ ↔ _
  constructor
  · intro h
    cases hs : fromUtf8 bs with
    | none => rw [hs] at h; exact absurd h (by simp)
    | some t =>
      rw [hs] at h
      obtain ⟨ht, hr⟩ := Prod.mk.inj (Exec.ok.inj h)
      rw [← ht]
      exact ⟨(utf8_of_fromUtf8 hs).symm, hr.symm⟩
  · rintro ⟨rfl, rfl⟩
    rw [fromUtf8_utf8]

/-! ### Readers that invert a writer -/

/-- `p` is the exact inverse of the writer `enc` on the values satisfying `dom`: it succeeds on
    the bytes that start with the encoding of such a value, and on no others, and leaves the rest
    unread. -/
def Inverts (p : Reader ε α) (enc : α → Bytes) (dom : α → Prop) : Prop :=
  ∀ b a r, p.run b = .ok (a, r) ↔ dom a ∧ b = enc a ++ r

theorem inverts_copyToSlice (n : Nat) :
    Inverts (copyToSlice n : Reader ε (Arr n)) Subtype.val (fun _ => True) := by
  intro b a r
  rw [true_and]
  show (if h : n ≤ b.length then Exec.ok (_, b.drop n) else .panic) = _ ↔ _
  constructor
  · intro h
    split at h
    · obtain ⟨ha, hr⟩ := Prod.mk.inj (Exec.ok.inj h)
      rw [← ha, ← hr]
      exact (List.take_append_drop n b).symm
    · exact absurd h (by simp)
  · rintro rfl
    obtain ⟨w, hw⟩ := a
    subst hw
    rw [dif_pos (by simp)]
    simp

theorem inverts_getU8 : Inverts (getU8 : Reader ε UInt8) (fun x => [x]) (fun _ => True) := by
  intro b x r
  cases b with
  | nil => simp [getU8]
  | cons y b => simp [getU8]

theorem inverts_getU32 : Inverts (getU32 : Reader ε UInt32) u32Be (fun _ => True) := by
  intro b x r
  simp only [getU32, bind_eq_ok, splitTo_eq_ok, pure_eq_ok, true_and]
  constructor
  · rintro ⟨w, m, ⟨hw, rfl⟩, rfl, rfl⟩
    rw [u32Be_ofU32Be hw]
  · rintro rfl
    exact ⟨u32Be x, r, ⟨length_u32Be x, rfl⟩, (ofU32Be_u32Be x).symm, rfl⟩

theorem inverts_getU64 : Inverts (getU64 : Reader ε UInt64) u64Be (fun _ => True) := by
  intro b x r
  simp only [getU64, bind_eq_ok, splitTo_eq_ok, pure_eq_ok, true_and]
  constructor
  · rintro ⟨w, m, ⟨hw, rfl⟩, rfl, rfl⟩
    rw [u64Be_ofU64Be hw]
  · rintro rfl
    exact ⟨u64Be x, r, ⟨length_u64Be x, rfl⟩, (ofU64Be_u64Be x).symm, rfl⟩

theorem inverts_getI64 : Inverts (getI64 : Reader ε Int64) i64Be (fun _ => True) := by
  intro b x r
  simp only [getI64, bind_eq_ok, splitTo_eq_ok, pure_eq_ok, true_and]
  constructor
  · rintro ⟨w, m, ⟨hw, rfl⟩, rfl, rfl⟩
    rw [i64Be_ofI64Be hw]
  · rintro rfl
    exact ⟨i64Be x, r, ⟨length_i64Be x, rfl⟩, (ofI64Be_i64Be x).symm, rfl⟩

/-! ### Panics of a sequence -/

/-- `p` does not panic on `b`. -/
def Safe (p : Reader ε α) (b : Bytes) : Prop := p.run b ≠ .panic

theorem safe_pure (a : α) (b : Bytes) : Safe (pure a : Reader ε α) b := by
  simp [Safe]

theorem safe_fail (e : ε) (b : Bytes) : Safe (fail e : Reader ε α) b := by
  simp [Safe, fail]

theorem safe_bind {p : Reader ε α} {f : α → Reader ε β} {b : Bytes} :
    Safe (p >>= f) b ↔ Safe p b ∧ ∀ a r, p.run b = .ok (a, r) → Safe (f a) r := by
  rw [Safe, run_bind, Exec.bind_ne_panic]
  constructor
  · rintro ⟨hp, hf⟩
    exact ⟨hp, fun a r h => hf (a, r) h⟩
  · rintro ⟨hp, hf⟩
    exact ⟨hp, fun ⟨a, r⟩ h => hf a r h⟩

/-- An unguarded fixed-width read: `n` bytes are taken, and a panic is all that can go wrong. -/
def FixedRead (p : Reader ε α) (n : Nat) : Prop :=
  ∀ b, (b.length < n → p.run b = .panic) ∧ (n ≤ b.length → ∃ a, p.run b = .ok (a, b.drop n))

theorem fixedRead_splitTo (n : Nat) : FixedRead (splitTo n : Reader ε Bytes) n :=
  fun b => ⟨fun h => if_neg (by omega), fun h => ⟨b.take n, if_pos h⟩⟩

theorem fixedRead_copyToSlice (n : Nat) : FixedRead (copyToSlice n : Reader ε (Arr n)) n :=
  fun b => ⟨fun h => dif_neg (by omega), fun h => ⟨_, dif_pos h⟩⟩

/-- A read followed by a conversion is as wide as the read. -/
theorem FixedRead.convert {p : Reader ε α} {n : Nat} (hp : FixedRead p n) (f : α → β) :
    FixedRead (do return f (← p)) n := by
  refine fun b => ⟨fun h => ?_, fun h => ?_⟩
  · rw [run_bind, (hp b).1 h, Exec.panic_bind]
  · obtain ⟨a, ha⟩ := (hp b).2 h
    exact ⟨f a, by rw [run_bind, ha, Exec.ok_bind, run_pure]⟩

theorem fixedRead_getU32 : FixedRead (getU32 : Reader ε UInt32) 4 :=
  (fixedRead_splitTo 4).convert ofU32Be

theorem fixedRead_getU64 : FixedRead (getU64 : Reader ε UInt64) 8 :=
  (fixedRead_splitTo 8).convert ofU64Be

theorem fixedRead_getI64 : FixedRead (getI64 : Reader ε Int64) 8 :=
  (fixedRead_splitTo 8).convert ofI64Be

/-- A sequence that starts with a fixed-width read is safe when the bytes are there and the rest
    is safe on what follows. -/
theorem FixedRead.safe_bind {p : Reader ε α} {n : Nat} {k : α → Reader ε β} {b : Bytes}
    {Q : Bytes → Prop} (hp : FixedRead p n) (hk : ∀ a r, Safe (k a) r ↔ Q r) :
    Safe (p >>= k) b ↔ n ≤ b.length ∧ Q (b.drop n) := by
  rw [Reader.safe_bind]
  rcases Nat.lt_or_ge b.length n with h | h
  · have hpanic := (hp b).1 h
    constructor
    · rintro ⟨hs, -⟩
      exact absurd hpanic hs
    · rintro ⟨hn, -⟩
      omega
  · obtain ⟨a, ha⟩ := (hp b).2 h
    rw [Safe, ha]
    constructor
    · rintro ⟨-, hs⟩
      exact ⟨h, (hk a _).mp (hs a _ rfl)⟩
    · rintro ⟨-, hs⟩
      refine ⟨by simp, fun a' r' hr => ?_⟩
      obtain ⟨rfl, rfl⟩ := Prod.mk.inj (Exec.ok.inj hr)
      exact (hk _ _).mpr hs

/-- The same rule for `get_u8`, whose value the rest may depend on. -/
theorem safe_getU8_bind {k : UInt8 → Reader ε β} {b : Bytes} :
    Safe (getU8 >>= k) b ↔ ∃ x r, b = x :: r ∧ Safe (k x) r := by
  cases b with
  | nil => simp [Safe, getU8]
  | cons y b => simp [Safe, getU8]

/-- A guarded read is safe whatever remains. -/
theorem safe_takeOr_bind {n : Nat} {e : ε} {k : Bytes → Reader ε β} {b : Bytes}
    (hk : ∀ w r, Safe (k w) r) : Safe (takeOr n e >>= k) b := by
  rw [Safe, run_bind, run_takeOr]
  split
  · exact hk _ _
  · simp

theorem safe_text_bind {bs : Bytes} {e : ε} {k : String → Reader ε β} {b : Bytes}
    (hk : ∀ s, Safe (k s) b) : Safe (text bs e >>= k) b := by
  rw [Safe, run_bind, text]
  cases fromUtf8 bs with
  | none => simp
  | some s => exact hk s

/-- A guard never panics; the rest runs only on enough bytes. -/
theorem safe_require_bind {n : Nat} {e : ε} {k : Unit → Reader ε β} {b : Bytes} :
    Safe (require n e >>= k) b ↔ (n ≤ b.length → Safe (k ()) b) := by
  by_cases h : b.length < n
  · have hrun : (require n e).run b = .err e := if_pos h
    simp only [Safe, run_bind, hrun, Exec.err_bind]
    simp only [ne_eq, reduceCtorEq, not_false_iff, true_iff]
    omega
  · have hrun : (require n e).run b = .ok ((), b) := if_neg h
    simp only [Safe, run_bind, hrun, Exec.ok_bind]
    exact ⟨fun hs _ => hs, fun hs => hs (by omega)⟩

/-! ### Length-prefixed chunks -/

/-- `put_u32(x.len() as u32); put_slice(x)` — the cast keeps the length modulo `2 ^ 32`. -/
def frame (x : Bytes) : Bytes := u32Be (UInt32.ofNat x.length) ++ x

/-- A 4-byte length, the guard on the bytes it announces, and the bytes. -/
def getFrame (e : ε) : Reader ε Bytes := do
  let n ← getU32
  require n.toNat e
  splitTo n.toNat

theorem length_frame (x : Bytes) : (frame x).length = 4 + x.length := by
  rw [frame, List.length_append, length_u32Be]

theorem toNat_ofNat_length {x : Bytes} (h : x.length < 2 ^ 32) :
    (UInt32.ofNat x.length).toNat = x.length := by
  rw [UInt32.toNat_ofNat', Nat.mod_eq_of_lt h]

theorem inverts_getFrame (e : ε) :
    Inverts (getFrame e) frame (fun x => x.length < 2 ^ 32) := by
  intro b x r
  simp only [getFrame, bind_eq_ok, inverts_getU32 _ _ _, require_eq_ok, splitTo_eq_ok, true_and]
  constructor
  · rintro ⟨n, _, rfl, -, _, ⟨-, rfl⟩, hx, rfl⟩
    have hn := n.toNat_lt
    refine ⟨by omega, ?_⟩
    rw [frame, hx, UInt32.ofNat_toNat, List.append_assoc]
  · rintro ⟨hx, rfl⟩
    have hn := toNat_ofNat_length hx
    refine ⟨_, x ++ r, by rw [frame, List.append_assoc], (), _, ⟨?_, rfl⟩, hn.symm, rfl⟩
    rw [hn, List.length_append]
    omega

/-- A chunk is read back in one way only. -/
theorem frame_append_inj {x y r t : Bytes} (hx : x.length < 2 ^ 32) (hy : y.length < 2 ^ 32)
    (h : frame x ++ r = frame y ++ t) : x = y ∧ r = t := by
  have h1 := (inverts_getFrame () (frame x ++ r) x r).mpr ⟨hx, rfl⟩
  rw [h, (inverts_getFrame () _ y t).mpr ⟨hy, rfl⟩] at h1
  obtain ⟨hxy, hrt⟩ := Prod.mk.inj (Exec.ok.inj h1)
  exact ⟨hxy.symm, hrt.symm⟩

/-- With its length bytes present, reading a chunk cannot panic. -/
theorem safe_getFrame {e : ε} {b : Bytes} (h : 4 ≤ b.length) : Safe (getFrame e) b := by
  refine Reader.safe_bind.mpr ⟨?_, fun n r _ => ?_⟩
  · obtain ⟨n, hn⟩ := (fixedRead_getU32 b).2 h
    rw [Safe, hn]
    simp
  · refine safe_require_bind.mpr fun hr => ?_
    obtain ⟨w, hw⟩ := (fixedRead_splitTo n.toNat r).2 hr
    rw [Safe, hw]
    simp

end Reader

end Wire
