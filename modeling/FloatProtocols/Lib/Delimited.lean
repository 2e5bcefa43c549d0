/-
  Unique decodability without a decoder.

  A writer is `Delimited` on a set of values when what it writes can be cut off the front of ANY
  byte string in one way only: `enc x ++ r = enc y ++ t` forces `x = y` and `r = t`.  Such a writer
  is injective (`Delimited.injective`), and the property is kept by everything a format is put
  together from:

  * a fixed width (`delimited_of_length`) or a length in front (`delimited_frame`);
  * one field after the other (`Delimited.append`), an optional field (`Delimited.optional`) and a
    counted list (`Delimited.counted`);
  * a record written as the tuple of its fields (`Delimited.comap`).
-/
import FloatProtocols.Lib.Exec

namespace Wire

variable {α β : Type} {enc : α → Bytes} {dom : α → Prop}

/-- Of the values in `dom`, at most one is written at the front of a byte string. -/
def Delimited (enc : α → Bytes) (dom : α → Prop) : Prop :=
  ∀ x y, dom x → dom y → ∀ r t, enc x ++ r = enc y ++ t → x = y ∧ r = t

theorem Delimited.injective (h : Delimited enc dom) {x y : α} (hx : dom x) (hy : dom y)
    (he : enc x = enc y) : x = y :=
  (h x y hx hy [] [] (congrArg (· ++ []) he)).1

/-! ## Fields -/

theorem delimited_of_length {n : Nat} (hlen : ∀ x, dom x → (enc x).length = n)
    (hinj : ∀ x y, dom x → dom y → enc x = enc y → x = y) : Delimited enc dom := by
  intro x y hx hy r t h
  obtain ⟨he, hrt⟩ := List.append_inj h (by rw [hlen x hx, hlen y hy])
  exact ⟨hinj x y hx hy he, hrt⟩

theorem delimited_u32Be : Delimited u32Be fun _ => True :=
  delimited_of_length (fun x _ => length_u32Be x) fun _ _ _ _ => u32Be_inj

theorem delimited_u64Be : Delimited u64Be fun _ => True :=
  delimited_of_length (fun x _ => length_u64Be x) fun _ _ _ _ => u64Be_inj

theorem delimited_byte : Delimited (fun b : UInt8 => [b]) fun _ => True :=
  delimited_of_length (fun _ _ => rfl) fun _ _ _ _ h => (List.cons.inj h).1

theorem delimited_frame : Delimited Reader.frame fun x => x.length < 2 ^ 32 :=
  fun _ _ hx hy _ _ h => Reader.frame_append_inj hx hy h

/-! ## Records -/

/-- What is written of `x` is what is written of `g x`. -/
theorem Delimited.comap (h : Delimited enc dom) {g : β → α} {dom' : β → Prop}
    (hdom : ∀ x, dom' x → dom (g x)) (hg : ∀ x y, g x = g y → x = y) :
    Delimited (fun x => enc (g x)) dom' := by
  intro x y hx hy r t he
  obtain ⟨hxy, hrt⟩ := h (g x) (g y) (hdom x hx) (hdom y hy) r t he
  exact ⟨hg x y hxy, hrt⟩

theorem Delimited.append (h : Delimited enc dom) {enc' : β → Bytes} {dom' : β → Prop}
    (h' : Delimited enc' dom') :
    Delimited (fun p : α × β => enc p.1 ++ enc' p.2) fun p => dom p.1 ∧ dom' p.2 := by
  rintro ⟨x, x'⟩ ⟨y, y'⟩ ⟨hx, hx'⟩ ⟨hy, hy'⟩ r t he
  rw [List.append_assoc, List.append_assoc] at he
  obtain ⟨rfl, he'⟩ := h x y hx hy _ _ he
  obtain ⟨rfl, hrt⟩ := h' x' y' hx' hy' r t he'
  exact ⟨rfl, hrt⟩

/-- A byte 1 in front of a value, a byte 0 in place of none. -/
def optional (enc : α → Bytes) : Option α → Bytes
  | some x => 1 :: enc x
  | none => [0]

theorem Delimited.optional (h : Delimited enc dom) :
    Delimited (optional enc) fun o => ∀ x, o = some x → dom x := by
  intro o o' ho ho' r t he
  cases o with
  | none =>
    cases o' with
    | none => exact ⟨rfl, (List.cons.inj he).2⟩
    | some y => exact absurd (List.cons.inj he).1 (by decide)
  | some x =>
    cases o' with
    | none => exact absurd (List.cons.inj he).1 (by decide)
    | some y =>
      obtain ⟨rfl, hrt⟩ := h x y (ho x rfl) (ho' y rfl) r t (List.cons.inj he).2
      exact ⟨rfl, hrt⟩

/-! ## Counted lists -/

/-- `put_u32(l.len() as u32)`, then the elements. -/
def counted (enc : α → Bytes) (l : List α) : Bytes :=
  u32Be (UInt32.ofNat l.length) ++ l.flatMap enc

/-- Lists of one length, written without it. -/
theorem Delimited.flatMap (h : Delimited enc dom) : ∀ {l m : List α}, l.length = m.length →
    (∀ x ∈ l, dom x) → (∀ y ∈ m, dom y) → ∀ {r t : Bytes},
    l.flatMap enc ++ r = m.flatMap enc ++ t → l = m ∧ r = t
  | [], [], _, _, _, _, _, he => ⟨rfl, he⟩
  | x :: l, y :: m, hlen, hl, hm, r, t, he => by
    rw [List.flatMap_cons, List.flatMap_cons, List.append_assoc, List.append_assoc] at he
    obtain ⟨rfl, hrest⟩ := h x y (hl x List.mem_cons_self) (hm y List.mem_cons_self) _ _ he
    obtain ⟨rfl, hrt⟩ := Delimited.flatMap h (Nat.succ.inj hlen)
      (fun z hz => hl z (List.mem_cons_of_mem _ hz)) (fun z hz => hm z (List.mem_cons_of_mem _ hz))
      hrest
    exact ⟨rfl, hrt⟩

theorem Delimited.counted (h : Delimited enc dom) :
    Delimited (counted enc) fun l => l.length < 2 ^ 32 ∧ ∀ x ∈ l, dom x := by
  rintro l m ⟨hl, hdl⟩ ⟨hm, hdm⟩ r t he
  rw [Wire.counted, Wire.counted, List.append_assoc, List.append_assoc] at he
  obtain ⟨hcount, hitems⟩ := delimited_u32Be _ _ trivial trivial _ _ he
  have hlen : l.length = m.length := by
    have hmod := congrArg UInt32.toNat hcount
    rwa [UInt32.toNat_ofNat', UInt32.toNat_ofNat', Nat.mod_eq_of_lt hl, Nat.mod_eq_of_lt hm] at hmod
  exact h.flatMap hlen hdl hdm hitems

end Wire
