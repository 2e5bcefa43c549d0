/-
  Cyclic redundancy checks as a shift register, and the bursts they catch.

  The register has any width `w`; `poly` is the polynomial without its leading term.  Feeding one bit
  shifts the register and brings the polynomial in when the bit that leaves differs from the bit that
  comes.  Three facts carry everything:

  1. **Linearity (`run_xor`)** — the register after `l` xor `k` is the xor of the registers after both.

  2. **Words (`run_eq_iterate`)** — a word xored onto the register and shifted through is the word fed
     bit by bit, so a program that takes a byte at a time computes the same; and the register is empty
     after its own content was fed to it, and after no other word (`run_bits_eq_zero_iff`).

  3. **No loss (`shift_eq_zero`)** — a polynomial with a constant term never shifts a register empty.
     So what a burst of `w` bits has put into an empty register stays (`run_burst_ne_zero`), and a code
     word hit by one is a code word no more (`burst_detected`).

  A program that shifts the other way computes the mirror image (`reverse_shiftDown`), over the bits in
  the order in which a serial line sends them (`lineBits`).
-/
import Mathlib.Logic.Function.Iterate
import FloatProtocols.Lib.Bytes

namespace Crc

open Wire

variable {w : Nat} {poly s t x : BitVec w}

/-- One shift: the bit that leaves at the top decides whether the polynomial comes in. -/
def shift (poly s : BitVec w) : BitVec w := if s.msb then (s <<< 1) ^^^ poly else s <<< 1

/-- One shift with a bit coming in. -/
def feed (poly s : BitVec w) (b : Bool) : BitVec w :=
  if s.msb ^^ b then (s <<< 1) ^^^ poly else s <<< 1

/-- The register after a bit string. -/
def run (poly s : BitVec w) (l : List Bool) : BitVec w := l.foldl (feed poly) s

theorem run_append (poly s : BitVec w) (l k : List Bool) :
    run poly s (l ++ k) = run poly (run poly s l) k := List.foldl_append

theorem feed_false (poly s : BitVec w) : feed poly s false = shift poly s := by
  rw [feed, shift, Bool.xor_false]

/-! ## Linearity -/

theorem feed_xor (poly s t : BitVec w) (a b : Bool) :
    feed poly (s ^^^ t) (a ^^ b) = feed poly s a ^^^ feed poly t b := by
  have hcancel : ∀ y z : BitVec w, y ^^^ poly ^^^ (z ^^^ poly) = y ^^^ z := by
    intro y z
    rw [BitVec.xor_assoc, BitVec.xor_comm z poly, ← BitVec.xor_assoc poly, BitVec.xor_self,
      BitVec.zero_xor]
  have hbit : ((s ^^^ t).msb ^^ (a ^^ b)) = ((s.msb ^^ a) ^^ (t.msb ^^ b)) := by
    rw [BitVec.msb_xor]
    cases s.msb <;> cases t.msb <;> cases a <;> cases b <;> rfl
  rw [feed, feed, feed, hbit, BitVec.shiftLeft_xor_distrib]
  cases s.msb ^^ a <;> cases t.msb ^^ b
  · rfl
  · exact BitVec.xor_assoc _ _ _
  · exact (BitVec.xor_assoc _ _ _).trans
      ((congrArg _ (BitVec.xor_comm _ _)).trans (BitVec.xor_assoc _ _ _).symm)
  · exact (hcancel _ _).symm

/-- **The register is linear in start value and bits.** -/
theorem run_xor (poly : BitVec w) : ∀ (s t : BitVec w) {l k : List Bool}, l.length = k.length →
    run poly (s ^^^ t) (List.zipWith Bool.xor l k) = run poly s l ^^^ run poly t k
  | _, _, [], [], _ => rfl
  | s, t, a :: l, b :: k, h => by
    have ih := run_xor poly (feed poly s a) (feed poly t b) (Nat.succ.inj h)
    rw [← feed_xor] at ih
    exact ih

/-! ## Words -/

/-- The register holds these bits, from the top on. -/
def Holds (x : BitVec w) (l : List Bool) : Prop := ∀ i, x.getMsbD i = l.getD i false

theorem Holds.tail {b : Bool} {l : List Bool} (h : Holds x (b :: l)) : Holds (x <<< 1) l := by
  intro i
  rw [BitVec.getMsbD_shiftLeft, h, List.getD_cons_succ]

theorem Holds.nil (h : Holds x []) : x = 0#w := by
  refine BitVec.eq_of_getMsbD_eq fun i _ => ?_
  rw [h, BitVec.getMsbD_zero, List.getD_nil]

/-- A word meets its own top bit: nothing comes in. -/
theorem shift_xor_of_holds {b : Bool} {l : List Bool} (h : Holds x (b :: l)) :
    shift poly (s ^^^ x) = feed poly s b ^^^ (x <<< 1) := by
  have hmsb : x.msb = b := by
    rw [BitVec.msb_eq_getMsbD_zero, h]
    rfl
  have hx : feed poly x b = x <<< 1 := by
    rw [feed, hmsb, Bool.xor_self]
    rfl
  rw [← feed_false, ← Bool.xor_self b, feed_xor, hx]

/-- **Xor and shift through, or feed bit by bit.** -/
theorem run_eq_iterate (poly : BitVec w) : ∀ {l : List Bool} (s : BitVec w) {x : BitVec w}, Holds x l →
    run poly s l = (shift poly)^[l.length] (s ^^^ x)
  | [], s, x, h => by
    rw [h.nil, BitVec.xor_zero]
    rfl
  | b :: l, s, x, h => by
    rw [List.length_cons, Function.iterate_succ_apply, shift_xor_of_holds h]
    exact run_eq_iterate poly (feed poly s b) h.tail

/-- The bits of a word, the highest first. -/
def bits {n : Nat} (x : BitVec n) : List Bool := (List.range n).map x.getMsbD

theorem length_bits {n : Nat} (x : BitVec n) : (bits x).length = n := by
  rw [bits, List.length_map, List.length_range]

theorem getD_bits {n : Nat} (x : BitVec n) (i : Nat) : (bits x).getD i false = x.getMsbD i := by
  by_cases hi : i < n
  · rw [bits, List.getD_eq_getElem?_getD, List.getElem?_map, List.getElem?_range hi]
    rfl
  · rw [List.getD_eq_getElem?_getD, List.getElem?_eq_none (by rw [length_bits]; omega),
      BitVec.getMsbD_of_ge _ _ (by omega)]
    rfl

theorem bits_xor {n : Nat} (x y : BitVec n) :
    bits (x ^^^ y) = List.zipWith Bool.xor (bits x) (bits y) := by
  rw [bits, bits, bits, List.zipWith_map, List.zipWith_self]
  exact List.map_congr_left fun i _ => BitVec.getMsbD_xor

/-- One word behind the other. -/
theorem bits_append {n k : Nat} (x : BitVec n) (y : BitVec k) : bits (x ++ y) = bits x ++ bits y := by
  rw [bits, bits, bits, List.range_add, List.map_append, List.map_map]
  congr 1
  · refine List.map_congr_left fun i hi => ?_
    rw [BitVec.getMsbD_append, if_neg (Nat.not_le.mpr (List.mem_range.mp hi))]
  · refine List.map_congr_left fun i _ => ?_
    rw [Function.comp_apply, BitVec.getMsbD_append, if_pos (Nat.le_add_right n i),
      Nat.add_sub_cancel_left]

/-- A shorter word stands at the top of the register once it is shifted there. -/
theorem holds_bits {n : Nat} (x : BitVec n) (h : n ≤ w) :
    Holds (x.setWidth w <<< (w - n)) (bits x) := by
  intro i
  have hplace : w - n ≤ i + (w - n) := Nat.le_add_left _ _
  have hback : i + (w - n) + n - w = i := by omega
  rw [getD_bits, BitVec.getMsbD_shiftLeft, BitVec.getMsbD_setWidth, decide_eq_true hplace, hback,
    Bool.true_and]

/-- The bits of a byte string. -/
def bitsOf (bs : Bytes) : List Bool := bs.flatMap fun b => bits b.toBitVec

theorem bitsOf_append (bs cs : Bytes) : bitsOf (bs ++ cs) = bitsOf bs ++ bitsOf cs :=
  List.flatMap_append

theorem length_bitsOf (bs : Bytes) : (bitsOf bs).length = 8 * bs.length := by
  induction bs with
  | nil => rfl
  | cons b bs ih =>
    rw [bitsOf, List.flatMap_cons, List.length_append, length_bits, List.length_cons]
    rw [bitsOf] at ih
    omega

/-- Bytes are corrupted bit by bit. -/
theorem bitsOf_zipWith_xor : ∀ {bs es : Bytes}, bs.length = es.length →
    bitsOf (List.zipWith (· ^^^ ·) bs es) = List.zipWith Bool.xor (bitsOf bs) (bitsOf es)
  | [], [], _ => rfl
  | b :: bs, e :: es, h => by
    have ih := @bitsOf_zipWith_xor bs es (Nat.succ.inj h)
    simp only [bitsOf] at ih ⊢
    rw [List.zipWith_cons_cons, List.flatMap_cons, List.flatMap_cons, List.flatMap_cons,
      List.zipWith_append (by rw [length_bits, length_bits]), UInt8.toBitVec_xor, bits_xor, ih]

/-! ## No loss -/

/-- **A polynomial with a constant term shifts nothing away.** -/
theorem shift_eq_zero (hpoly : poly.getLsbD 0 = true) (h : shift poly s = 0#w) : s = 0#w := by
  have hw : 0 < w := by
    rcases Nat.eq_zero_or_pos w with rfl | hw
    · rw [BitVec.getLsbD_of_ge _ _ (Nat.le_refl 0)] at hpoly
      cases hpoly
    · exact hw
  rw [shift] at h
  split at h
  · -- the constant term stays behind
    have hbit : ((s <<< 1) ^^^ poly).getLsbD 0 = true := by
      rw [BitVec.getLsbD_xor, hpoly, BitVec.getLsbD_shiftLeft]
      simp
    rw [h, BitVec.getLsbD_zero] at hbit
    cases hbit
  · rename_i hmsb
    refine BitVec.eq_of_getMsbD_eq fun i _ => ?_
    rw [BitVec.getMsbD_zero]
    cases i with
    | zero => rwa [← BitVec.msb_eq_getMsbD_zero, ← Bool.not_eq_true]
    | succ i => rw [← BitVec.getMsbD_shiftLeft, h, BitVec.getMsbD_zero]

theorem iterate_shift_eq_zero (hpoly : poly.getLsbD 0 = true) (n : Nat)
    (h : (shift poly)^[n] s = 0#w) : s = 0#w := by
  induction n with
  | zero => exact h
  | succ n ih =>
    rw [Function.iterate_succ_apply'] at h
    exact ih (shift_eq_zero hpoly h)

theorem iterate_shift_zero (poly : BitVec w) (n : Nat) : (shift poly)^[n] 0#w = 0#w := by
  induction n with
  | zero => rfl
  | succ n ih =>
    rw [Function.iterate_succ_apply', ih, shift, BitVec.msb_zero, BitVec.zero_shiftLeft]
    rfl

/-- **Exactly its own content empties the register.** -/
theorem run_bits_eq_zero_iff (hpoly : poly.getLsbD 0 = true) :
    run poly s (bits x) = 0#w ↔ s = x := by
  have hx : Holds x (bits x) := fun i => (getD_bits x i).symm
  rw [run_eq_iterate poly s hx]
  constructor
  · intro h
    exact BitVec.xor_eq_zero_iff.mp (iterate_shift_eq_zero hpoly _ h)
  · rintro rfl
    rw [BitVec.xor_self, iterate_shift_zero]

/-! ## Bursts -/

/-- An error: some bit is wrong, and all wrong bits lie among `w` neighbours. -/
structure Burst (w : Nat) (l : List Bool) : Prop where
  hits : true ∈ l
  confined : ∃ start, ∀ i < l.length, l.getD i false = true → start ≤ i ∧ i < start + w

theorem run_zeros (poly : BitVec w) : ∀ {l : List Bool}, (∀ b ∈ l, b = false) → run poly 0#w l = 0#w
  | [], _ => rfl
  | b :: l, h => by
    have hb : b = false := h b List.mem_cons_self
    have hfeed : feed poly 0#w b = 0#w := by
      rw [hb, feed_false]
      exact iterate_shift_zero poly 1
    show run poly (feed poly 0#w b) l = 0#w
    rw [hfeed]
    exact run_zeros poly fun c hc => h c (List.mem_cons_of_mem b hc)

/-- A bit string with nothing behind its first `w` bits is held by a word. -/
theorem exists_holds {l : List Bool} (h : ∀ i, w ≤ i → l.getD i false = false) :
    ∃ x : BitVec w, Holds x l := by
  have hlen : (List.ofFn fun i : Fin w => l.getD i false).length = w := List.length_ofFn
  refine ⟨(BitVec.ofBoolListBE (List.ofFn fun i : Fin w => l.getD i false)).cast hlen, ?_⟩
  intro i
  rw [BitVec.getMsbD_cast, BitVec.getMsbD_ofBoolListBE, List.getD_eq_getElem?_getD, List.getElem?_ofFn]
  split
  · rfl
  · exact (h i (by omega)).symm

/-- **A burst leaves its mark.** -/
theorem run_burst_ne_zero (hpoly : poly.getLsbD 0 = true) {l : List Bool} (h : Burst w l) :
    run poly 0#w l ≠ 0#w := by
  obtain ⟨start, hbits⟩ := h.confined
  have hconfined : ∀ i, l.getD i false = true → start ≤ i ∧ i < start + w := by
    intro i hbit
    refine hbits i ?_ hbit
    by_contra hlong
    rw [List.getD_eq_getElem?_getD, List.getElem?_eq_none (Nat.not_lt.mp hlong)] at hbit
    cases hbit
  have hget : ∀ i, (l.drop start).getD i false = l.getD (start + i) false := by
    intro i
    rw [List.getD_eq_getElem?_getD, List.getElem?_drop, List.getD_eq_getElem?_getD]
  have hset : ∀ i, l[i]? = some true → l.getD i false = true := by
    intro i hi
    rw [List.getD_eq_getElem?_getD, hi]
    rfl
  -- the register is still empty where the burst begins
  have hbefore : ∀ b ∈ l.take start, b = false := by
    intro b hb
    obtain ⟨i, hi, hbit⟩ := List.mem_take_iff_getElem.mp hb
    rw [← Bool.not_eq_true]
    rintro rfl
    have hle := (hconfined i (hset i (hbit ▸ List.getElem?_eq_getElem (by omega)))).1
    omega
  -- and one word holds all that is left
  have hbehind : ∀ i, w ≤ i → (l.drop start).getD i false = false := by
    intro i hi
    rw [hget, ← Bool.not_eq_true]
    intro hbit
    have hlt := (hconfined _ hbit).2
    omega
  obtain ⟨x, hx⟩ := exists_holds hbehind
  have hne : x ≠ 0#w := by
    rintro rfl
    obtain ⟨j, hj, hbit⟩ := List.getElem_of_mem h.hits
    have hbit' : l.getD j false = true := hset j (hbit ▸ List.getElem?_eq_getElem hj)
    have hle := (hconfined j hbit').1
    have hmark := hx (j - start)
    rw [hget, Nat.add_sub_cancel' hle, hbit', BitVec.getMsbD_zero] at hmark
    cases hmark
  rw [← List.take_append_drop start l, run_append, run_zeros poly hbefore, run_eq_iterate poly _ hx,
    BitVec.zero_xor]
  intro hzero
  exact hne (iterate_shift_eq_zero hpoly _ hzero)

/-- **A code word hit by a burst is no code word.** -/
theorem burst_detected (hpoly : poly.getLsbD 0 = true) {l e : List Bool} (hlen : l.length = e.length)
    (hl : run poly s l = 0#w) (he : Burst w e) : run poly s (List.zipWith Bool.xor l e) ≠ 0#w := by
  have hsum := run_xor poly s 0#w hlen
  rw [BitVec.xor_zero, hl, BitVec.zero_xor] at hsum
  rw [hsum]
  exact run_burst_ne_zero hpoly he

/-! ## The mirrored register -/

/-- One shift the other way round: the bit that leaves at the bottom decides. -/
def shiftDown (poly s : BitVec w) : BitVec w :=
  if s.getLsbD 0 then (s >>> 1) ^^^ poly else s >>> 1

theorem reverse_ushiftRight_one (s : BitVec w) : (s >>> 1).reverse = s.reverse <<< 1 := by
  refine BitVec.eq_of_getMsbD_eq fun i _ => ?_
  rw [BitVec.getMsbD_reverse, BitVec.getMsbD_shiftLeft, BitVec.getMsbD_reverse, BitVec.getLsbD_ushiftRight,
    Nat.add_comm]

theorem reverse_xor (s t : BitVec w) : (s ^^^ t).reverse = s.reverse ^^^ t.reverse := by
  refine BitVec.eq_of_getMsbD_eq fun i _ => ?_
  rw [BitVec.getMsbD_xor, BitVec.getMsbD_reverse, BitVec.getMsbD_reverse, BitVec.getMsbD_reverse,
    BitVec.getLsbD_xor]

/-- **In the mirror it is the same register.** -/
theorem reverse_shiftDown (poly s : BitVec w) :
    (shiftDown poly s).reverse = shift poly.reverse s.reverse := by
  rw [shiftDown, shift, BitVec.msb_reverse]
  split
  · rw [reverse_xor, reverse_ushiftRight_one]
  · exact reverse_ushiftRight_one s

/-- A shorter word at the bottom stands at the top in the mirror. -/
theorem reverse_setWidth {n : Nat} (x : BitVec n) (h : n ≤ w) :
    (x.setWidth w).reverse = x.reverse.setWidth w <<< (w - n) := by
  refine BitVec.eq_of_getMsbD_eq fun i hi => ?_
  have hheld := holds_bits (w := w) x.reverse h i
  rw [hheld, getD_bits, BitVec.getMsbD_reverse, BitVec.getMsbD_reverse, BitVec.getLsbD_setWidth,
    decide_eq_true hi, Bool.true_and]

/-- A byte, as a line sees it that takes the lowest bit first. -/
def mirror (b : UInt8) : UInt8 := ⟨b.toBitVec.reverse⟩

theorem mirror_xor (a b : UInt8) : mirror (a ^^^ b) = mirror a ^^^ mirror b :=
  UInt8.toBitVec_inj.mp (reverse_xor a.toBitVec b.toBitVec)

/-- The bits of a byte string, the lowest of each byte first. -/
def lineBits (bs : Bytes) : List Bool := bitsOf (bs.map mirror)

theorem lineBits_append (bs cs : Bytes) : lineBits (bs ++ cs) = lineBits bs ++ lineBits cs := by
  rw [lineBits, List.map_append, bitsOf_append]
  rfl

theorem length_lineBits (bs : Bytes) : (lineBits bs).length = 8 * bs.length := by
  rw [lineBits, length_bitsOf, List.length_map]

theorem lineBits_zipWith_xor {bs es : Bytes} (h : bs.length = es.length) :
    lineBits (List.zipWith (· ^^^ ·) bs es) = List.zipWith Bool.xor (lineBits bs) (lineBits es) := by
  have hmap : (List.zipWith (· ^^^ ·) bs es).map mirror =
      List.zipWith (· ^^^ ·) (bs.map mirror) (es.map mirror) := by
    rw [List.map_zipWith, List.zipWith_map]
    simp only [mirror_xor]
  rw [lineBits, hmap, bitsOf_zipWith_xor (by rw [List.length_map, List.length_map, h])]
  rfl

end Crc
