/-
  The adaptive spread threshold of `gateway.rs`: which messages of a reconnect burst are diverted.

  1. **Program** — `EwmaSpreadState` per protocol: each message first feeds its own spread into the
     smoothed mean and deviation, and is THEN compared with the threshold they give.  `route` is one
     turn of the partition loop of `process_incoming_batch`, `routeAll` the loop over any stream.
     f64 is taken as exact rational arithmetic; the cast back to i64 truncates and saturates.

  2. **One protocol at a time** — `routeAll_filter`: the verdicts on a protocol's messages depend on
     its own messages only, so a history and a burst may be interleaved with anything.

  3. **The crux (`judge_after_burst`)** — in a burst of constant spread `s` the mean closes in on `s`
     while the deviation jumps by the distance and decays, a two-variable recurrence with a closed
     form (`Smoothing.iterate_track`).  The `k`-th message is diverted exactly when
     `3 k (s - μ) < 19 ((s - μ) - 3 δ)`, so a burst is diverted only up to a point: its first message
     always, none from the seventh on.

  4. **Links that do not change (`steady_links`)** — a history in `[0, B/4]` keeps mean and deviation
     there, so mean plus three deviations stays at the base `B`; and a stream of one spread keeps the
     mean at that spread, which is then never above the threshold.
-/
import Mathlib.Data.List.Induction
import Mathlib.Data.Rat.Floor
import Mathlib.Logic.Function.Basic
import FloatProtocols.Lib.Smoothing
import FloatProtocols.Protocol

namespace FloatProtocols

/-! ## The program -/

/-- `EWMA_ALPHA`. -/
def ewmaAlpha : ℚ := 1 / 20
/-- `EWMA_SIGMA`. -/
def ewmaSigma : ℚ := 3

/-- `f64 as i64`: truncation towards zero, saturating. -/
def asI64 (x : ℚ) : Int64 :=
  Int64.ofInt (max (-2 ^ 63) (min (2 ^ 63 - 1) (if 0 ≤ x then ⌊x⌋ else ⌈x⌉)))

/-- `EwmaSpreadState`. -/
structure EwmaSpreadState where
  spread : ℚ
  absDev : ℚ
  initialized : Bool
  deriving DecidableEq

namespace EwmaSpreadState

/-- `EwmaSpreadState::new`. -/
def new : EwmaSpreadState := { spread := 0, absDev := 0, initialized := false }

/-- `update`. -/
def update (st : EwmaSpreadState) (spreadMs : Int64) : EwmaSpreadState :=
  let s : ℚ := spreadMs.toInt
  if st.initialized then
    { spread := ewmaAlpha * s + (1 - ewmaAlpha) * st.spread
      absDev := ewmaAlpha * |s - st.spread| + (1 - ewmaAlpha) * st.absDev
      initialized := true }
  else { spread := s, absDev := |s|, initialized := true }

/-- `adaptive_threshold_ms`. -/
def adaptiveThresholdMs (st : EwmaSpreadState) (protocolBaseMs : Int64) : Int64 :=
  if st.initialized then max protocolBaseMs (asI64 (st.spread + ewmaSigma * st.absDev))
  else protocolBaseMs

end EwmaSpreadState

/-- `ewma_state`, the map from protocols to their trackers. -/
abbrev EwmaMap := Protocol → Option EwmaSpreadState

namespace EwmaMap

/-- No protocol seen yet. -/
def empty : EwmaMap := fun _ => none

/-- `entry(p).or_insert_with(EwmaSpreadState::new)`. -/
def entry (m : EwmaMap) (p : Protocol) : EwmaSpreadState := (m p).getD .new

/-- One turn of the partition loop: is the message diverted, and the map after it. -/
def route (m : EwmaMap) (msg : Message) : Bool × EwmaMap :=
  let ewma := (m.entry msg.protocol).update msg.spreadMs
  let threshold := ewma.adaptiveThresholdMs msg.protocol.spreadBurstThresholdMs
  (msg.spreadMs > threshold, Function.update m msg.protocol (some ewma))

/-- The loop over a stream of messages. -/
def routeAll : EwmaMap → List Message → List (Message × Bool)
  | _, [] => []
  | m, msg :: msgs => (msg, (m.route msg).1) :: routeAll (m.route msg).2 msgs

end EwmaMap

/-! ## One protocol at a time -/

namespace EwmaSpreadState

/-- The tracker after a stream of its own messages. -/
def after (st : EwmaSpreadState) (msgs : List Message) : EwmaSpreadState :=
  msgs.foldl (fun st msg => st.update msg.spreadMs) st

/-- The verdict on the next spread. -/
def judge (st : EwmaSpreadState) (base s : Int64) : Bool := s > (st.update s).adaptiveThresholdMs base

/-- The verdicts on a stream of messages of one protocol. -/
def judgeAll (base : Int64) : EwmaSpreadState → List Message → List Bool
  | _, [] => []
  | st, msg :: msgs => st.judge base msg.spreadMs :: judgeAll base (st.update msg.spreadMs) msgs

end EwmaSpreadState

/-- The verdicts on the messages of one protocol in a stream of all. -/
def diverted (p : Protocol) (msgs : List Message) : List Bool :=
  ((EwmaMap.empty.routeAll msgs).filter fun x => x.1.protocol = p).map Prod.snd

open EwmaSpreadState in
theorem routeAll_filter (p : Protocol) : ∀ (msgs : List Message) (m : EwmaMap),
    ((m.routeAll msgs).filter fun x => x.1.protocol = p).map Prod.snd =
      judgeAll p.spreadBurstThresholdMs (m.entry p) (msgs.filter fun msg => msg.protocol = p)
  | [], _ => rfl
  | msg :: msgs, m => by
    rw [EwmaMap.routeAll]
    by_cases hp : msg.protocol = p
    · -- its own message moves the tracker
      have hentry : (m.route msg).2.entry p = (m.entry p).update msg.spreadMs := by
        show (Function.update m msg.protocol _ p).getD new = _
        rw [hp, Function.update_self]
        rfl
      rw [List.filter_cons_of_pos (by simpa using hp), List.filter_cons_of_pos (by simpa using hp),
        List.map_cons, routeAll_filter p msgs, judgeAll, hentry]
      congr 1
      subst hp
      rfl
    · -- another protocol's message does not
      have hentry : (m.route msg).2.entry p = m.entry p := by
        show (Function.update m msg.protocol _ p).getD new = _
        rw [Function.update_of_ne (Ne.symm hp)]
        rfl
      rw [List.filter_cons_of_neg (by simpa using hp), List.filter_cons_of_neg (by simpa using hp),
        routeAll_filter p msgs, hentry]

/-! ## The threshold test over the rationals -/

theorem toInt_asI64 {x : ℚ} (hx : 0 ≤ x) : (asI64 x).toInt = min (2 ^ 63 - 1) ⌊x⌋ := by
  have hfloor : 0 ≤ ⌊x⌋ := Int.floor_nonneg.mpr hx
  rw [asI64, if_pos hx, Int64.toInt_ofInt_of_le (by omega) (by omega)]
  omega

theorem asI64_lt {x : ℚ} (hx : 0 ≤ x) (s : Int64) : asI64 x < s ↔ x < s.toInt := by
  have hmax : s.toInt ≤ 2 ^ 63 - 1 := Int64.toInt_le s
  have hlt : ⌊x⌋ < s.toInt ↔ x < s.toInt := Int.floor_lt
  rw [← hlt, Int64.lt_iff_toInt_lt, toInt_asI64 hx]
  omega

theorem asI64_le {x : ℚ} (hx : 0 ≤ x) {s : Int64} (h : x ≤ s.toInt) : asI64 x ≤ s := by
  have hfloor : ⌊x⌋ ≤ s.toInt := Int.floor_le_iff.mpr (by linarith)
  rw [Int64.le_iff_toInt_le, toInt_asI64 hx]
  omega

theorem max_lt_int64 (a b s : Int64) : max a b < s ↔ a < s ∧ b < s := by
  show (if a ≤ b then b else a) < s ↔ _
  rw [Int64.lt_iff_toInt_lt, Int64.lt_iff_toInt_lt, Int64.lt_iff_toInt_lt]
  by_cases h : a ≤ b
  · rw [if_pos h]
    rw [Int64.le_iff_toInt_le] at h
    omega
  · rw [if_neg h]
    rw [Int64.le_iff_toInt_le] at h
    omega

theorem max_eq_left_int64 {a b : Int64} (h : b ≤ a) : max a b = a := by
  show (if a ≤ b then b else a) = a
  split
  · rename_i hab
    exact Int64.le_antisymm h hab
  · rfl

namespace EwmaSpreadState

/-- Mean and deviation, for the smoothing lemmas. -/
def pair (st : EwmaSpreadState) : ℚ × ℚ := (st.spread, st.absDev)

theorem initialized_update (st : EwmaSpreadState) (s : Int64) : (st.update s).initialized = true := by
  rw [update]
  split <;> rfl

theorem pair_update {st : EwmaSpreadState} (h : st.initialized = true) (s : Int64) :
    (st.update s).pair = Smoothing.track ewmaAlpha (s.toInt : ℚ) st.pair := by
  rw [update, if_pos h]
  rfl

/-- Above the base, the test is mean plus three deviations against the spread. -/
theorem judge_eq_true {st : EwmaSpreadState} {base s : Int64} (hs : base < s)
    (hm : 0 ≤ (st.update s).spread) (hd : 0 ≤ (st.update s).absDev) :
    st.judge base s = true ↔ (st.update s).spread + 3 * (st.update s).absDev < s.toInt := by
  have hnonneg : 0 ≤ (st.update s).spread + ewmaSigma * (st.update s).absDev := by
    rw [ewmaSigma]
    linarith
  rw [judge, decide_eq_true_iff, gt_iff_lt, adaptiveThresholdMs, if_pos (initialized_update st s),
    max_lt_int64, asI64_lt hnonneg, and_iff_right hs]
  rfl

/-! ## Histories and bursts -/

/-- Mean and deviation within `[0, w]`. -/
def Within (w : ℚ) (st : EwmaSpreadState) : Prop :=
  st.initialized = true ∧ st.spread ∈ Set.Icc 0 w ∧ st.absDev ∈ Set.Icc 0 w

theorem Within.update {w : ℚ} {st : EwmaSpreadState} (h : st.Within w) {s : Int64}
    (hs : (s.toInt : ℚ) ∈ Set.Icc 0 w) : (st.update s).Within w := by
  obtain ⟨hinit, hm, hd⟩ := h
  have hpair := pair_update hinit s
  have htrack : (Smoothing.track ewmaAlpha (s.toInt : ℚ) st.pair).1 ∈ Set.Icc 0 w ∧
      (Smoothing.track ewmaAlpha (s.toInt : ℚ) st.pair).2 ∈ Set.Icc 0 w :=
    Smoothing.track_mem (by norm_num [ewmaAlpha]) (by norm_num [ewmaAlpha]) hs hm hd
  rw [← hpair] at htrack
  exact ⟨initialized_update st s, htrack.1, htrack.2⟩

theorem within_new_update {w : ℚ} {s : Int64} (hs : (s.toInt : ℚ) ∈ Set.Icc 0 w) :
    (new.update s).Within w := by
  refine ⟨initialized_update new s, hs, abs_nonneg _, ?_⟩
  rw [show (new.update s).absDev = |(s.toInt : ℚ)| from rfl, abs_of_nonneg hs.1]
  exact hs.2

/-- **A history of spreads in `[0, w]` leaves the tracker in `[0, w]`**, by induction from the right. -/
theorem within_foldl {w : ℚ} (hist : List Int64) : hist ≠ [] →
    (∀ s ∈ hist, (s.toInt : ℚ) ∈ Set.Icc 0 w) → (hist.foldl update new).Within w := by
  induction hist using List.reverseRecOn with
  | nil =>
    intro hne
    exact absurd rfl hne
  | append_singleton hist s ih =>
    intro _ hall
    have hs := hall s (List.mem_append_right _ (List.mem_singleton_self s))
    rw [List.foldl_append, List.foldl_cons, List.foldl_nil]
    rcases eq_or_ne hist [] with rfl | hne
    · exact within_new_update hs
    · exact (ih hne fun s' hs' => hall s' (List.mem_append_left _ hs')).update hs

theorem within_after_new {w : ℚ} {hist : List Message} (hne : hist ≠ [])
    (hall : ∀ m ∈ hist, (m.spreadMs.toInt : ℚ) ∈ Set.Icc 0 w) : (new.after hist).Within w := by
  have hafter : new.after hist = (hist.map Message.spreadMs).foldl update new := by
    rw [after, List.foldl_map]
  rw [hafter]
  refine within_foldl _ (by simpa using hne) ?_
  intro s hs
  obtain ⟨m, hm, rfl⟩ := List.mem_map.mp hs
  exact hall m hm

theorem judgeAll_append (base : Int64) : ∀ (xs ys : List Message) (st : EwmaSpreadState),
    judgeAll base st (xs ++ ys) = judgeAll base st xs ++ judgeAll base (st.after xs) ys
  | [], _, _ => rfl
  | x :: xs, ys, st => by
    rw [List.cons_append, judgeAll, judgeAll, judgeAll_append base xs ys]
    rfl

theorem length_judgeAll (base : Int64) : ∀ (xs : List Message) (st : EwmaSpreadState),
    (judgeAll base st xs).length = xs.length
  | [], _ => rfl
  | x :: xs, st => by rw [judgeAll, List.length_cons, List.length_cons, length_judgeAll base xs]

/-- The tracker after `k` messages of spread `s`. -/
def burst (s : Int64) (st : EwmaSpreadState) : Nat → EwmaSpreadState
  | 0 => st
  | k + 1 => (burst s st k).update s

theorem judgeAll_const (base s : Int64) : ∀ (msgs : List Message) (st : EwmaSpreadState) (k : Nat),
    (∀ m ∈ msgs, m.spreadMs = s) →
    judgeAll base (burst s st k) msgs =
      (List.range' k msgs.length).map fun j => (burst s st j).judge base s
  | [], _, _, _ => rfl
  | m :: msgs, st, k, h => by
    rw [judgeAll, h m (List.mem_cons_self ..), List.length_cons, List.range'_succ, List.map_cons]
    exact congrArg _
      (judgeAll_const base s msgs st (k + 1) fun m' hm' => h m' (List.mem_cons_of_mem m hm'))

theorem pair_burst (s : Int64) {st : EwmaSpreadState} (h : st.initialized = true) : ∀ k : Nat,
    (burst s st k).initialized = true ∧
      (burst s st k).pair = (Smoothing.track ewmaAlpha (s.toInt : ℚ))^[k] st.pair
  | 0 => ⟨h, rfl⟩
  | k + 1 => by
    obtain ⟨hinit, hpair⟩ := pair_burst s h k
    refine ⟨initialized_update _ s, ?_⟩
    rw [Function.iterate_succ_apply', ← hpair]
    exact pair_update hinit s

/-- **The verdict on the message behind `k` others of the burst.** -/
theorem judge_after_burst {base s : Int64} {st : EwmaSpreadState} (hinit : st.initialized = true)
    (hm : 0 ≤ st.spread) (hd : 0 ≤ st.absDev) (hlt : st.spread < s.toInt) (hs : base < s)
    (k : Nat) :
    (burst s st k).judge base s = true ↔
      3 * (k + 1) * (s.toInt - st.spread) < 19 * (s.toInt - st.spread - 3 * st.absDev) := by
  have hclosed : (burst s st (k + 1)).pair = _ := (pair_burst s hinit (k + 1)).2
  rw [show st.pair = (st.spread, st.absDev) from rfl,
    Smoothing.iterate_track _ _ _ (show ewmaAlpha < 1 by norm_num [ewmaAlpha])] at hclosed
  have hratio : ewmaAlpha / (1 - ewmaAlpha) = 1 / 19 := by norm_num [ewmaAlpha]
  have hgap : 0 < (s.toInt : ℚ) - st.spread := by linarith
  rw [hratio, abs_of_pos hgap] at hclosed
  -- `q` is what is left of the mean's distance to `s`
  obtain ⟨q, hq⟩ : ∃ q : ℚ, (1 - ewmaAlpha) ^ (k + 1) = q := ⟨_, rfl⟩
  have hq0 : 0 < q := hq ▸ pow_pos (by norm_num [ewmaAlpha]) _
  have hq1 : q ≤ 1 := hq ▸ pow_le_one₀ (by norm_num [ewmaAlpha]) (by norm_num [ewmaAlpha])
  rw [hq] at hclosed
  have hspread : ((burst s st k).update s).spread = s.toInt - q * (s.toInt - st.spread) :=
    congrArg Prod.fst hclosed
  have hdev : ((burst s st k).update s).absDev =
      q * (st.absDev + (k + 1) * (1 / 19) * (s.toInt - st.spread)) := by
    have h := congrArg Prod.snd hclosed
    push_cast at h
    exact h
  have hm' : 0 ≤ ((burst s st k).update s).spread := by
    rw [hspread]
    nlinarith
  have hd' : 0 ≤ ((burst s st k).update s).absDev := by
    rw [hdev]
    positivity
  rw [judge_eq_true hs hm' hd', hspread, hdev]
  have hsum : (s.toInt : ℚ) - q * (s.toInt - st.spread) +
      3 * (q * (st.absDev + (k + 1) * (1 / 19) * (s.toInt - st.spread))) =
      s.toInt + q / 19 * (3 * (k + 1) * (s.toInt - st.spread) -
        19 * (s.toInt - st.spread - 3 * st.absDev)) := by
    ring
  have hq19 : 0 < q / 19 := by positivity
  rw [hsum]
  constructor
  · intro h
    by_contra hge
    have := mul_nonneg hq19.le (sub_nonneg.mpr (not_lt.mp hge))
    linarith
  · intro h
    have := mul_neg_of_pos_of_neg hq19 (sub_neg.mpr h)
    linarith

end EwmaSpreadState

open EwmaSpreadState

theorem spreadBurstThresholdMs_pos (p : Protocol) : 0 < p.spreadBurstThresholdMs.toInt := by
  cases p <;> decide

/-- **What becomes of a reconnect burst.**  Behind a non-empty history of spreads in `[0, B/5]`, the
    messages of a burst of constant spread `s > B` are diverted to the spread shard exactly while
    `3 k (s - μ) < 19 ((s - μ) - 3 δ)`, counting from `k = 1`, with `μ` and `δ` the tracked mean and
    deviation at its start: always the first message, and none from the seventh on. -/
theorem burst_diverted_iff (p : Protocol) (msgs hist rest : List Message) (s : Int64)
    (hsplit : (msgs.filter fun msg => msg.protocol = p) = hist ++ rest) (hne : hist ≠ [])
    (hhist : ∀ m ∈ hist, 0 ≤ m.spreadMs.toInt ∧
      5 * m.spreadMs.toInt ≤ p.spreadBurstThresholdMs.toInt)
    (hs : p.spreadBurstThresholdMs < s) (hrest : ∀ m ∈ rest, m.spreadMs = s) :
    let st := EwmaSpreadState.new.after hist
    let verdicts := (diverted p msgs).drop hist.length
    verdicts = (List.range rest.length).map (fun k : Nat =>
      decide (3 * (k + 1) * (s.toInt - st.spread) < 19 * (s.toInt - st.spread - 3 * st.absDev))) ∧
    verdicts[0]? ≠ some false ∧ ∀ k, 6 ≤ k → verdicts[k]? ≠ some true := by
  intro st verdicts
  obtain ⟨B, hB⟩ : ∃ B : ℚ, (p.spreadBurstThresholdMs.toInt : ℚ) = B := ⟨_, rfl⟩
  have hBpos : 0 < B := hB ▸ by exact_mod_cast spreadBurstThresholdMs_pos p
  have hsB : B < s.toInt := by
    rw [← hB]
    exact_mod_cast Int64.lt_iff_toInt_lt.mp hs
  have hmem : ∀ m ∈ hist, (m.spreadMs.toInt : ℚ) ∈ Set.Icc 0 (B / 5) := by
    intro m hm
    obtain ⟨h0, h5⟩ := hhist m hm
    have h5' : 5 * (m.spreadMs.toInt : ℚ) ≤ B := by
      rw [← hB]
      exact_mod_cast h5
    exact ⟨by exact_mod_cast h0, by linarith⟩
  obtain ⟨hinit, hmean, hdev⟩ := within_after_new hne hmem
  have hlt : st.spread < s.toInt := by linarith [hmean.2]
  have hverdicts : verdicts = (List.range rest.length).map (fun k : Nat =>
      decide (3 * (k + 1) * (s.toInt - st.spread) <
        19 * (s.toInt - st.spread - 3 * st.absDev))) := by
    have hall := routeAll_filter p msgs EwmaMap.empty
    rw [hsplit, judgeAll_append] at hall
    show (diverted p msgs).drop hist.length = _
    rw [diverted, hall, List.drop_left' (length_judgeAll _ _ _)]
    refine (judgeAll_const _ s rest st 0 hrest).trans ?_
    rw [← List.range_eq_range']
    refine List.map_congr_left fun k _ => ?_
    rw [Bool.eq_iff_iff, judge_after_burst hinit hmean.1 hdev.1 hlt hs k, decide_eq_true_iff]
  refine ⟨hverdicts, ?_, fun k hk => ?_⟩
  · rw [hverdicts, List.getElem?_map]
    intro h
    obtain ⟨j, hj, hfalse⟩ := Option.map_eq_some_iff.mp h
    obtain rfl : j = 0 := (List.getElem?_eq_some_iff.mp hj).2.symm.trans (List.getElem_range _)
    rw [decide_eq_false_iff_not] at hfalse
    refine hfalse ?_
    push_cast
    linarith [hmean.2, hdev.2]
  · rw [hverdicts, List.getElem?_map]
    intro h
    obtain ⟨j, hj, htrue⟩ := Option.map_eq_some_iff.mp h
    obtain rfl : j = k := (List.getElem?_eq_some_iff.mp hj).2.symm.trans (List.getElem_range _)
    rw [decide_eq_true_iff] at htrue
    have hk' : (6 : ℚ) ≤ j := by exact_mod_cast hk
    nlinarith [hdev.1]

/-- An Iridium message that was `x` milliseconds under way. -/
def underWay (x : UInt64) : Message := .newWithTemporal .iridiumSBD [] .operational 0 x

/-- A burst of two behind one message of a fifth of the threshold. -/
def shortBurst : List Message := [underWay 24000, underWay 120001, underWay 120001]

theorem shortBurst_first_diverted : ((diverted .iridiumSBD shortBurst).drop 1)[0]? ≠ some false :=
  (burst_diverted_iff .iridiumSBD shortBurst [underWay 24000] [underWay 120001, underWay 120001]
    120001 (by decide) (by decide) (by decide) (by decide) (by decide)).2.1

/-- The second message of that burst is over the protocol's threshold, and not diverted. -/
theorem shortBurst_second_kept :
    (0 ≤ (underWay 24000).spreadMs.toInt ∧
      5 * (underWay 24000).spreadMs.toInt ≤ Protocol.iridiumSBD.spreadBurstThresholdMs.toInt) ∧
    Protocol.iridiumSBD.spreadBurstThresholdMs < (underWay 120001).spreadMs ∧
    diverted .iridiumSBD shortBurst = [false, true, false] := by
  decide +kernel

/-! ## Links that do not change -/

namespace EwmaSpreadState

/-- Mean and deviation within a quarter of the base do not raise the threshold. -/
theorem Within.adaptiveThresholdMs {st : EwmaSpreadState} {base : Int64}
    (h : st.Within (base.toInt / 4)) : st.adaptiveThresholdMs base = base := by
  obtain ⟨hinit, hmean, hdev⟩ := h
  have hnonneg : 0 ≤ st.spread + ewmaSigma * st.absDev := by
    rw [ewmaSigma]
    linarith [hmean.1, hdev.1]
  have hle : st.spread + ewmaSigma * st.absDev ≤ base.toInt := by
    rw [ewmaSigma]
    linarith [hmean.2, hdev.2]
  rw [EwmaSpreadState.adaptiveThresholdMs, if_pos hinit, max_eq_left_int64 (asI64_le hnonneg hle)]

/-- A tracker that has seen nothing, or the spread `s` only. -/
def Steady (s : Int64) (st : EwmaSpreadState) : Prop :=
  st.initialized = true → st.spread = s.toInt ∧ 0 ≤ st.absDev

theorem Steady.update {s : Int64} {st : EwmaSpreadState} (h : st.Steady s) : (st.update s).Steady s := by
  intro _
  rw [EwmaSpreadState.update]
  split
  · rename_i hinit
    obtain ⟨hmean, hdev⟩ := h hinit
    constructor
    · show ewmaAlpha * s.toInt + (1 - ewmaAlpha) * st.spread = s.toInt
      rw [hmean]
      ring
    · show 0 ≤ ewmaAlpha * |(s.toInt : ℚ) - st.spread| + (1 - ewmaAlpha) * st.absDev
      rw [hmean, sub_self, abs_zero, mul_zero, zero_add]
      exact mul_nonneg (by norm_num [ewmaAlpha]) hdev
  · exact ⟨rfl, abs_nonneg _⟩

/-- A spread is not above a threshold that it has made itself. -/
theorem Steady.judge {s base : Int64} {st : EwmaSpreadState} (h : st.Steady s) (hbase : 0 < base.toInt) :
    st.judge base s = false := by
  obtain ⟨hmean, hdev⟩ := h.update (initialized_update st s)
  rw [EwmaSpreadState.judge, decide_eq_false_iff_not, gt_iff_lt, EwmaSpreadState.adaptiveThresholdMs,
    if_pos (initialized_update st s), max_lt_int64]
  rintro ⟨hlow, hhigh⟩
  rw [Int64.lt_iff_toInt_lt] at hlow
  have hs : (0 : ℚ) ≤ s.toInt := by exact_mod_cast (by omega : 0 ≤ s.toInt)
  rw [hmean, ewmaSigma, asI64_lt (by linarith)] at hhigh
  linarith

end EwmaSpreadState

/-- No message of a stream of one spread is diverted, whatever its protocols. -/
theorem routeAll_steady {s : Int64} (msgs : List Message) : ∀ m : EwmaMap,
    (∀ p, (m.entry p).Steady s) → (∀ msg ∈ msgs, msg.spreadMs = s) →
    ∀ x ∈ m.routeAll msgs, x.2 = false := by
  induction msgs with
  | nil =>
    intro m _ _ x hx
    cases hx
  | cons msg msgs ih =>
    intro m hsteady hall x hx
    have hs := hall msg List.mem_cons_self
    rw [EwmaMap.routeAll] at hx
    rcases List.mem_cons.mp hx with rfl | hx
    · show (m.entry msg.protocol).judge msg.protocol.spreadBurstThresholdMs msg.spreadMs = false
      rw [hs]
      exact (hsteady msg.protocol).judge (spreadBurstThresholdMs_pos msg.protocol)
    · refine ih _ ?_ (fun msg' hmsg' => hall msg' (List.mem_cons_of_mem msg hmsg')) x hx
      intro p
      show ((Function.update m msg.protocol _ p).getD new).Steady s
      rcases eq_or_ne p msg.protocol with rfl | hne
      · rw [Function.update_self, Option.getD_some, hs]
        exact (hsteady msg.protocol).update
      · rw [Function.update_of_ne hne]
        exact hsteady p

/-- **Links that do not change are left alone.**  Whatever the base `B > 0`, any history of spreads in
    `[0, B/4]` keeps the threshold at `B`; and no message of a stream of one spread, healthy or not, is
    ever diverted. -/
theorem steady_links :
    (∀ (base : Int64) (hist : List Int64), 0 < base.toInt →
      (∀ s ∈ hist, 0 ≤ s.toInt ∧ 4 * s.toInt ≤ base.toInt) →
      (hist.foldl EwmaSpreadState.update EwmaSpreadState.new).adaptiveThresholdMs base = base) ∧
    ∀ (s : Int64) (msgs : List Message), (∀ m ∈ msgs, m.spreadMs = s) →
      ∀ x ∈ EwmaMap.empty.routeAll msgs, x.2 = false := by
  constructor
  · intro base hist _ hhist
    rcases eq_or_ne hist [] with rfl | hne
    · rfl
    · refine (within_foldl hist hne ?_).adaptiveThresholdMs
      intro s hs
      obtain ⟨h0, h4⟩ := hhist s hs
      have h4' : 4 * (s.toInt : ℚ) ≤ base.toInt := by exact_mod_cast h4
      exact ⟨by exact_mod_cast h0, by linarith⟩
  · intro s msgs hall
    refine routeAll_steady msgs EwmaMap.empty ?_ hall
    intro p hinit
    cases hinit

/-- An Iridium link at a quarter of its threshold, and one that is always a day late. -/
theorem steady_links_iridium :
    ([30000, 0, 30000].foldl EwmaSpreadState.update EwmaSpreadState.new).adaptiveThresholdMs 120000 =
      120000 ∧
    ∀ x ∈ EwmaMap.empty.routeAll [underWay 86400000, underWay 86400000], x.2 = false := by
  refine ⟨steady_links.1 120000 [30000, 0, 30000] (by decide) ?_,
    steady_links.2 86400000 [underWay 86400000, underWay 86400000] (by decide)⟩
  simp only [List.forall_mem_cons]
  exact ⟨by decide, by decide, by decide, by simp⟩

end FloatProtocols
