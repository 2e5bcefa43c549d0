/-
  The size guard of `Message::new` against the parsers behind it.

  `maxMessageSize` is one table, keyed by protocol; header, checksum and payload limit are each
  parser's own.  They do NOT agree: 340 is the largest Iridium PAYLOAD, the frame around it is five
  bytes longer, and NIDD's 1600 and Inmarsat C's 114 have nine and sixteen bytes around them.

  1. One parser for all seven protocols (`parse`), and the bytes a parsed frame takes (`Frame.size`).
  2. A parser that returns a frame has read all of it (`size_le`), so a cut frame is never parsed as
     before — with one exception.
  3. The exception is the Iridium checksum, which may be missing and then reads as zero
     (`IridiumSbd.parse_take_eq_iff`); the translator's own decoder does not look at it at all.
-/
import FloatProtocols.Protocol
import FloatProtocols.Translator
import FloatProtocols.Codec.Nidd
import FloatProtocols.Codec.Samsara

namespace FloatProtocols

open Wire

namespace SizeGuard

/-! ## The parsers under one roof -/

/-- What a parser returns. -/
inductive Frame where
  | sbd (m : IridiumSbd.IridiumSBDMessage)
  | inmarsatC (m : InmarsatC.InmarsatCMessage)
  | vsat (m : Vsat.VSATMessage)
  | hfvhf (m : Hfvhf.HFVHFMessage)
  | samsara (m : Samsara.SamsaraMessage)
  | nidd (m : Nidd.NIDDMessage)
  deriving DecidableEq

/-- A parser's answer, as a frame. -/
def framed {α ε : Type} (f : α → Frame) (x : Exec ε (Option α)) : Exec ε (Option Frame) := do
  let m ← x
  .ok (m.map f)

/-- The protocol's parser; the two protocols without one accept nothing. -/
def parse (libs : InmarsatC.Libs) : Protocol → Bytes → Exec InmarsatC.ParseError (Option Frame)
  | .iridiumSBD, data => framed .sbd (IridiumSbd.parse data)
  | .rockBLOCK, data => framed .sbd (IridiumSbd.parse data)
  | .inmarsatC, data => framed .inmarsatC (do return some (← InmarsatC.parse libs data))
  | .vsat, data => framed .vsat (Vsat.parse data)
  | .hfvhf, data => framed .hfvhf (Hfvhf.parse data)
  | .samsara, data => framed .samsara (Samsara.parse data)
  | .nidd, data => framed .nidd (Nidd.parse data)
  | .astSpaceMobile, _ => .ok none
  | .loRaMesh, _ => .ok none

/-- The bytes of a complete frame: header, payload and checksum. -/
def Frame.size : Frame → Nat
  | .sbd m => m.totalSize
  | .inmarsatC m => m.size
  | .vsat m => m.size
  | .hfvhf m => m.size
  | .samsara m => m.size
  | .nidd m => m.totalSize

theorem framed_eq_some {α ε : Type} {f : α → Frame} {x : Exec ε (Option α)} {frame : Frame} :
    framed f x = .ok (some frame) ↔ ∃ m, x = .ok (some m) ∧ f m = frame := by
  rw [framed, Exec.bind_eq_ok]
  constructor
  · rintro ⟨m, hx, hm⟩
    obtain ⟨a, rfl, ha⟩ := Option.map_eq_some_iff.mp (Exec.ok.inj hm)
    exact ⟨a, hx, ha⟩
  · rintro ⟨m, hx, rfl⟩
    exact ⟨some m, hx, rfl⟩

/-- A parser that returns a frame has read all of it — the Iridium checksum apart. -/
theorem size_le {libs : InmarsatC.Libs} {p : Protocol} {data : Bytes} {frame : Frame}
    (h : parse libs p data = .ok (some frame)) (hsbd : ∀ m, frame ≠ .sbd m) :
    frame.size ≤ data.length := by
  cases p with
  | iridiumSBD =>
    obtain ⟨m, -, hm⟩ := framed_eq_some.mp h
    exact absurd hm.symm (hsbd m)
  | rockBLOCK =>
    obtain ⟨m, -, hm⟩ := framed_eq_some.mp h
    exact absurd hm.symm (hsbd m)
  | inmarsatC =>
    obtain ⟨m, hx, rfl⟩ := framed_eq_some.mp h
    obtain ⟨m', hparse, hm⟩ := Exec.bind_eq_ok.mp hx
    obtain rfl := Option.some.inj (Exec.ok.inj hm)
    exact InmarsatC.size_le hparse
  | vsat =>
    obtain ⟨m, hx, rfl⟩ := framed_eq_some.mp h
    exact Vsat.size_le hx
  | hfvhf =>
    obtain ⟨m, hx, rfl⟩ := framed_eq_some.mp h
    exact Hfvhf.size_le hx
  | samsara =>
    obtain ⟨m, hx, rfl⟩ := framed_eq_some.mp h
    exact Samsara.size_le hx
  | nidd =>
    obtain ⟨m, hx, rfl⟩ := framed_eq_some.mp h
    exact Nidd.totalSize_le hx
  | astSpaceMobile => cases h
  | loRaMesh => cases h

/-- The short-burst frame belongs to two protocols, with one limit. -/
theorem of_parse_sbd {libs : InmarsatC.Libs} {p : Protocol} {data : Bytes}
    {m : IridiumSbd.IridiumSBDMessage} (h : parse libs p data = .ok (some (.sbd m))) :
    p.maxMessageSize = 340 ∧ IridiumSbd.parse data = (.ok (some m) : Exec InmarsatC.ParseError _) ∧
      ∀ bs, parse libs p bs = framed .sbd (IridiumSbd.parse bs) := by
  have hsbd : ∀ {x : Exec InmarsatC.ParseError (Option IridiumSbd.IridiumSBDMessage)},
      framed .sbd x = .ok (some (.sbd m)) → x = .ok (some m) := by
    intro x hx
    obtain ⟨m', hx, hm⟩ := framed_eq_some.mp hx
    rw [hx, Frame.sbd.inj hm]
  cases p with
  | iridiumSBD => exact ⟨rfl, hsbd h, fun _ => rfl⟩
  | rockBLOCK => exact ⟨rfl, hsbd h, fun _ => rfl⟩
  | inmarsatC => obtain ⟨_, -, hm⟩ := framed_eq_some.mp h; cases hm
  | vsat => obtain ⟨_, -, hm⟩ := framed_eq_some.mp h; cases hm
  | hfvhf => obtain ⟨_, -, hm⟩ := framed_eq_some.mp h; cases hm
  | samsara => obtain ⟨_, -, hm⟩ := framed_eq_some.mp h; cases hm
  | nidd => obtain ⟨_, -, hm⟩ := framed_eq_some.mp h; cases hm
  | astSpaceMobile => cases h
  | loRaMesh => cases h

/-! ## The guard -/

/-- A frame of more than 340 bytes, cut: see `IridiumSbd.parse_take_eq_iff`. -/
theorem parse_cut_sbd_iff {libs : InmarsatC.Libs} {p : Protocol} {data : Bytes}
    {m : IridiumSbd.IridiumSBDMessage} (h : parse libs p data = .ok (some (.sbd m)))
    (hend : data.length ≤ m.totalSize) (hcut : 340 < data.length) :
    parse libs p (data.take 340) = parse libs p data ↔ m.payloadLen.toNat ≤ 337 ∧ m.checksum = 0 := by
  obtain ⟨-, hsbd, hparse⟩ := of_parse_sbd h
  rw [← IridiumSbd.parse_take_eq_iff hsbd hend hcut, h, hparse, framed_eq_some, hsbd]
  constructor
  · rintro ⟨m', hm', heq⟩
    rw [hm', Frame.sbd.inj heq]
  · intro hm
    exact ⟨m, hm, rfl⟩

/-- The translator's decoder takes the payload and leaves the checksum: the cut shows as soon as a
    payload byte is gone. -/
theorem decode_cut_iff {data : Bytes} {m : IridiumSbd.IridiumSBDMessage} {ε : Type}
    (h : (IridiumSbd.parse data : Exec ε _) = .ok (some m)) :
    Translator.decodeIridiumSbd (data.take 340) = Translator.decodeIridiumSbd data ↔
      m.payloadLen.toNat ≤ 337 := by
  rw [IridiumSbd.parse_outcome] at h
  split at h
  · rename_i hin
    obtain rfl := Option.some.inj (Exec.ok.inj h)
    show _ ↔ (IridiumSbd.lengthOf data).toNat ≤ 337
    have hhead : (data.take 340).headD 0 = data.headD 0 := by
      cases data <;> rfl
    rw [Translator.decodeIridiumSbd_outcome, Translator.decodeIridiumSbd_outcome, if_pos hin,
      IridiumSbd.lengthOf_take, List.length_take, hhead]
    by_cases hfit : (IridiumSbd.lengthOf data).toNat ≤ 337
    · rw [if_pos ⟨by omega, by omega, by omega⟩, window_take (by omega)]
      exact ⟨fun _ => hfit, fun _ => rfl⟩
    · rw [if_neg (by omega)]
      constructor
      · intro heq
        cases heq
      · intro hle
        exact absurd hle hfit
  · cases h

/-- **When the size guard leaves a complete frame alone.**  The frame has to fit the protocol's
    limit with everything around its payload; only an Iridium frame may lose its checksum, if that
    was zero.  For the decoder in the translator the 340 bytes have to reach to the payload's end. -/
theorem guard_harmless_iff (libs : InmarsatC.Libs) (p : Protocol) (data : Bytes)
    (priority : Priority) (now : UInt64) (frame : Frame)
    (h : parse libs p data = .ok (some frame)) (hend : data.length ≤ frame.size) :
    (parse libs p (Message.new p data priority now).data = parse libs p data ↔
      data.length ≤ p.maxMessageSize ∨
        ∃ m, frame = .sbd m ∧ m.payloadLen.toNat ≤ 337 ∧ m.checksum = 0) ∧
    ∀ m, frame = .sbd m →
      (Translator.decodeIridiumSbd (Message.new p data priority now).data =
        Translator.decodeIridiumSbd data ↔ m.payloadLen.toNat ≤ 337) := by
  rw [Message.new_data]
  refine ⟨?_, ?_⟩
  · by_cases hfit : data.length ≤ p.maxMessageSize
    · rw [List.take_of_length_le hfit]
      exact ⟨fun _ => .inl hfit, fun _ => rfl⟩
    by_cases hsbd : ∃ m, frame = .sbd m
    · obtain ⟨m, rfl⟩ := hsbd
      obtain ⟨hmax, -, -⟩ := of_parse_sbd h
      rw [hmax] at hfit ⊢
      rw [parse_cut_sbd_iff h hend (by omega)]
      constructor
      · rintro ⟨hlen, hzero⟩
        exact .inr ⟨m, rfl, hlen, hzero⟩
      · rintro (hle | ⟨m', hm, hlen, hzero⟩)
        · exact absurd hle hfit
        · rw [Frame.sbd.inj hm]
          exact ⟨hlen, hzero⟩
    · have hne : ∀ m, frame ≠ .sbd m := fun m hm => hsbd ⟨m, hm⟩
      constructor
      · -- the same frame from fewer bytes than it takes
        intro heq
        have hle := size_le (heq.trans h) hne
        rw [List.length_take] at hle
        omega
      · rintro (hle | ⟨m, hm, -⟩)
        · exact absurd hle hfit
        · exact absurd hm (hne m)
  · rintro m rfl
    obtain ⟨hmax, hm, -⟩ := of_parse_sbd h
    rw [hmax]
    exact decode_cut_iff hm

/-- The frame of a full Iridium payload: 340 zero bytes and their CRC. -/
def fullFrame : Bytes := 0x01 :: (u16Be 340 ++ List.replicate 340 0 ++ u16Be 0xBB94)

theorem guard_harmless_iff_nidd :
    parse Translator.frameLibs.toLibs .nidd
        (Message.new .nidd (List.replicate 6 0 ++ [2, 0, 7, 0xCA, 0xFE]) .operational 0).data =
      parse Translator.frameLibs.toLibs .nidd (List.replicate 6 0 ++ [2, 0, 7, 0xCA, 0xFE]) := by
  obtain ⟨frame, hframe, hend⟩ : ∃ frame, parse Translator.frameLibs.toLibs .nidd
      (List.replicate 6 0 ++ [2, 0, 7, 0xCA, 0xFE]) = .ok (some frame) ∧ 11 ≤ frame.size :=
    ⟨_, rfl, by decide⟩
  exact (guard_harmless_iff _ .nidd _ .operational 0 frame hframe hend).1.mpr (.inl (by decide))

/-- A full Iridium payload does not get through: five bytes are cut, the parser and the decoder
    refuse the rest. -/
theorem full_payload_cut :
    (∃ m, (IridiumSbd.parse fullFrame : Exec Unit _) = .ok (some m) ∧ m.payloadLen = 340 ∧
      fullFrame.length = m.totalSize) ∧
    (IridiumSbd.parse (Message.new .iridiumSBD fullFrame .operational 0).data : Exec Unit _) =
      .ok none ∧
    Translator.decodeIridiumSbd (Message.new .iridiumSBD fullFrame .operational 0).data =
      .err .invalidProtocol := by
  refine ⟨⟨IridiumSbd.frameOf fullFrame, ?_, ?_, ?_⟩, ?_, ?_⟩
  all_goals decide +kernel

end SizeGuard

end FloatProtocols
