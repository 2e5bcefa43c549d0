/-
  The Iridium frame on its two ways out: `decode_iridium_sbd` slices the payload off for the gateway,
  `translate_iridium_to_asts_sync` parses it into fixed arrays and writes a cellular frame into a
  buffer of the caller's.

  Both read a frame through the same three conditions (`parse_outcome`, `decodeIridiumSbd_outcome`),
  checked in different orders; so they agree on every input (`decodeIridiumSbd_iff_parse`).  The
  translation takes its number from `GLOBAL_SEQUENCE` only after the parse: a rejected frame uses no
  number up, a frame that does not fit the buffer does.
-/
import FloatProtocols.Codec.AstsProtobuf
import FloatProtocols.Translator

namespace FloatProtocols

open Wire

namespace IridiumSbd

/-- `parse` never panics. -/
theorem parse_cases {ε : Type} (data : Bytes) :
    (parse data : Exec ε _) = .ok none ∨ ∃ m, (parse data : Exec ε _) = .ok (some m) := by
  rw [parse_outcome]
  split
  · exact .inr ⟨_, rfl⟩
  · exact .inl rfl

/-- What `parse` accepts fits its array, so the payload is there to be sliced. -/
theorem payloadSlice_of_parse {ε δ : Type} {data : Bytes} {m : IridiumSBDMessage}
    (h : (parse data : Exec ε _) = .ok (some m)) :
    m.payloadLen.toNat ≤ 340 ∧
    (m.payloadSlice : Exec δ Bytes) = .ok (m.payload.val.take m.payloadLen.toNat) ∧
    (m.payload.val.take m.payloadLen.toNat).length = m.payloadLen.toNat := by
  rw [parse_outcome] at h
  split at h
  · rename_i hin
    obtain rfl := Option.some.inj (Exec.ok.inj h)
    exact ⟨hin.2.2, Exec.slice_arr _ hin.2.2⟩
  · cases h

/-- The payload of the parsed frame is the window behind the header. -/
theorem payloadSlice_frameOf {ε : Type} {data : Bytes} (hlen : 3 + (lengthOf data).toNat ≤ data.length)
    (hmax : (lengthOf data).toNat ≤ 340) :
    ((frameOf data).payloadSlice : Exec ε Bytes) = .ok (window data 3 (lengthOf data).toNat) := by
  have hwindow : (window data 3 (lengthOf data).toNat).length = (lengthOf data).toNat :=
    length_window (by omega)
  refine (Exec.slice_arr (frameOf data).payload hmax).1.trans (congrArg Exec.ok ?_)
  show (((window data 3 (lengthOf data).toNat) ++ List.replicate 340 0).take 340).take
    (lengthOf data).toNat = _
  rw [List.take_take, Nat.min_eq_left hmax, List.take_left' hwindow]

end IridiumSbd

namespace Translator

open IridiumSbd (parse parse_outcome lengthOf frameOf)

/-- **One format, two readers.**  The slice decoder and the fixed-array parser accept the same inputs,
    and the decoder's output is the parser's protocol byte and payload. -/
theorem decodeIridiumSbd_iff_parse (data : Bytes) :
    ((∃ out, decodeIridiumSbd data = .ok out) ↔
      ∃ m, (parse data : Exec TranslateError _) = .ok (some m)) ∧
    ∀ p payload, decodeIridiumSbd data = .ok (p :: payload) ↔
      ∃ m, (parse data : Exec TranslateError _) = .ok (some m) ∧ m.header.protocol = p ∧
        (m.payloadSlice : Exec TranslateError Bytes) = .ok payload := by
  rw [decodeIridiumSbd_outcome, parse_outcome]
  split
  · rename_i hin
    have hslice := IridiumSbd.payloadSlice_frameOf (ε := TranslateError) hin.2.1 hin.2.2
    refine ⟨⟨fun _ => ⟨_, rfl⟩, fun _ => ⟨_, rfl⟩⟩, fun p payload => ⟨fun h => ?_, ?_⟩⟩
    · obtain ⟨rfl, rfl⟩ := List.cons.inj (Exec.ok.inj h)
      exact ⟨frameOf data, rfl, rfl, hslice⟩
    · rintro ⟨m, hm, rfl, hpayload⟩
      obtain rfl := Option.some.inj (Exec.ok.inj hm)
      obtain rfl := Exec.ok.inj (hslice.symm.trans hpayload)
      rfl
  · refine ⟨⟨?_, ?_⟩, fun p payload => ⟨?_, ?_⟩⟩
    · rintro ⟨out, h⟩
      cases h
    · rintro ⟨m, h⟩
      cases h
    · intro h
      cases h
    · rintro ⟨m, h, -⟩
      cases h

/-! ## Straight into a cellular frame -/

/-- What a call returns, and how it leaves the buffer and `GLOBAL_SEQUENCE`. -/
structure Translated where
  result : Except TranslateError Nat
  outputBuffer : Bytes
  globalSequence : UInt32

/-- `translate_iridium_to_asts_sync`, at the value `fetch_add` finds in `GLOBAL_SEQUENCE`. -/
def translateIridiumToAstsSync (globalSequence : UInt32) (iridiumData outputBuffer : Bytes) :
    Exec Empty Translated := do
  match ← parse iridiumData with
  | none => .ok ⟨.error .invalidProtocol, outputBuffer, globalSequence⟩
  | some iridiumMsg =>
    match ← AstsProtobuf.translate globalSequence iridiumMsg outputBuffer with
    | (none, outputBuffer) => .ok ⟨.error .dataTooLarge, outputBuffer, globalSequence + 1⟩
    | (some size, outputBuffer) => .ok ⟨.ok size, outputBuffer, globalSequence + 1⟩

theorem translateIridiumToAstsSync_of_none {sequence : UInt32} {data buffer : Bytes}
    (h : (parse data : Exec Empty _) = .ok none) :
    translateIridiumToAstsSync sequence data buffer = .ok ⟨.error .invalidProtocol, buffer, sequence⟩ := by
  rw [translateIridiumToAstsSync, h, Exec.ok_bind]

theorem translateIridiumToAstsSync_of_some {sequence : UInt32} {data buffer : Bytes}
    {m : IridiumSbd.IridiumSBDMessage} (h : (parse data : Exec Empty _) = .ok (some m)) :
    translateIridiumToAstsSync sequence data buffer =
      if 7 + m.payloadLen.toNat ≤ buffer.length then
        .ok ⟨.ok (7 + m.payloadLen.toNat),
          AstsProtobuf.frame sequence 0x01 (m.payload.val.take m.payloadLen.toNat) ++
            buffer.drop (7 + m.payloadLen.toNat), sequence + 1⟩
      else .ok ⟨.error .dataTooLarge, buffer, sequence + 1⟩ := by
  obtain ⟨hmax, -⟩ := IridiumSbd.payloadSlice_of_parse (δ := Empty) h
  rw [translateIridiumToAstsSync, h, Exec.ok_bind]
  simp only [AstsProtobuf.translate, AstsProtobuf.translateWithType_outcome _ _ _ hmax]
  split <;> rw [Exec.ok_bind]

/-- The translation of an accepted frame, in the bytes of the input. -/
theorem translateIridiumToAstsSync_of_frame {sequence : UInt32} {data buffer : Bytes}
    (hin : 3 ≤ data.length ∧ 3 + (lengthOf data).toNat ≤ data.length ∧ (lengthOf data).toNat ≤ 340) :
    translateIridiumToAstsSync sequence data buffer =
      if 7 + (lengthOf data).toNat ≤ buffer.length then
        .ok ⟨.ok (7 + (lengthOf data).toNat),
          AstsProtobuf.frame sequence 0x01 (window data 3 (lengthOf data).toNat) ++
            buffer.drop (7 + (lengthOf data).toNat), sequence + 1⟩
      else .ok ⟨.error .dataTooLarge, buffer, sequence + 1⟩ := by
  have hsome : (parse data : Exec Empty _) = .ok (some (frameOf data)) := by
    rw [parse_outcome, if_pos hin]
  have hpayload : (frameOf data).payload.val.take (lengthOf data).toNat =
      window data 3 (lengthOf data).toNat :=
    Exec.ok.inj ((Exec.slice_arr (frameOf data).payload hin.2.2).1.symm.trans
      (IridiumSbd.payloadSlice_frameOf (ε := Empty) hin.2.1 hin.2.2))
  rw [translateIridiumToAstsSync_of_some hsome]
  show (if 7 + (lengthOf data).toNat ≤ buffer.length then _ else _) = _
  rw [← hpayload]
  rfl

/-- **The translation, bytes and all.**  With the length in bytes 1 and 2 of the input and the payload
    from byte 3 on: every call returns; it returns `Ok(n)` exactly for an accepted frame that fits the
    buffer, with `n` seven more than the length; then the frame stands in the first `n` bytes and the rest
    is as it was; on an error the whole buffer is. -/
theorem translateIridiumToAstsSync_spec (sequence : UInt32) (data buffer : Bytes) :
    let length := (ofU16Be (window data 1 2)).toNat
    let payload := window data 3 length
    ∃ out, translateIridiumToAstsSync sequence data buffer = .ok out ∧
      (∀ n, out.result = .ok n ↔
        (∃ m, (parse data : Exec Empty _) = .ok (some m)) ∧ 7 + length ≤ buffer.length ∧ n = 7 + length) ∧
      (∀ n, out.result = .ok n → payload.length = length ∧
        out.outputBuffer.take n =
          [0x01] ++ u32Be sequence ++ u16Be (.ofNat payload.length) ++ payload ∧
        out.outputBuffer.drop n = buffer.drop n) ∧
      (∀ e, out.result = .error e → out.outputBuffer = buffer) := by
  intro length payload
  by_cases hin : 3 ≤ data.length ∧ 3 + (lengthOf data).toNat ≤ data.length ∧ (lengthOf data).toNat ≤ 340
  · have hparse : ∃ m, (parse data : Exec Empty _) = .ok (some m) := by
      rw [parse_outcome, if_pos hin]
      exact ⟨_, rfl⟩
    have hlen : payload.length = length := length_window hin.2.1
    rw [translateIridiumToAstsSync_of_frame hin]
    split
    · rename_i hfits
      refine ⟨_, rfl, ?_, ?_, ?_⟩
      · intro n
        constructor
        · intro h
          exact ⟨hparse, hfits, (Except.ok.inj h).symm⟩
        · rintro ⟨-, -, rfl⟩
          rfl
      · intro n h
        obtain rfl := Except.ok.inj h
        have hframe : (AstsProtobuf.frame sequence 0x01 payload).length = 7 + length := by
          rw [AstsProtobuf.length_frame, hlen]
        exact ⟨hlen, List.take_left' hframe, List.drop_left' hframe⟩
      · intro e h
        cases h
    · rename_i hshort
      refine ⟨_, rfl, ?_, ?_, fun _ _ => rfl⟩
      · intro n
        constructor
        · intro h
          cases h
        · rintro ⟨-, hfits, -⟩
          exact absurd hfits hshort
      · intro n h
        cases h
  · have hnone : (parse data : Exec Empty _) = .ok none := by
      rw [parse_outcome, if_neg hin]
    refine ⟨_, translateIridiumToAstsSync_of_none hnone, ?_, ?_, fun _ _ => rfl⟩
    · intro n
      constructor
      · intro h
        cases h
      · rintro ⟨⟨m, hm⟩, -⟩
        cases hnone.symm.trans hm
    · intro n h
      cases h

end Translator

end FloatProtocols
