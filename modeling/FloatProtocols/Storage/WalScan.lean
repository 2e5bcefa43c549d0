/-
  The two scans of `storage/wal.rs` on a damaged file.

  Damage is of two kinds: entries whose checksum no longer matches, anywhere, and a TORN last append,
  a strict prefix of one more entry.  `load_sequence` and `replay` walk the same frames but react
  differently, and both only stop quietly where not even a length field is left:

      damage                     load_sequence      replay
      bad checksum               CrcMismatch        skipped
      torn inside the length     stops              stops
      torn behind the length     FileRead           FileRead

  1. A whole frame is read back (`readFrame_toBytes`), a torn one with its length is an error
     (`readFrame_torn`).
  2. Each scan over frames and a tail, by induction on the frames (`scanSequence_region`,
     `scanMessages_region`).  The fuel is the number of bytes left, and a frame takes eight at least.
-/
import FloatProtocols.Storage.Wal

namespace FloatProtocols

open Wire Wire.Reader

namespace Wal

/-! ## Frames on disk -/

/-- An entry as it lies in the file: its data, and a checksum that may or may not be theirs. -/
structure Frame where
  data : Bytes
  crc : UInt32
  small : data.length < 2 ^ 32

/-- Length, data, checksum: what `append` writes. -/
def Frame.toBytes (f : Frame) : Bytes :=
  u32Be (UInt32.ofNat f.data.length) ++ (f.data ++ u32Be f.crc)

/-- The entries of a file, one behind the other. -/
def region (frames : List Frame) : Bytes := frames.flatMap Frame.toBytes

/-- The stored checksum is the data's. -/
def Frame.Sound (libs : Libs) (f : Frame) : Prop := libs.crc32 f.data = f.crc

instance (libs : Libs) (f : Frame) : Decidable (f.Sound libs) :=
  inferInstanceAs (Decidable (_ = _))

/-- The message in a frame whose checksum and payload are valid. -/
def Frame.message (libs : Libs) (f : Frame) : Option Message :=
  if f.Sound libs then (libs.deserialize f.data).toOption.map WalEntry.message else none

/-- The sequence number after a frame. -/
def Frame.sequence (libs : Libs) (seq : UInt64) (f : Frame) : UInt64 :=
  ((libs.deserialize f.data).toOption.map WalEntry.sequence).getD seq

theorem length_toBytes (f : Frame) : f.toBytes.length = 4 + (f.data.length + 4) := by
  rw [Frame.toBytes, List.length_append, List.length_append, length_u32Be, length_u32Be]

/-- An append that serializes its entry adds one sound frame to the file. -/
theorem append_frame {libs : Libs} {w : Handle} {now : UInt64} {message : Message} {data : Bytes}
    (h : libs.serialize ⟨w.sequence + 1, message, now⟩ = .ok data) (hsmall : data.length < 2 ^ 32) :
    (append libs w now message).1 = .ok (w.sequence + 1) ∧
    (append libs w now message).2.content =
      w.content ++ Frame.toBytes ⟨data, libs.crc32 data, hsmall⟩ := by
  have hbytes : (WalEntry.mk (w.sequence + 1) message now).toBytes libs = .ok data := by
    rw [WalEntry.toBytes, h]
  rw [append]
  simp only [hbytes]
  exact ⟨trivial, by rw [Frame.toBytes, List.append_assoc]⟩

/-- The length field is the length of the data. -/
theorem length_field (f : Frame) :
    (ofU32Be (u32Be (UInt32.ofNat f.data.length))).toNat = f.data.length := by
  rw [ofU32Be_u32Be, toNat_ofNat_length f.small]

/-- A whole frame comes back. -/
theorem readFrame_toBytes (f : Frame) (rest : Bytes) :
    readFrame.run (f.toBytes ++ rest) = .ok ((f.data, f.crc), rest) := by
  rw [readFrame, walEntryHeaderSize, walEntryFooterSize, Frame.toBytes, List.append_assoc, List.append_assoc,
    run_bind, readExact, run_takeOr_append (length_u32Be _), Exec.ok_bind, run_bind, readExact,
    run_takeOr_append (length_field f).symm, Exec.ok_bind, run_bind,
    run_takeOr_append (length_u32Be _), Exec.ok_bind, run_pure, ofU32Be_u32Be]

/-- A torn frame that has its length is an error, wherever the cut is. -/
theorem readFrame_torn (f : Frame) {k : Nat} (hk : 4 ≤ k) (hcut : k < f.toBytes.length) :
    readFrame.run (f.toBytes.take k) = .err eof := by
  rw [length_toBytes] at hcut
  rw [readFrame, walEntryHeaderSize, walEntryFooterSize, Frame.toBytes, List.take_append,
    length_u32Be,
    List.take_of_length_le (by rw [length_u32Be]; exact hk), run_bind, readExact,
    run_takeOr_append (length_u32Be _), Exec.ok_bind, run_bind, readExact, length_field]
  rcases Nat.lt_or_ge (k - 4) f.data.length with hdata | hdata
  · -- the cut is inside the data
    rw [run_takeOr_short (by rw [List.length_take]; omega), Exec.err_bind]
  · -- the data are there, the checksum is not
    rw [List.take_append, List.take_of_length_le hdata, run_takeOr_append rfl, Exec.ok_bind,
      run_bind, run_takeOr_short, Exec.err_bind]
    rw [List.length_take, length_u32Be]
    omega

/-! ## The scan of `replay` -/

/-- At the tail: the loop stops without a length, and fails behind it. -/
theorem scanMessages_torn (libs : Libs) (f : Frame) {k : Nat} (hcut : k < f.toBytes.length)
    {fuel : Nat} (hfuel : k ≤ fuel) (messages : List Message) :
    scanMessages libs fuel messages (f.toBytes.take k) = if k < 4 then .ok messages else .err eof := by
  have hlen : (f.toBytes.take k).length = k := List.length_take_of_le (by omega)
  cases fuel with
  | zero => rw [if_pos (by omega), scanMessages]
  | succ fuel =>
    rw [scanMessages, hlen, walEntryHeaderSize]
    by_cases hk : k < 4
    · rw [if_pos hk, if_pos hk]
    · rw [if_neg hk, if_neg hk, readFrame_torn f (by omega) hcut, Exec.err_bind]

/-- One frame: skipped, or its message taken. -/
theorem scanMessages_frame (libs : Libs) (f : Frame) (fuel : Nat) (messages : List Message)
    (rest : Bytes) :
    scanMessages libs (fuel + 1) messages (f.toBytes ++ rest) =
      scanMessages libs fuel (messages ++ (f.message libs).toList) rest := by
  have hlong : ¬ (f.toBytes ++ rest).length < walEntryHeaderSize := by
    rw [List.length_append, length_toBytes, walEntryHeaderSize]
    omega
  rw [scanMessages, if_neg hlong, readFrame_toBytes, Exec.ok_bind, Frame.message]
  show (if ¬ f.Sound libs then scanMessages libs fuel messages rest else _) = _
  by_cases hsound : f.Sound libs
  · rw [if_pos hsound, if_neg (not_not.mpr hsound)]
    cases hentry : libs.deserialize f.data with
    | ok entry => rfl
    | error e =>
      show scanMessages libs fuel messages rest = scanMessages libs fuel (messages ++ []) rest
      rw [List.append_nil]
  · rw [if_neg hsound, if_pos hsound]
    show _ = scanMessages libs fuel (messages ++ []) rest
    rw [List.append_nil]

theorem region_cons (f : Frame) (frames : List Frame) :
    region (f :: frames) = f.toBytes ++ region frames := List.flatMap_cons

/-- A region in front: one turn for each frame, and the scan goes on behind it. -/
theorem scanMessages_frames (libs : Libs) (frames : List Frame) (rest : Bytes) :
    ∀ (fuel : Nat) (messages : List Message),
      scanMessages libs (frames.length + fuel) messages (region frames ++ rest) =
        scanMessages libs fuel (messages ++ frames.filterMap (Frame.message libs)) rest := by
  induction frames with
  | nil =>
    intro fuel messages
    rw [List.filterMap_nil, List.append_nil, List.length_nil, Nat.zero_add]
    rfl
  | cons g frames ih =>
    intro fuel messages
    rw [List.length_cons, Nat.add_right_comm, region_cons, List.append_assoc, scanMessages_frame, ih,
      List.append_assoc]
    cases hg : g.message libs with
    | none => rw [List.filterMap_cons_none hg]; rfl
    | some m => rw [List.filterMap_cons_some hg]; rfl

theorem length_le_region (frames : List Frame) : frames.length ≤ (region frames).length := by
  induction frames with
  | nil => exact Nat.zero_le _
  | cons g frames ih =>
    rw [region_cons, List.length_append, length_toBytes, List.length_cons]
    omega

/-- **`replay` over damaged frames and a torn tail.** -/
theorem scanMessages_region (libs : Libs) (f : Frame) {k : Nat} (hcut : k < f.toBytes.length)
    (frames : List Frame) (fuel : Nat) (messages : List Message)
    (hfuel : (region frames ++ f.toBytes.take k).length ≤ fuel) :
    scanMessages libs fuel messages (region frames ++ f.toBytes.take k) =
      if k < 4 then .ok (messages ++ frames.filterMap (Frame.message libs)) else .err eof := by
  have hlen : (f.toBytes.take k).length = k := List.length_take_of_le (by omega)
  have hframes := length_le_region frames
  rw [List.length_append, hlen] at hfuel
  obtain ⟨fuel, rfl⟩ := Nat.exists_eq_add_of_le (Nat.le_trans hframes (by omega : _ ≤ fuel))
  rw [scanMessages_frames, scanMessages_torn libs f hcut (by omega)]

/-- Whole frames, and turns enough for them. -/
theorem scanMessages_whole (libs : Libs) (frames : List Frame) {fuel : Nat}
    (hfuel : frames.length ≤ fuel) :
    scanMessages libs fuel [] (region frames) = .ok (frames.filterMap (Frame.message libs)) := by
  obtain ⟨fuel, rfl⟩ := Nat.exists_eq_add_of_le hfuel
  have hscan := scanMessages_frames libs frames [] fuel []
  rw [List.append_nil, List.nil_append] at hscan
  rw [hscan]
  cases fuel with
  | zero => rfl
  | succ fuel => exact if_pos (by decide)

/-- **`replay` over whole frames**, whatever their data and checksums: the loop ends, however many turns
    it is given beyond one for each frame, with the messages of the frames that are sound and decode;
    and so does `replay` on a file whose 16 header bytes stand in front of them. -/
theorem replay_well_framed (libs : Libs) (frames : List Frame) :
    (∀ extra, scanMessages libs (frames.length + (extra + 1)) [] (region frames) =
      .ok (frames.filterMap (Frame.message libs))) ∧
    ∀ (header : Arr walHeaderSize) (sequence : UInt64),
      (replay libs ⟨header.val ++ region frames, 0, sequence⟩).1 =
        .ok (frames.filterMap (Frame.message libs)) := by
  refine ⟨fun extra => scanMessages_whole libs frames (Nat.le_add_right _ _), fun header sequence => ?_⟩
  show ((readExact walHeaderSize).run (header.val ++ region frames) >>= fun x =>
    scanMessages libs x.2.length [] x.2) = _
  rw [readExact, run_takeOr_append header.property, Exec.ok_bind]
  exact scanMessages_whole libs frames (length_le_region frames)

/-! ## The scan of `load_sequence` -/

theorem scanSequence_torn (libs : Libs) (f : Frame) {k : Nat} (hcut : k < f.toBytes.length)
    {fuel : Nat} (hfuel : k ≤ fuel) (seq : UInt64) :
    scanSequence libs fuel seq (f.toBytes.take k) = if k < 4 then .ok seq else .err eof := by
  have hlen : (f.toBytes.take k).length = k := List.length_take_of_le (by omega)
  cases fuel with
  | zero => rw [if_pos (by omega), scanSequence]
  | succ fuel =>
    rw [scanSequence, hlen, walEntryHeaderSize]
    by_cases hk : k < 4
    · rw [if_pos hk, if_pos hk]
    · rw [if_neg hk, if_neg hk, readFrame_torn f (by omega) hcut, Exec.err_bind]

/-- One frame: the end, or its sequence number taken. -/
theorem scanSequence_frame (libs : Libs) (f : Frame) (fuel : Nat) (seq : UInt64) (rest : Bytes) :
    scanSequence libs (fuel + 1) seq (f.toBytes ++ rest) =
      if f.Sound libs then scanSequence libs fuel (f.sequence libs seq) rest
      else .err .crcMismatch := by
  have hlong : ¬ (f.toBytes ++ rest).length < walEntryHeaderSize := by
    rw [List.length_append, length_toBytes, walEntryHeaderSize]
    omega
  rw [scanSequence, if_neg hlong, readFrame_toBytes, Exec.ok_bind, Frame.sequence]
  show (if ¬ f.Sound libs then Exec.err WalError.crcMismatch else _) = _
  by_cases hsound : f.Sound libs
  · rw [if_pos hsound, if_neg (not_not.mpr hsound)]
    cases hentry : libs.deserialize f.data with
    | ok entry => rfl
    | error e => rfl
  · rw [if_neg hsound, if_pos hsound]

/-- **`load_sequence` over damaged frames and a torn tail**: it returns only if nothing is damaged
    but the last length field. -/
theorem scanSequence_region (libs : Libs) (f : Frame) {k : Nat} (hcut : k < f.toBytes.length) :
    ∀ (frames : List Frame) (fuel : Nat) (seq : UInt64),
      (region frames ++ f.toBytes.take k).length ≤ fuel →
      scanSequence libs fuel seq (region frames ++ f.toBytes.take k) =
        if ∀ g ∈ frames, g.Sound libs then
          if k < 4 then .ok (frames.foldl (Frame.sequence libs) seq) else .err eof
        else .err .crcMismatch := by
  have hlen : (f.toBytes.take k).length = k := List.length_take_of_le (by omega)
  intro frames
  induction frames with
  | nil =>
    intro fuel seq hfuel
    rw [region, List.flatMap_nil, List.nil_append, hlen] at hfuel
    rw [region, List.flatMap_nil, List.nil_append, scanSequence_torn libs f hcut hfuel,
      if_pos (List.forall_mem_nil _), List.foldl_nil]
  | cons g frames ih =>
    intro fuel seq hfuel
    rw [region, List.flatMap_cons, List.append_assoc, List.length_append, length_toBytes] at hfuel
    obtain ⟨fuel, rfl⟩ : ∃ n, fuel = n + 1 := ⟨fuel - 1, by omega⟩
    rw [region, List.flatMap_cons, List.append_assoc, scanSequence_frame]
    simp only [List.forall_mem_cons]
    by_cases hsound : g.Sound libs
    · rw [if_pos hsound]
      show scanSequence libs fuel _ (region frames ++ _) = _
      rw [ih fuel _ (by rw [region]; omega), List.foldl_cons]
      simp only [hsound, true_and]
    · rw [if_neg hsound, if_neg (fun h => hsound h.1)]

/-! ## Both scans -/

/-- **When a damaged file can be opened and replayed**: every checksum must match, and the torn
    append must not have got beyond its length field.  (`replay` alone needs only the second.) -/
theorem damaged_file_survives_iff (libs : Libs) (seq : UInt64) (frames : List Frame) (f : Frame)
    (k : Nat) (hcut : k < f.toBytes.length) :
    ((∃ s, scanSequence libs (region frames ++ f.toBytes.take k).length seq
          (region frames ++ f.toBytes.take k) = .ok s) ∧
      scanMessages libs (region frames ++ f.toBytes.take k).length []
        (region frames ++ f.toBytes.take k) = .ok (frames.filterMap (Frame.message libs)) ↔
      (∀ g ∈ frames, g.Sound libs) ∧ k < 4) ∧
    (scanMessages libs (region frames ++ f.toBytes.take k).length []
        (region frames ++ f.toBytes.take k) = .ok (frames.filterMap (Frame.message libs)) ↔
      k < 4) := by
  rw [scanSequence_region libs f hcut frames _ seq (Nat.le_refl _),
    scanMessages_region libs f hcut frames _ [] (Nat.le_refl _), List.nil_append]
  by_cases hk : k < 4
  · rw [if_pos hk, if_pos hk]
    by_cases hsound : ∀ g ∈ frames, g.Sound libs
    · rw [if_pos hsound]
      exact ⟨⟨fun _ => ⟨hsound, hk⟩, fun _ => ⟨⟨_, rfl⟩, rfl⟩⟩, fun _ => hk, fun _ => rfl⟩
    · rw [if_neg hsound]
      refine ⟨⟨?_, fun h => absurd h.1 hsound⟩, fun _ => hk, fun _ => rfl⟩
      rintro ⟨⟨s, hs⟩, -⟩
      cases hs
  · rw [if_neg hk, if_neg hk]
    refine ⟨⟨?_, fun h => absurd h.2 hk⟩, ?_, fun h => absurd h hk⟩
    · rintro ⟨-, hmsgs⟩
      cases hmsgs
    · intro hmsgs
      cases hmsgs

/-- A checksum and a codec for the two files below: the sum of the bytes, and no entry at all. -/
def sumLibs : Libs where
  serialize _ := .ok []
  deserialize _ := .error "no entry"
  crc32 data := UInt32.ofNat (data.map UInt8.toNat).sum

/-- One sound frame, and an append torn inside its length. -/
theorem damaged_file_survives_iff_short :
    scanMessages sumLibs 12 []
      (region [⟨[7], 7, by decide⟩] ++ (Frame.toBytes ⟨[1, 2], 3, by decide⟩).take 3) = .ok [] :=
  ((damaged_file_survives_iff sumLibs 0 [⟨[7], 7, by decide⟩] ⟨[1, 2], 3, by decide⟩ 3
    (by decide)).1.mpr ⟨by decide, by decide⟩).2

/-- One flipped bit in the only entry, and the log does not open; an append torn behind its length,
    and it neither opens nor replays. -/
theorem damaged_file_refused :
    scanSequence sumLibs 9 0 (region [⟨[6], 7, by decide⟩]) = .err .crcMismatch ∧
    scanSequence sumLibs 5 0 ((Frame.toBytes ⟨[7], 7, by decide⟩).take 5) = .err eof ∧
    scanMessages sumLibs 5 [] ((Frame.toBytes ⟨[7], 7, by decide⟩).take 5) = .err eof := by
  decide +kernel

end Wal

end FloatProtocols
