/-
  The write-ahead log of `storage/wal.rs`: header, entry framing, `open`, `append`, `replay`.

  1. **File** — the handle is the bytes of the file and a cursor.  Writing the header leaves the
     cursor BEHIND it, `append` seeks to the end, and a `BufReader` reads from wherever the cursor
     stands and leaves it at the end of the file (its loops stop there and nowhere else).  Seeks,
     writes and syncs are taken to succeed; what can fail is a read past the end.

  2. **Scans** — `loadSequence` and `replay` walk the same frames (length, data, checksum) and
     differ in what a bad checksum or a bad entry means to them.

  3. **The crux (`open_outcome`)** — `WalHeader` writes 18 bytes and `WAL_HEADER_SIZE` is 16.  On a
     new file the scan starts behind the header and finds nothing; on an existing one the 16 bytes it
     reads end before the sequence number does, and `from_bytes` indexes past them.  So `open` NEVER
     returns a log, whatever the file holds.

  bincode and crc32fast are the parameter `Libs`; the clock reading of an entry is an argument.
-/
import FloatProtocols.Protocol
import FloatProtocols.Lib.Exec

namespace FloatProtocols

open Wire Wire.Reader

namespace Wal

/-! ## Data -/

/-- `WalError`. -/
inductive WalError where
  | fileOpen (e : String)
  | fileRead (e : String)
  | fileWrite (e : String)
  | fileSeek (e : String)
  | serialization (e : String)
  | deserialization (e : String)
  | invalidHeader
  | crcMismatch
  deriving DecidableEq, Repr

/-- `WAL_MAGIC`. -/
def walMagic : Arr 8 := ⟨utf8 "FLOATWAL", by decide⟩
/-- `WAL_VERSION`. -/
def walVersion : UInt16 := 1
/-- `WAL_HEADER_SIZE`. -/
def walHeaderSize : Nat := 16
/-- `WAL_ENTRY_HEADER_SIZE`. -/
def walEntryHeaderSize : Nat := 4
/-- `WAL_ENTRY_FOOTER_SIZE`. -/
def walEntryFooterSize : Nat := 4

/-- `WalHeader`. -/
structure WalHeader where
  magic : Arr 8
  version : UInt16
  sequence : UInt64
  deriving DecidableEq

/-- `WalEntry`. -/
structure WalEntry where
  sequence : UInt64
  message : Message
  timestampMs : UInt64
  deriving DecidableEq

/-- The two libraries the log is written with. -/
structure Libs where
  /-- `bincode::serialize`. -/
  serialize : WalEntry → Except String Bytes
  /-- `bincode::deserialize`. -/
  deserialize : Bytes → Except String WalEntry
  /-- `crc32fast`. -/
  crc32 : Bytes → UInt32

namespace WalHeader

/-- `WalHeader::new`. -/
def new (sequence : UInt64) : WalHeader := ⟨walMagic, walVersion, sequence⟩

/-- `WalHeader::to_bytes`. -/
def toBytes (h : WalHeader) : Bytes := h.magic.val ++ u16Be h.version ++ u64Be h.sequence

/-- `WalHeader::from_bytes`, index by index. -/
def fromBytes {ε : Type} (bytes : Bytes) : Exec ε (Option WalHeader) :=
  if bytes.length < walHeaderSize then .ok none
  else do
    let magic ← Exec.slice bytes 0 8
    if magic ≠ walMagic.val then .ok none
    else do
      let version ← Exec.indices bytes [8, 9]
      let sequence ← Exec.indices bytes [10, 11, 12, 13, 14, 15, 16, 17]
      .ok (some ⟨walMagic, ofU16Be version, ofU64Be sequence⟩)

end WalHeader

/-- `WalEntry::to_bytes`. -/
def WalEntry.toBytes (libs : Libs) (e : WalEntry) : Exec WalError Bytes :=
  match libs.serialize e with
  | .ok data => .ok data
  | .error e => .err (.serialization e)

/-- `Wal`: the file behind the handle, its cursor, and the sequence number. -/
structure Handle where
  content : Bytes
  cursor : Nat
  sequence : UInt64
  deriving DecidableEq

/-! ## Reading frames -/

/-- The text of an `UnexpectedEof` from `read_exact`. -/
def eof : WalError := .fileRead "failed to fill whole buffer"

/-- `read_exact` into `n` bytes, its error passed on. -/
def readExact (n : Nat) : Reader WalError Bytes := takeOr n eof

/-- One frame: its data and the checksum stored behind them. -/
def readFrame : Reader WalError (Bytes × UInt32) := do
  let lenBytes ← readExact walEntryHeaderSize
  let data ← readExact (ofU32Be lenBytes).toNat
  let crcBytes ← readExact walEntryFooterSize
  return (data, ofU32Be crcBytes)

/-- The scan of `load_sequence`: the last entry that parses gives the sequence number, and a bad
    checksum ends it.  The loop stops where no frame length is left; `fuel` counts its turns. -/
def scanSequence (libs : Libs) : Nat → UInt64 → Bytes → Exec WalError UInt64
  | 0, seq, _ => .ok seq
  | fuel + 1, seq, rest =>
    if rest.length < walEntryHeaderSize then .ok seq
    else do
      let x ← readFrame.run rest
      if libs.crc32 x.1.1 ≠ x.1.2 then .err .crcMismatch
      else
        match libs.deserialize x.1.1 with
        | .ok entry => scanSequence libs fuel entry.sequence x.2
        | .error _ => scanSequence libs fuel seq x.2

/-- The scan of `replay`: a bad checksum or a bad entry is skipped. -/
def scanMessages (libs : Libs) : Nat → List Message → Bytes → Exec WalError (List Message)
  | 0, messages, _ => .ok messages
  | fuel + 1, messages, rest =>
    if rest.length < walEntryHeaderSize then .ok messages
    else do
      let x ← readFrame.run rest
      if libs.crc32 x.1.1 ≠ x.1.2 then scanMessages libs fuel messages x.2
      else
        match libs.deserialize x.1.1 with
        | .ok entry => scanMessages libs fuel (messages ++ [entry.message]) x.2
        | .error _ => scanMessages libs fuel messages x.2

/-! ## The operations -/

/-- `is_new_file`. -/
def isNewFile (w : Handle) : Bool := w.content.length == 0

/-- `write_header`: from offset 0 over what is there. -/
def writeHeader (w : Handle) : Handle :=
  let bytes := (WalHeader.new 0).toBytes
  { w with content := bytes ++ w.content.drop bytes.length, cursor := bytes.length }

/-- What a `BufReader` on the handle reads. -/
def unread (w : Handle) : Bytes := w.content.drop w.cursor

/-- `load_sequence`. -/
def loadSequence (libs : Libs) (w : Handle) : Exec WalError Handle := do
  let x ← (readExact walHeaderSize).run (unread w)
  match ← WalHeader.fromBytes x.1 with
  | none => .err .invalidHeader
  | some header =>
    let sequence ← scanSequence libs x.2.length header.sequence x.2
    .ok { w with cursor := w.content.length, sequence }

/-- `Wal::open` on a file with the given bytes, `none` if there is no file: the outcome, and the
    bytes of the file afterwards. -/
def openFile (libs : Libs) (disk : Option Bytes) : Exec WalError Handle × Bytes :=
  let w : Handle := { content := disk.getD [], cursor := 0, sequence := 0 }
  let w := if isNewFile w then writeHeader w else w
  (loadSequence libs w, w.content)

/-- `append`, with the entry's clock reading: the sequence number it returns and the handle.  The
    number is taken before the entry is serialized. -/
def append (libs : Libs) (w : Handle) (now : UInt64) (message : Message) :
    Exec WalError UInt64 × Handle :=
  let seq := w.sequence + 1
  let w := { w with sequence := seq }
  match (WalEntry.mk seq message now).toBytes libs with
  | .ok data =>
    let frame := u32Be (UInt32.ofNat data.length) ++ data ++ u32Be (libs.crc32 data)
    (.ok seq, { w with content := w.content ++ frame, cursor := w.content.length + frame.length })
  | .err e => (.err e, w)
  | .panic => (.panic, w)

/-- `replay`. -/
def replay (libs : Libs) (w : Handle) : Exec WalError (List Message) × Handle :=
  ((do
    let x ← (readExact walHeaderSize).run (unread w)
    scanMessages libs x.2.length [] x.2),
   { w with cursor := w.content.length })

/-- Appends in a row, each with its clock reading; the numbers they return. -/
def appendAll (libs : Libs) : Handle → List (UInt64 × Message) →
    Exec WalError (List UInt64 × Handle)
  | w, [] => .ok ([], w)
  | w, (now, m) :: rest => do
    let seq ← (append libs w now m).1
    let x ← appendAll libs (append libs w now m).2 rest
    .ok (seq :: x.1, x.2)

/-- A whole session: create the log, append, reopen it, replay.  Returns the sequence numbers of the
    appends, the messages, and the sequence number of the reopened log. -/
def session (libs : Libs) (entries : List (UInt64 × Message)) :
    Exec WalError (List UInt64 × List Message × UInt64) := do
  let w ← (openFile libs none).1
  let x ← appendAll libs w entries
  let w' ← (openFile libs (some x.2.content)).1
  let messages ← (replay libs w').1
  .ok (x.1, messages, w'.sequence)

/-! ## The header does not fit its own size -/

/-- The sequence number ends two bytes behind what `load_sequence` reads. -/
theorem fromBytes_of_length {ε : Type} {bytes : Bytes} (h : bytes.length = walHeaderSize) :
    (WalHeader.fromBytes bytes : Exec ε (Option WalHeader)) =
      if bytes.take 8 = walMagic.val then .panic else .ok none := by
  have h16 : bytes.length = 16 := h
  have hslice : (Exec.slice bytes 0 8 : Exec ε Bytes) = .ok (bytes.take 8) :=
    Exec.slice_eq_ok (by omega) (by omega)
  have hversion : ∃ v, (Exec.indices bytes [8, 9] : Exec ε Bytes) = .ok v ∧ _ :=
    Exec.indices_eq_ok (by simp [h16])
  have hsequence : (Exec.indices bytes [10, 11, 12, 13, 14, 15, 16, 17] : Exec ε Bytes) = .panic :=
    Exec.indices_eq_panic ⟨16, by simp, by omega⟩
  obtain ⟨v, hv, -⟩ := hversion
  rw [WalHeader.fromBytes, if_neg (by omega), hslice, Exec.ok_bind]
  by_cases hm : bytes.take 8 = walMagic.val
  · rw [if_neg (not_not.mpr hm), if_pos hm, hv, Exec.ok_bind, hsequence, Exec.panic_bind]
  · rw [if_pos hm, if_neg hm]

/-- `load_sequence` by cases: nothing to read, no magic number, or past the end of the header. -/
theorem loadSequence_outcome (libs : Libs) (w : Handle) :
    loadSequence libs w =
      if (unread w).length < walHeaderSize then .err eof
      else if (unread w).take 8 = walMagic.val then .panic
      else .err .invalidHeader := by
  rw [loadSequence, readExact, run_takeOr]
  rcases Nat.lt_or_ge (unread w).length walHeaderSize with h | h
  · rw [if_neg (by omega), if_pos h, Exec.err_bind]
  · have htake : ((unread w).take walHeaderSize).take 8 = (unread w).take 8 := by
      rw [List.take_take]
      rfl
    rw [if_pos h, if_neg (by omega), Exec.ok_bind,
      fromBytes_of_length (List.length_take_of_le h), htake]
    by_cases hm : (unread w).take 8 = walMagic.val
    · rw [if_pos hm, if_pos hm, Exec.panic_bind]
    · rw [if_neg hm, if_neg hm]
      rfl

/-- **What `Wal::open` comes to, on any file.** -/
theorem open_outcome (libs : Libs) (disk : Option Bytes) :
    (openFile libs disk).1 =
      if (disk.getD []).length < walHeaderSize then .err eof
      else if (disk.getD []).take 8 = walMagic.val then .panic
      else .err .invalidHeader := by
  rw [openFile]
  by_cases hnew : disk.getD [] = []
  · -- the header is written and the cursor stands behind it
    rw [hnew, loadSequence_outcome]
    rfl
  · have hold : isNewFile { content := disk.getD [], cursor := 0, sequence := 0 } = false := by
      simpa [isNewFile] using hnew
    simp only [hold, Bool.false_eq_true, if_false, loadSequence_outcome]
    rfl

theorem openFile_ne_ok (libs : Libs) (disk : Option Bytes) (w : Handle) :
    (openFile libs disk).1 ≠ .ok w := by
  rw [open_outcome]
  split
  · simp
  · split <;> simp

/-- **No log is ever opened, so no session gets its messages back**: `open` fails on every file, and
    with it every session, whatever is appended. -/
theorem wal_session_never_returns (libs : Libs) :
    (∀ disk w, (openFile libs disk).1 ≠ .ok w) ∧
    ∀ entries result, session libs entries ≠ .ok result := by
  refine ⟨openFile_ne_ok libs, fun entries result h => ?_⟩
  obtain ⟨w, hw, -⟩ := Exec.bind_eq_ok.mp h
  exact openFile_ne_ok libs none w hw

/-- The empty session: creating the log fails and leaves its 18 header bytes, reopening those
    panics. -/
theorem wal_create_then_reopen :
    (∀ libs, openFile libs none = (.err eof, (WalHeader.new 0).toBytes)) ∧
    ∀ libs, (openFile libs (some (openFile libs none).2)).1 = .panic := by
  have hcreate (libs : Libs) : openFile libs none = (.err eof, (WalHeader.new 0).toBytes) := by
    refine Prod.ext ?_ ?_
    · rw [open_outcome]
      rfl
    · exact List.append_nil _
  refine ⟨hcreate, fun libs => ?_⟩
  rw [hcreate, open_outcome, if_neg (by decide), if_pos (by decide)]

end Wal

end FloatProtocols
