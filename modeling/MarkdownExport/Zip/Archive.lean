import MarkdownExport.Text.Basic
import MarkdownExport.Zip.Crc32
import MarkdownExport.Zip.Inflate

/-! Zip archives, whose entries are stored as they are or deflated. The end record is looked for from the end of
the file, and what stands before the archive shifts all its offsets. -/
namespace MarkdownExport.Zip

inductive Error where
  | noEndRecord
  | truncated
  | longComment
  | misplacedDirectory
  | noEntryRecord
  | noLocalHeader
  | passwordRequired
  | unsupportedMethod
  deriving DecidableEq, Repr

def Error.message : Error → Text
  | noEndRecord => "invalid Zip archive: Could not find EOCD"
  | truncated => "i/o error"
  | longComment => "invalid Zip archive: EOCD comment exceeds file boundary"
  | misplacedDirectory => "invalid Zip archive: Invalid CDFH offset in EOCD"
  | noEntryRecord => "invalid Zip archive: No CDFH found"
  | noLocalHeader => "invalid Zip archive: Invalid local file header"
  | passwordRequired => "unsupported Zip archive: Password required to decrypt file"
  | unsupportedMethod => "unsupported Zip archive: Compression method not supported"

/-- What lies under an error. -/
def Error.causes : Error → List Text
  | truncated => ["failed to fill whole buffer"]
  | _ => []

/-- What the directory says of an entry; `start` is the place of its local header. -/
structure Entry where
  name : Text
  encrypted : Bool
  method : Nat
  checksum : Nat
  size : Nat
  start : Nat
  deriving DecidableEq, Repr

/-- The little-endian number of `width` bytes at `i`. -/
def littleEndian? (bytes : ByteArray) (i : Nat) : (width : Nat) → Option Nat
  | 0 => some 0
  | width + 1 =>
    match bytes[i]?, littleEndian? bytes (i + 1) width with
    | some b, some n => some (b.toNat + 256 * n)
    | _, _ => none

def hasMark (bytes : ByteArray) (mark i : Nat) : Bool := littleEndian? bytes i 4 == some mark

def entryMark : Nat := 0x02014B50
def localMark : Nat := 0x04034B50
def endMark : Nat := 0x06054B50

def endSize : Nat := 22
def entrySize : Nat := 46
def localSize : Nat := 30

structure EndRecord where
  position : Nat
  disk : Nat
  directoryDisk : Nat
  /-- The number of entries on this disk, which are the ones that are read. -/
  entriesHere : Nat
  entries : Nat
  directoryStart : Nat
  deriving DecidableEq, Repr

/-- The end record at `i`. Its comment must end before the file does. -/
def endRecordAt (bytes : ByteArray) (i : Nat) : Except Error EndRecord :=
  match littleEndian? bytes (i + 4) 2, littleEndian? bytes (i + 6) 2, littleEndian? bytes (i + 8) 2,
    littleEndian? bytes (i + 10) 2, littleEndian? bytes (i + 16) 4,
    littleEndian? bytes (i + 20) 2 with
  | some disk, some directoryDisk, some entriesHere, some entries, some directoryStart,
    some comment =>
    if i + endSize + comment ≤ bytes.size then
      .ok ⟨i, disk, directoryDisk, entriesHere, entries, directoryStart⟩
    else .error .longComment
  | _, _, _, _, _, _ => .error .truncated

/-- The first entry record among the `count` places from `i` on. -/
def firstEntryRecord? (bytes : ByteArray) (i : Nat) : (count : Nat) → Option Nat
  | 0 => none
  | count + 1 =>
    if hasMark bytes entryMark i then some i else firstEntryRecord? bytes (i + 1) count

/-- How far all offsets are shifted. The directory begins where the end record says, or at the first
entry record after that. -/
def EndRecord.shift (bytes : ByteArray) (r : EndRecord) : Except Error Nat :=
  if r.entries = 0 then .ok (r.position - r.directoryStart)
  else if r.position ≤ r.directoryStart then .error .misplacedDirectory
  else match firstEntryRecord? bytes r.directoryStart (r.position - r.directoryStart) with
    | some i => .ok (i - r.directoryStart)
    | none => .error .noEntryRecord

/-- A name is taken byte by byte. -/
def nameOf (bytes : ByteArray) : Text := bytes.toList.map fun b => Char.ofNat b.toNat

/-- The entry whose directory record is at `i`, and where the next record begins. -/
def entryAt? (bytes : ByteArray) (shift i : Nat) : Option (Entry × Nat) := do
  let flags ← littleEndian? bytes (i + 8) 2
  let method ← littleEndian? bytes (i + 10) 2
  let checksum ← littleEndian? bytes (i + 16) 4
  let size ← littleEndian? bytes (i + 20) 4
  let nameSize ← littleEndian? bytes (i + 28) 2
  let extraSize ← littleEndian? bytes (i + 30) 2
  let commentSize ← littleEndian? bytes (i + 32) 2
  let start ← littleEndian? bytes (i + 42) 4
  let nameStart := i + entrySize
  let next := nameStart + nameSize + extraSize + commentSize
  guard (hasMark bytes entryMark i && next ≤ bytes.size)
  let name := nameOf (bytes.extract nameStart (nameStart + nameSize))
  pure (⟨name, flags % 2 = 1, method, checksum, size, start + shift⟩, next)

/-- Reads `count` records. A local header cannot stand behind `directory`. -/
def entriesFrom? (bytes : ByteArray) (shift directory i : Nat) : (count : Nat) → Option (List Entry)
  | 0 => some []
  | count + 1 =>
    match entryAt? bytes shift i with
    | some (entry, next) =>
      if entry.start < directory then
        (entriesFrom? bytes shift directory next count).map (entry :: ·)
      else none
    | none => none

def EndRecord.entries? (bytes : ByteArray) (shift : Nat) (r : EndRecord) : Option (List Entry) :=
  let directory := r.directoryStart + shift
  if r.disk = r.directoryDisk then entriesFrom? bytes shift directory directory r.entriesHere
  else none

/-- The entries that belong to the last usable end record before `i`. `failure` is what was noted of
the records behind it: of several that cannot be read the first counts, and one whose offset is wrong
takes its place. A record whose entries cannot be read is passed over together with that note. -/
def entriesBefore (bytes : ByteArray) (failure : Option Error) : (i : Nat) → Except Error (List Entry)
  | 0 => .error (failure.getD .noEndRecord)
  | i + 1 =>
    if hasMark bytes endMark i then
      match endRecordAt bytes i with
      | .error e => entriesBefore bytes (failure.or (some e)) i
      | .ok r =>
        match r.shift bytes with
        | .error e => entriesBefore bytes (some e) i
        | .ok shift =>
          match r.entries? bytes shift with
          | some es => .ok es
          | none => entriesBefore bytes none i
    else entriesBefore bytes failure i

/-- The entries of an archive in the order of its directory. -/
def entries (bytes : ByteArray) : Except Error (List Entry) := entriesBefore bytes none bytes.size

/-- The number of the method that deflates. -/
def deflated : Nat := 8

/-- What the file holds of an entry, as far as the file goes. -/
def Entry.stored (bytes : ByteArray) (e : Entry) : Except Error ByteArray :=
  if e.encrypted then .error .passwordRequired
  else match littleEndian? bytes (e.start + 26) 2, littleEndian? bytes (e.start + 28) 2 with
    | some nameSize, some extraSize =>
      if !hasMark bytes localMark e.start then .error .noLocalHeader
      else if e.method ≠ 0 ∧ e.method ≠ deflated then .error .unsupportedMethod
      else
        let start := e.start + localSize + nameSize + extraSize
        .ok (bytes.extract start (start + e.size))
    | _, _ => .error .truncated

/-- The content of an entry from what the file holds of it, or `none` if that is corrupt. -/
def Entry.content? (e : Entry) (stored : ByteArray) : Option ByteArray :=
  if e.method = deflated then inflate? stored else some stored

def Entry.isIntact (e : Entry) (content : ByteArray) : Bool := (crc32 content).toNat == e.checksum

end MarkdownExport.Zip
