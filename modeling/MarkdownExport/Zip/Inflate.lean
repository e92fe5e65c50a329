/-! The compression Deflate: blocks that hold bytes as they are, or codes of up to fifteen bits for
bytes and for repetitions of what came before. -/
namespace MarkdownExport.Zip

inductive Fault where
  /-- The data ends too early. -/
  | exhausted
  | corrupt
  deriving DecidableEq, Repr

/-- The lowest bit of a byte comes first. -/
def bitAt (bytes : ByteArray) (i : Nat) : Except Fault Nat :=
  match bytes[i / 8]? with
  | some b => .ok (b.toNat / Nat.pow 2 (i % 8) % 2)
  | none => .error .exhausted

/-- The number of `width` bits at `i`, the lowest first. -/
def bitsAt (bytes : ByteArray) (i : Nat) : (width : Nat) → Except Fault Nat
  | 0 => .ok 0
  | width + 1 => do
    let low ← bitAt bytes i
    let high ← bitsAt bytes (i + 1) width
    .ok (low + 2 * high)

def longestCode : Nat := 15

/-- Codes of one length are numbers in a row, and those of the next length go on after them. -/
structure Code where
  /-- How many codes there are of each length, from 1 on. -/
  counts : List Nat
  /-- The symbols in the order of their codes. -/
  symbols : Array Nat

namespace Code

/-- The code in which the symbol `s` has as many bits as entry `s` of the list says, or none. -/
def ofLengths (lengths : List Nat) : Code :=
  let sizes := (List.range longestCode).map (· + 1)
  { counts := sizes.map fun size => lengths.count size
    symbols := (sizes.flatMap fun size =>
      (lengths.zipIdx.filter fun (length, _) => length = size).map Prod.snd).toArray }

/-- Codes must leave no sequence of bits without a meaning, unless there is one code at most. -/
def isSound (c : Code) : Bool :=
  c.symbols.size ≤ 1 || c.counts.foldl (fun room n => 2 * room - n) 1 = 0 &&
    (c.counts.foldl (fun (ok, room) n => (ok && n ≤ 2 * room, 2 * room - n)) (true, 1)).1

/-- Reads a symbol, and gives the place after it. `first` is the first code of the length of
`counts`, and `index` the place of its symbol; `code` is what has been read. -/
def symbolFrom (bytes : ByteArray) (c : Code) (i first index code : Nat) :
    (counts : List Nat) → Except Fault (Nat × Nat)
  | [] => .error .corrupt
  | count :: counts => do
    let code := code + (← bitAt bytes i)
    if code < first + count then
      match c.symbols[index + (code - first)]? with
      | some symbol => .ok (symbol, i + 1)
      | none => .error .corrupt
    else symbolFrom bytes c (i + 1) (2 * (first + count)) (index + count) (2 * code) counts

def symbolAt (bytes : ByteArray) (i : Nat) (c : Code) : Except Fault (Nat × Nat) :=
  c.symbolFrom bytes i 0 0 0 c.counts

end Code

/-- The least length of a repetition for each symbol from 257 on, and the number of bits to add. -/
def lengthTable : Array (Nat × Nat) :=
  #[(3, 0), (4, 0), (5, 0), (6, 0), (7, 0), (8, 0), (9, 0), (10, 0), (11, 1), (13, 1), (15, 1),
    (17, 1), (19, 2), (23, 2), (27, 2), (31, 2), (35, 3), (43, 3), (51, 3), (59, 3), (67, 4),
    (83, 4), (99, 4), (115, 4), (131, 5), (163, 5), (195, 5), (227, 5), (258, 0)]

/-- The least distance of a repetition for each symbol, and the number of bits to add. -/
def distanceTable : Array (Nat × Nat) :=
  #[(1, 0), (2, 0), (3, 0), (4, 0), (5, 1), (7, 1), (9, 2), (13, 2), (17, 3), (25, 3), (33, 4),
    (49, 4), (65, 5), (97, 5), (129, 6), (193, 6), (257, 7), (385, 7), (513, 8), (769, 8),
    (1025, 9), (1537, 9), (2049, 10), (3073, 10), (4097, 11), (6145, 11), (8193, 12), (12289, 12),
    (16385, 13), (24577, 13)]

/-- A number from a table, with the bits that are added to it, and the place after those. -/
def tableValue (bytes : ByteArray) (table : Array (Nat × Nat)) (symbol i : Nat) :
    Except Fault (Nat × Nat) :=
  match table[symbol]? with
  | none => .error .corrupt
  | some (least, width) => do
    let more ← bitsAt bytes i width
    .ok (least + more, i + width)

/-- Writes `count` bytes again, each from `distance` bytes back. -/
def repeatBytes (distance : Nat) : (count : Nat) → ByteArray → ByteArray
  | 0, out => out
  | count + 1, out => repeatBytes distance count (out.push (out.get! (out.size - distance)))

/-- What has been written, and the place where reading goes on. -/
structure Inflation where
  out : ByteArray
  place : Except Fault Nat

/-- Reads the symbols of a block. Each has at least one bit, so the number of bits is fuel enough. -/
def inflateSymbols (bytes : ByteArray) (literals distances : Code) :
    (fuel : Nat) → (i : Nat) → (out : ByteArray) → Inflation
  | 0, _, out => ⟨out, .error .exhausted⟩
  | fuel + 1, i, out =>
    match literals.symbolAt bytes i with
    | .error e => ⟨out, .error e⟩
    | .ok (symbol, i) =>
      if symbol < 256 then
        inflateSymbols bytes literals distances fuel i (out.push symbol.toUInt8)
      else if symbol = 256 then ⟨out, .ok i⟩
      else
        let repetition : Except Fault (Nat × Nat × Nat) := do
          let (count, i) ← tableValue bytes lengthTable (symbol - 257) i
          let (symbol, i) ← distances.symbolAt bytes i
          let (distance, i) ← tableValue bytes distanceTable symbol i
          if distance ≤ out.size then .ok (count, distance, i) else .error .corrupt
        match repetition with
        | .error e => ⟨out, .error e⟩
        | .ok (count, distance, i) =>
          inflateSymbols bytes literals distances fuel i (repeatBytes distance count out)

def fixedLiterals : Code :=
  .ofLengths (List.replicate 144 8 ++ List.replicate 112 9 ++ List.replicate 24 7 ++
    List.replicate 8 8)

def fixedDistances : Code := .ofLengths (List.replicate 32 5)

/-- The order in which the lengths of the codes for lengths are given. -/
def lengthOrder : List Nat := [16, 17, 18, 0, 8, 7, 9, 6, 10, 5, 11, 4, 12, 3, 13, 2, 14, 1, 15]

/-- Reads lengths until there are `count`, which are given the last one first. Each step takes a bit
at least and writes a length at least. -/
def lengthsFrom (bytes : ByteArray) (c : Code) (count : Nat) :
    (fuel : Nat) → (i : Nat) → (lengths : List Nat) → Except Fault (List Nat × Nat)
  | 0, _, _ => .error .corrupt
  | fuel + 1, i, lengths => do
    if count < lengths.length then .error .corrupt
    else if count = lengths.length then .ok (lengths, i)
    else
      let (symbol, i) ← c.symbolAt bytes i
      if symbol < 16 then lengthsFrom bytes c count fuel i (symbol :: lengths)
      else if symbol = 16 then
        match lengths with
        | [] => .error .corrupt
        | last :: _ =>
          let more ← bitsAt bytes i 2
          lengthsFrom bytes c count fuel (i + 2) (List.replicate (3 + more) last ++ lengths)
      else if symbol = 17 then
        let more ← bitsAt bytes i 3
        lengthsFrom bytes c count fuel (i + 3) (List.replicate (3 + more) 0 ++ lengths)
      else
        let more ← bitsAt bytes i 7
        lengthsFrom bytes c count fuel (i + 7) (List.replicate (11 + more) 0 ++ lengths)

/-- The codes that a block gives for itself, and the place after them. -/
def codesAt (bytes : ByteArray) (i : Nat) : Except Fault (Code × Code × Nat) := do
  let literalCount := 257 + (← bitsAt bytes i 5)
  let distanceCount := 1 + (← bitsAt bytes (i + 5) 5)
  let lengthCount := 4 + (← bitsAt bytes (i + 10) 4)
  let given ← (List.range lengthCount).mapM fun k => bitsAt bytes (i + 14 + 3 * k) 3
  let known := lengthOrder.zip given
  let lengthCode := Code.ofLengths ((List.range 19).map fun s => (known.lookup s).getD 0)
  let count := literalCount + distanceCount
  let (lengths, i) ← lengthsFrom bytes lengthCode count (count + 1) (i + 14 + 3 * lengthCount) []
  let lengths := lengths.reverse
  let literals := Code.ofLengths (lengths.take literalCount)
  let distances := Code.ofLengths (lengths.drop literalCount)
  if literalCount ≤ 286 ∧ distanceCount ≤ 30 ∧ lengthCode.isSound ∧ literals.isSound ∧
      distances.isSound then
    .ok (literals, distances, i)
  else .error .corrupt

/-- Copies bytes, which begin at the next whole byte. -/
def inflateStored (bytes : ByteArray) (i : Nat) (out : ByteArray) : Inflation :=
  let start := (i + 7) / 8
  match bitsAt bytes (8 * start) 16, bitsAt bytes (8 * start + 16) 16 with
  | .ok size, .ok complement =>
    if size + complement ≠ 65535 then ⟨out, .error .corrupt⟩
    else
      let stop := start + 4 + size
      ⟨out ++ bytes.extract (start + 4) stop,
        if stop ≤ bytes.size then .ok (8 * stop) else .error .exhausted⟩
  | _, _ => ⟨out, .error .exhausted⟩

/-- Reads one block from behind its first bit. -/
def inflateBlock (bytes : ByteArray) (i : Nat) (out : ByteArray) : Inflation :=
  let fuel := 8 * bytes.size
  match bitsAt bytes i 2 with
  | .error e => ⟨out, .error e⟩
  | .ok 0 => inflateStored bytes (i + 2) out
  | .ok 1 => inflateSymbols bytes fixedLiterals fixedDistances fuel (i + 2) out
  | .ok 2 =>
    match codesAt bytes (i + 2) with
    | .error e => ⟨out, .error e⟩
    | .ok (literals, distances, i) => inflateSymbols bytes literals distances fuel i out
  | .ok _ => ⟨out, .error .corrupt⟩

/-- Reads blocks up to the one that is marked as the last. -/
def inflateBlocks (bytes : ByteArray) : (fuel : Nat) → (i : Nat) → (out : ByteArray) → Inflation
  | 0, _, out => ⟨out, .error .exhausted⟩
  | fuel + 1, i, out =>
    match bitAt bytes i with
    | .error e => ⟨out, .error e⟩
    | .ok last =>
      match inflateBlock bytes (i + 1) out with
      | ⟨out, .error e⟩ => ⟨out, .error e⟩
      | ⟨out, .ok i⟩ => if last = 1 then ⟨out, .ok i⟩ else inflateBlocks bytes fuel i out

/-- What compressed data stands for, as far as it goes; corrupt data stands for nothing. -/
def inflate? (bytes : ByteArray) : Option ByteArray :=
  match inflateBlocks bytes (8 * bytes.size) 0 .empty with
  | ⟨_, .error .corrupt⟩ => none
  | ⟨out, _⟩ => some out

end MarkdownExport.Zip
