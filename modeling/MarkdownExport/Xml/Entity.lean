import MarkdownExport.Text.Digit
import MarkdownExport.Text.Quoted

/-! Entities of XML text, and what can be wrong with them. Positions are byte offsets. -/
namespace MarkdownExport.Xml

inductive Radix where
  | decimal | hexadecimal
  deriving DecidableEq, Repr

def Radix.name : Radix → Text
  | decimal => "decimal"
  | hexadecimal => "hexadecimal"

def Radix.base : Radix → Nat
  | decimal => 10
  | hexadecimal => 16

/-- The longest numeral that can denote a code point. -/
def Radix.longest : Radix → Nat
  | decimal => 7
  | hexadecimal => 6

inductive EntityError where
  | unterminated (start stop : Nat)
  | unknown (start stop : Nat) (name : Text)
  | null (start stop : Nat)
  | tooLong (radix : Radix)
  | badDigit (radix : Radix) (shown : Char)
  | notCodePoint (code : Nat)
  deriving DecidableEq, Repr

def atRange (start stop : Nat) : Text :=
  "Error while escaping character at range " ++ decimal start ++ ".." ++ decimal stop ++ ": "

def EntityError.message : EntityError → Text
  | unterminated start stop => atRange start stop ++ "Cannot find ';' after '&'"
  | unknown start stop name =>
    atRange start stop ++ "Unrecognized escape symbol: " ++ name.displayQuoted
  | null start stop => atRange start stop ++ "Null character entity not allowed"
  | tooLong radix => "Cannot convert " ++ radix.name ++ " to utf8"
  | badDigit radix shown =>
    "'" ++ [shown] ++ "' is not a valid " ++ radix.name ++ " character"
  | notCodePoint code => "'" ++ decimal code ++ "' is not a valid codepoint"

/-- The first byte of a scalar's UTF-8 form, shown as the scalar of that number. -/
def leadingByte (c : Char) : Char := Char.ofNat ((String.utf8EncodeChar c).headD 0).toNat

def digit? (radix : Radix) (c : Char) : Option Nat :=
  if c.isDigit then some (c.toNat - 48)
  else match radix with
    | .decimal => none
    | .hexadecimal =>
      if 'a' ≤ c ∧ c ≤ 'f' then some (c.toNat - 87)
      else if 'A' ≤ c ∧ c ≤ 'F' then some (c.toNat - 55)
      else none

def number (radix : Radix) (n : Nat) : Text → Except EntityError Nat
  | [] => .ok n
  | c :: cs =>
    match digit? radix c with
    | some d => number radix (radix.base * n + d) cs
    | none => .error (.badDigit radix (leadingByte c))

/-- The scalar that a numeral denotes, for a reference at `start..stop`. -/
def codePoint (radix : Radix) (start stop : Nat) (digits : Text) : Except EntityError Char :=
  if radix.longest < digits.bytes8 then .error (.tooLong radix)
  else match number radix 0 digits with
    | .error e => .error e
    | .ok n =>
      if n = 0 then .error (.null start stop)
      else if h : n.isValidChar then .ok (Char.ofNatAux n h)
      else .error (.notCodePoint n)

def namedEntities : List (Text × Char) :=
  [("lt", '<'), ("gt", '>'), ("amp", '&'), ("apos", '\''), ("quot", '"')]

/-- The scalar for what stands between `&` at `start` and `;` at `stop`. -/
def entity (start stop : Nat) (name : Text) : Except EntityError Char :=
  match name with
  | '#' :: 'x' :: digits => codePoint .hexadecimal start stop digits
  | '#' :: digits => codePoint .decimal start stop digits
  | name =>
    match namedEntities.lookup name with
    | some c => .ok c
    | none => .error (.unknown (start + 1) stop name)

/-- Reads on from byte `offset` of a text of `total` bytes. Inside an entity, `pending` holds where
it began and its name so far, last scalar first. -/
def unescapeFrom (total offset : Nat) (pending : Option (Nat × Text)) :
    Text → Except EntityError Text
  | [] =>
    match pending with
    | none => .ok []
    | some (start, _) => .error (.unterminated start total)
  | c :: cs =>
    let next := offset + c.utf8Size
    match pending with
    | none =>
      if c = '&' then unescapeFrom total next (some (offset, [])) cs
      else (unescapeFrom total next none cs).map (c :: ·)
    | some (start, name) =>
      if c = ';' then
        match entity start offset name.reverse with
        | .ok d => (unescapeFrom total next none cs).map (d :: ·)
        | .error e => .error e
      else if c = '&' then .error (.unterminated start total)
      else unescapeFrom total next (some (start, c :: name)) cs

def unescape (raw : Text) : Except EntityError Text := unescapeFrom raw.bytes8 0 none raw

end MarkdownExport.Xml
