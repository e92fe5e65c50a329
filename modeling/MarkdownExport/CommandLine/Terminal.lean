import MarkdownExport.Text.Basic

/-! Text for a terminal, and what is left of it where control sequences mean nothing. -/
namespace MarkdownExport.CommandLine

/-- Emphasis for a terminal: yellow, and then as before. -/
def emphasized (t : Text) : Text := "\x1b[33m" ++ t ++ "\x1b[0m"

/-- What a scalar may belong to. A device control has a head, of which the parts are told apart, and
then a string. -/
inductive Sequence where
  | ground | escape | escapeMore | command
  | deviceStart | deviceParameter | deviceMore
  | string | systemString
  deriving DecidableEq, Repr

def isGraphic (c : Char) : Bool := 0x20 ≤ c.toNat && c.toNat != 0x7F

def isLayout (c : Char) : Bool := c == '\t' || c == '\n' || c == '\x0c' || c == '\r'

/-- The byte that ends a string may be a part of a scalar's UTF-8 form. -/
def hasTerminator (c : Char) : Bool := (String.utf8EncodeChar c).contains 0x9C

namespace Sequence

/-- Whether the scalar is seen. -/
def shows (s : Sequence) (c : Char) : Bool :=
  match s with
  | ground => isGraphic c || isLayout c
  | escape | escapeMore | command => isLayout c
  | _ => false

/-- What the scalar after `c` belongs to. -/
def next (s : Sequence) (c : Char) : Sequence :=
  let n := c.toNat
  if n = 0x18 ∨ n = 0x1A then ground
  else if n = 0x1B then escape
  else match s with
    | ground => ground
    | escape =>
      if c = '[' then command
      else if c = ']' then systemString
      else if c = 'P' then deviceStart
      else if c = 'X' ∨ c = '^' ∨ c = '_' then string
      else if 0x20 ≤ n ∧ n < 0x30 then escapeMore
      else if 0x30 ≤ n ∧ n < 0x7F then ground
      else escape
    | escapeMore => if 0x30 ≤ n ∧ n < 0x7F then ground else escapeMore
    | command => if 0x40 ≤ n ∧ n < 0x7F then ground else command
    | deviceStart =>
      if 0x20 ≤ n ∧ n < 0x30 then deviceMore
      else if 0x30 ≤ n ∧ n < 0x40 then deviceParameter
      else if 0x40 ≤ n ∧ n < 0x7F then string
      else deviceStart
    | deviceParameter =>
      if 0x20 ≤ n ∧ n < 0x30 then deviceMore
      else if 0x3C ≤ n ∧ n < 0x7F then string
      else deviceParameter
    | deviceMore => if 0x30 ≤ n ∧ n < 0x7F then string else deviceMore
    | string => if hasTerminator c then ground else string
    | systemString => if n = 0x07 then ground else systemString

end Sequence

/-- Reads on inside `s`. Layout inside a sequence begins a run of plain text, and a control after the
run goes on with the sequence; a scalar beyond ASCII in the run ends it. -/
def plainFrom (inRun : Bool) (s : Sequence) : Text → Text
  | [] => []
  | c :: cs =>
    if s.shows c || (inRun && (isGraphic c || isLayout c)) then
      c :: plainFrom true (if c.toNat < 0x80 then s else .ground) cs
    else plainFrom false (s.next c) cs

/-- What is seen of a text. -/
def plain (t : Text) : Text := plainFrom false .ground t

example : plain "a\x1b[31mb\x1b]0;t\x07c\x7fd" = "abcd".toList := by decide

end MarkdownExport.CommandLine
