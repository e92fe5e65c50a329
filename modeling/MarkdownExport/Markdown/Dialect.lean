import MarkdownExport.Text.Blank

/-! The two Markdown dialects and their names. -/
namespace MarkdownExport

inductive Dialect where
  | standard | gfm
  deriving DecidableEq, Repr, Inhabited

namespace Dialect

def name : Dialect → Text
  | standard => "standard"
  | gfm => "gfm"

/-- Reads a dialect's name, with blanks around it and in any case of letters. -/
def ofName? (given : Text) : Option Dialect :=
  let key := given.trim.lower
  if key = gfm.name then some gfm
  else if key = standard.name then some standard
  else none

/-- What is said about a name that `ofName?` does not read. -/
def unknownMessage (given : Text) : Text :=
  "unknown markdown format \x60" ++ given ++ "\x60 (expected \x60gfm\x60 or \x60standard\x60)"

end Dialect
end MarkdownExport
