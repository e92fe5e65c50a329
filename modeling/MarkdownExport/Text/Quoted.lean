import MarkdownExport.Text.Hidden

/-! Three ways to put a text between double quotes. -/
namespace MarkdownExport.Text

def quoteWith (escape : Char → Text) (t : Text) : Text :=
  ['"'] ++ t.flatMap escape ++ ['"']

/-- The quotes of a frontmatter block: only the quote itself is escaped. -/
def quoted (t : Text) : Text := quoteWith (fun c => if c = '"' then ['\\', '"'] else [c]) t

def hexDigit (n : Nat) : Char := Nat.digitChar n

def jsonEscape (c : Char) : Text :=
  match c with
  | '"' => ['\\', '"']
  | '\\' => ['\\', '\\']
  | '\x08' => ['\\', 'b']
  | '\x0c' => ['\\', 'f']
  | '\n' => ['\\', 'n']
  | '\r' => ['\\', 'r']
  | '\t' => ['\\', 't']
  | c =>
    if c.toNat < 0x20 then
      "\\u00" ++ [hexDigit (c.toNat / 16), hexDigit (c.toNat % 16)]
    else [c]

/-- The quotes of compact JSON. -/
def jsonQuoted (t : Text) : Text := quoteWith jsonEscape t

def displayEscape (c : Char) : Text :=
  match c with
  | '"' => ['\\', '"']
  | '\\' => ['\\', '\\']
  | '\n' => ['\\', 'n']
  | '\r' => ['\\', 'r']
  | '\t' => ['\\', 't']
  | '\x00' => ['\\', '0']
  | c =>
    if isHidden c then
      "\\u\x7b" ++ Nat.toDigits 16 c.toNat ++ "\x7d"
    else [c]

/-- The quotes of messages and of displayed options: what cannot be seen is escaped. -/
def displayQuoted (t : Text) : Text := quoteWith displayEscape t

end MarkdownExport.Text
