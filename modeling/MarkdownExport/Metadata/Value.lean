import MarkdownExport.Dictionary
import MarkdownExport.Decimal.Shortest
import MarkdownExport.Text.Quoted

/-! Metadata: values, records in the order of insertion, and their compact and displayed texts. -/
namespace MarkdownExport

inductive Value where
  | null
  | bool (b : Bool)
  | integer (z : Int)
  | float (x : Binary64)
  | text (t : Text)
  | list (items : List Value)
  | object (fields : List (Text × Value))
  deriving Inhabited

abbrev Record := Dictionary Value

namespace Value

def isNull : Value → Bool
  | null => true
  | _ => false

def ofNat (n : Nat) : Value := integer n

mutual

/-- Compact JSON. -/
def toJson : Value → Text
  | null => "null"
  | bool b => Text.ofBool b
  | integer z => signedDecimal z
  | float x => x.toText
  | text t => t.jsonQuoted
  | list items => "[" ++ jsonItems items ++ "]"
  | object fields => "\x7b" ++ jsonFields fields ++ "\x7d"

def jsonItems : List Value → Text
  | [] => []
  | [v] => toJson v
  | v :: w :: vs => toJson v ++ "," ++ jsonItems (w :: vs)

def jsonFields : List (Text × Value) → Text
  | [] => []
  | [(k, v)] => k.jsonQuoted ++ ":" ++ toJson v
  | (k, v) :: f :: fs => k.jsonQuoted ++ ":" ++ toJson v ++ "," ++ jsonFields (f :: fs)

end

mutual

/-- The text of a value among displayed options, which names its kind. -/
def display : Value → Text
  | null => "Null"
  | bool b => "Bool(" ++ Text.ofBool b ++ ")"
  | integer z => "Number(" ++ signedDecimal z ++ ")"
  | float x => "Number(" ++ x.toText ++ ")"
  | text t => "String(" ++ t.displayQuoted ++ ")"
  | list items => "Array [" ++ displayItems items ++ "]"
  | object fields => "Object \x7b" ++ displayFields fields ++ "\x7d"

def displayItems : List Value → Text
  | [] => []
  | [v] => display v
  | v :: w :: vs => display v ++ ", " ++ displayItems (w :: vs)

def displayFields : List (Text × Value) → Text
  | [] => []
  | [(k, v)] => k.displayQuoted ++ ": " ++ display v
  | (k, v) :: f :: fs => k.displayQuoted ++ ": " ++ display v ++ ", " ++ displayFields (f :: fs)

end

end Value
end MarkdownExport
