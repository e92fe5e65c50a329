import MarkdownExport.Dictionary
import MarkdownExport.Markdown.Dialect
import MarkdownExport.Markdown.Escape
import MarkdownExport.Tree.Query

/-! Inline Markdown: emphasis, links, images and code inside one line of text. -/
namespace MarkdownExport.Markdown

/-- What an element means inside a line. -/
inductive Phrase where
  | strong | emphasis | code | link | image | strikethrough | superscript | plain
  deriving DecidableEq, Repr

def Phrase.tags : Dictionary Phrase :=
  [("strong", strong), ("b", strong), ("em", emphasis), ("i", emphasis), ("code", code),
   ("a", link), ("img", image), ("s", strikethrough), ("strike", strikethrough),
   ("del", strikethrough), ("sup", superscript)]

/-- The phrase of a lower-case tag; tags that mean nothing in a line are plain. -/
def Phrase.ofTag (tag : Text) : Phrase := (tags.find? tag).getD plain

def image (attributes : List Attribute) : Text :=
  let source := (Attribute.find? "src" attributes).getD []
  let description := (Attribute.find? "alt" attributes).getD "image"
  "![" ++ description ++ "](" ++ source ++ ")"

def link (attributes : List Attribute) (label : Text) : Text :=
  "[" ++ label ++ "](" ++ (Attribute.find? "href" attributes).getD [] ++ ")"

/-- `children` are the element's children and `inner` is their inline Markdown. A code span keeps
its text unescaped, and so does a link that would otherwise have no label. -/
def Phrase.render (dialect : Dialect) (attributes : List Attribute) (children : List Node)
    (inner : Text) : Phrase → Text
  | strong => "**" ++ inner ++ "**"
  | emphasis => "*" ++ inner ++ "*"
  | code => "\x60" ++ Node.textOf children ++ "\x60"
  | link => Markdown.link attributes (if inner.isEmpty then Node.textOf children else inner)
  | image => Markdown.image attributes
  | strikethrough =>
    match dialect with
    | .gfm => "~~" ++ inner ++ "~~"
    | .standard => inner
  | superscript => "^" ++ inner
  | plain => inner

mutual

def inlineNode (dialect : Dialect) (skip : Node.Path) : Node → Text
  | .text content => escape content
  | .element tag attributes children =>
    (Phrase.ofTag tag.lower).render dialect attributes children
      (inlineWithout dialect skip children)
  | _ => []

/-- The inline Markdown of a list of nodes without the one at `skip`; the empty path skips none. -/
def inlineWithout (dialect : Dialect) : Node.Path → List Node → Text
  | _, [] => []
  | [], n :: ns => inlineNode dialect [] n ++ inlineWithout dialect [] ns
  | [0], _ :: ns => inlineWithout dialect [] ns
  | 0 :: i :: path, n :: ns => inlineNode dialect (i :: path) n ++ inlineWithout dialect [] ns
  | (i + 1) :: path, n :: ns => inlineNode dialect [] n ++ inlineWithout dialect (i :: path) ns

end

def inlineAll (dialect : Dialect) (ns : List Node) : Text := inlineWithout dialect [] ns

@[simp] theorem inlineAll_nil (dialect : Dialect) : inlineAll dialect [] = [] := by
  simp [inlineAll, inlineWithout]

theorem inlineAll_cons (dialect : Dialect) (n : Node) (ns : List Node) :
    inlineAll dialect (n :: ns) = inlineNode dialect [] n ++ inlineAll dialect ns := by
  simp [inlineAll, inlineWithout]

theorem inlineAll_append (dialect : Dialect) (ms ns : List Node) :
    inlineAll dialect (ms ++ ns) = inlineAll dialect ms ++ inlineAll dialect ns := by
  induction ms with
  | nil => simp
  | cons m ms ih => simp [inlineAll_cons, ih]

end MarkdownExport.Markdown
