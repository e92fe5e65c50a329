import MarkdownExport.Proofs.Word.Encoding
import MarkdownExport.Tree.Basic
import MarkdownExport.Word.Block
import MarkdownExport.Word.Link

/-! The grammar of snapshots. Every rule gives a text together with the nodes that it denotes, so a
derivation shows that a text is balanced and escaped and also how it is to be read. -/
namespace MarkdownExport.Word

/-- What may stand in the links of a snapshot, and whether it may hold images. -/
structure Vocabulary where
  link : Text → Prop
  image : Prop

/-- Links to anything, and images. -/
def Vocabulary.full : Vocabulary := ⟨fun _ => True, True⟩

/-- No images, and links to sanitized targets only. -/
def Vocabulary.sanitized : Vocabulary :=
  ⟨fun v => ∃ given target, sanitizeTarget given = some target ∧ v = escapeValue target, False⟩

def Profile.vocabulary : Profile → Vocabulary
  | faithful => .full
  | strict => .sanitized

inductive Mark where
  | strong | emphasis | deleted | superscript
  deriving DecidableEq, Repr

def Mark.tag : Mark → Text
  | strong => "strong"
  | emphasis => "em"
  | deleted => "del"
  | superscript => "sup"

def linkTag (v : Text) : Text := "<a href=\"" ++ v ++ "\">"

def imageTag (source : Text) (description : Option Text) : Text :=
  let alt : Text := match description with
    | some d => " alt=\"" ++ d ++ "\""
    | none => []
  "<img src=\"" ++ source ++ "\"" ++ alt ++ "/>"

def imageAttributes (source : Text) (description : Option Text) : List Attribute :=
  ⟨"src", Html.decode true source⟩ ::
    (description.map fun d => ⟨"alt", Html.decode true d⟩).toList

/-- The text of a table whose cells come with their nodes. -/
def tableTag (rows : List (List (Text × List Node))) : Text :=
  enclose "table" (rows.flatMap fun row => enclose "tr" (row.flatMap fun c => enclose "td" c.1))

def tableNodes (rows : List (List (Text × List Node))) : List Node :=
  rows.map fun row => .element "tr" [] (row.map fun c => .element "td" [] c.2)

def noteNumber (k : Nat) : Text := "[" ++ decimal k ++ "] "

variable (V : Vocabulary)

/-- Inline HTML: text, line breaks, images, and marks and links around more of it. -/
inductive InlineHtml : Text → List Node → Prop
  | nil : InlineHtml [] []
  | append {s t : Text} {ms ns : List Node} :
      InlineHtml s ms → InlineHtml t ns → InlineHtml (s ++ t) (ms ++ ns)
  | text {t : Text} : IsText t → InlineHtml t [.text (Html.decode false t)]
  | lineBreak : InlineHtml "<br/>" [.element "br" [] []]
  | image {source : Text} {description : Option Text} :
      V.image → IsValue source → (∀ d ∈ description, IsValue d) →
      InlineHtml (imageTag source description)
        [.element "img" (imageAttributes source description) []]
  | marked (mark : Mark) {t : Text} {ns : List Node} :
      InlineHtml t ns → InlineHtml (enclose mark.tag t) [.element mark.tag [] ns]
  | link {v t : Text} {ns : List Node} :
      IsValue v → V.link v → InlineHtml t ns →
      InlineHtml (linkTag v ++ t ++ closeTag "a") [.element "a" [⟨"href", Html.decode true v⟩] ns]

/-- The content of cells and footnotes: inline HTML and tables. The rows of a table are its
children or those of a body, whose tags are not written. -/
inductive FlowHtml : Text → List Node → Prop
  | nil : FlowHtml [] []
  | append {s t : Text} {ms ns : List Node} :
      FlowHtml s ms → FlowHtml t ns → FlowHtml (s ++ t) (ms ++ ns)
  | inline {t : Text} {ns : List Node} : InlineHtml V t ns → FlowHtml t ns
  | table {rows : List (List (Text × List Node))} {children : List Node} :
      (∀ row ∈ rows, ∀ c ∈ row, FlowHtml c.1 c.2) →
      children = tableNodes rows ∨ children = [.element "tbody" [] (tableNodes rows)] →
      FlowHtml (tableTag rows) [.element "table" [] children]

/-- The items of a list, each around inline HTML. -/
inductive ItemsHtml : Text → List Node → Prop
  | nil : ItemsHtml [] []
  | cons {s t : Text} {ms ns : List Node} :
      InlineHtml V s ms → ItemsHtml t ns →
      ItemsHtml (enclose "li" s ++ t) (.element "li" [] ms :: ns)

inductive BlockHtml : Text → Node → Prop
  | paragraph {t : Text} {ns : List Node} :
      InlineHtml V t ns → BlockHtml (enclose "p" t) (.element "p" [] ns)
  | heading {level : Nat} {t : Text} {ns : List Node} :
      1 ≤ level → level ≤ 3 → InlineHtml V t ns →
      BlockHtml (enclose ('h' :: decimal level) t) (.element ('h' :: decimal level) [] ns)
  | list (ordered : Bool) {t : Text} {ns : List Node} :
      ItemsHtml V t ns → ns ≠ [] →
      BlockHtml (enclose (listTag ordered) t) (.element (listTag ordered) [] ns)
  | table {rows : List (List (Text × List Node))} {children : List Node} :
      (∀ row ∈ rows, ∀ c ∈ row, FlowHtml V c.1 c.2) →
      children = tableNodes rows ∨ children = [.element "tbody" [] (tableNodes rows)] →
      BlockHtml (tableTag rows) (.element "table" [] children)

inductive BlocksHtml : Text → List Node → Prop
  | nil : BlocksHtml [] []
  | cons {s t : Text} {n : Node} {ns : List Node} :
      BlockHtml V s n → BlocksHtml t ns → BlocksHtml (s ++ t) (n :: ns)

/-- Footnotes, of which the first has the number `k`. A footnote's number is text before its
content and may be one text with it. -/
inductive NotesHtml : (k : Nat) → Text → List Node → Prop
  | nil {k : Nat} : NotesHtml k [] []
  | cons {k : Nat} {id content t : Text} {ms ns : List Node} :
      IsValue id → (∃ cs, FlowHtml V content cs) →
      FlowHtml V (noteNumber k ++ content) ms → NotesHtml (k + 1) t ns →
      NotesHtml k
        ("<li data-word-footnote-id=\"" ++ id ++ "\">" ++ noteNumber k ++ content ++
          closeTag "li" ++ t)
        (.element "li" [⟨"data-word-footnote-id", Html.decode true id⟩] ms :: ns)

inductive SectionHtml : Text → List Node → Prop
  | none : SectionHtml [] []
  | notes {t : Text} {ns : List Node} :
      NotesHtml V 1 t ns → ns ≠ [] →
      SectionHtml
        ("<section data-word-footnotes=\"true\">" ++ enclose "ol" t ++ closeTag "section")
        [.element "section" [⟨"data-word-footnotes", "true"⟩] [.element "ol" [] ns]]

/-- A whole snapshot: blocks, and then a section of footnotes if there are any. -/
inductive PageHtml : Text → List Node → Prop
  | mk {s t : Text} {ms ns : List Node} :
      BlocksHtml V s ms → SectionHtml V t ns → PageHtml (s ++ t) (ms ++ ns)

/-- The text is inline HTML. -/
def IsInline (t : Text) : Prop := ∃ ns, InlineHtml V t ns

/-- The text is inline HTML and tables. -/
def IsFlow (t : Text) : Prop := ∃ ns, FlowHtml V t ns

end MarkdownExport.Word
