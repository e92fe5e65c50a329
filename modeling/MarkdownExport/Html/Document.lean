import MarkdownExport.Html.Foreign

/-! HTML documents: from text to a tree. -/
namespace MarkdownExport.Html
namespace Builder

/-- A token that is looked at again is in a later mode or inside fewer elements. -/
def readFuel (token : Token) : (fuel : Nat) → Builder → Builder
  | 0, b => b
  | fuel + 1, b =>
    match if b.isForeign token then b.readForeign token else readIn b.mode token b with
    | .done b => b
    | .again b => readFuel token fuel b

def read (token : Token) (b : Builder) : Builder := readFuel token (2 * b.stack.length + 32) b

/-- Whether white space is told apart from the text around it. -/
def splitsText (mode : Mode) : Bool :=
  mode ∈ ([.initial, .beforeHtml, .beforeHead, .inHead, .afterHead, .inColumnGroup, .afterBody,
    .inFrameset, .afterFrameset, .afterAfterBody, .afterAfterFrameset] : List Mode)

/-- Splits after the white space at the start, or after what comes before the next white space. -/
def splitRun (t : Text) : Text × Text :=
  match t.span isSpace with
  | ([], _) => t.span fun c => !isSpace c
  | pieces => pieces

/-- Reads a text, in pieces where that matters; its length is fuel enough. -/
def readText : (fuel : Nat) → Text → Builder → Builder
  | 0, _, b => b
  | fuel + 1, t, b =>
    if t.isEmpty then b
    else if splitsText b.mode && !b.isForeign (.text t) then
      let (run, rest) := splitRun t
      readText fuel rest (b.read (.text run))
    else b.read (.text t)

def readToken (token : Token) (b : Builder) : Builder :=
  let dropsNewline := b.dropsNewline
  let b := { b with dropsNewline := false }
  match token with
  | .text t =>
    let t := if dropsNewline then (Text.dropStart? ['\n'] t).getD t else t
    readText t.length t b
  /- After the start of a document a doctype says nothing. -/
  | .doctype _ => if b.mode = .initial then b.read token else b
  | token => b.read token

/-- A newline at the start of the next text is kept if there is a fault before it. -/
def noticeFault (isFaulty : Bool) (b : Builder) : Builder :=
  { b with dropsNewline := b.dropsNewline && !isFaulty }

/-- Reads a text to its end. Of two steps in a row at least one takes a scalar or more, so twice the
length of the text is fuel enough, and what is left of it is enough for a token. -/
def readAll : (fuel : Nat) → Text → Builder → Builder
  | 0, _, b => b.readToken .finish
  | fuel + 1, t, b =>
    let b := b.noticeFault (lacksSemicolon t)
    match b.raw with
    | some (kind, tag) =>
      let (content, rest) := readRaw kind tag t
      readAll fuel rest ({ b with raw := none }.readToken (.text content))
    | none =>
      if t.isEmpty then b.readToken .finish
      else match Html.readToken fuel b.inForeign t with
        | (some token, rest) => readAll fuel rest (b.readToken token)
        | (none, rest) => readAll fuel rest (b.noticeFault true)

end Builder

/-- The tree of an HTML text. There is one for every text. -/
def parse (html : Text) : List Node :=
  let html := clean html
  (Builder.readAll (2 * html.length + 2) html {}).draft.toNodes

end MarkdownExport.Html
