import Mathlib.Data.List.Basic
import MarkdownExport.Html.Document
import MarkdownExport.Proofs.Text.Basic
import MarkdownExport.Proofs.Word.Encoding
import MarkdownExport.Text.Blank

/-! Reading paragraphs of plain text: the body of the tree has one paragraph for each, with its text
as it was before it was escaped. -/
namespace MarkdownExport.Html
open Word (enclose escapeText)

/-- A text that is not blank and of which HTML keeps every scalar. -/
structure IsPlain (t : Text) : Prop where
  notBlank : t.allBlank = false
  noNull : '\x00' ∉ t
  noReturn : '\r' ∉ t

theorem IsPlain.exists_cons {t : Text} (h : IsPlain t) : ∃ c s, t = c :: s := by
  cases t with
  | nil => exact absurd h.notBlank (by decide)
  | cons c s => exact ⟨c, s, rfl⟩

def paragraphs (ts : List Text) : Text := ts.flatMap fun t => enclose "p" (escapeText t)

theorem paragraphs_cons (t : Text) (ts : List Text) :
    paragraphs (t :: ts) = "<p>" ++ (escapeText t ++ ("</p>" ++ paragraphs ts)) := by
  show (("<p>" : Text) ++ escapeText t ++ ("</p>" : Text)) ++ paragraphs ts = _
  rw [List.append_assoc, List.append_assoc]

/-! Tokens. -/

theorem readToken_startParagraph (fuel : Nat) (rest : Text) :
    readToken (fuel + 1) false ("<p>" ++ rest) = (some (.startTag { name := "p" }), rest) := rfl

theorem readToken_endParagraph (fuel : Nat) (rest : Text) :
    readToken (fuel + 1) false ("</p>" ++ rest) = (some (.endTag "p"), rest) := rfl

/-- Text goes on up to the next tag. -/
theorem readToken_text (fuel : Nat) {c : Char} {t : Text} (h : '<' ∉ c :: t) (rest : Text) :
    readToken fuel false (c :: t ++ '<' :: rest) =
      (some (.text (decode false (c :: t))), '<' :: rest) := by
  have hc : c ≠ '<' := fun hc => h (hc ▸ List.mem_cons_self)
  have hspan := Text.span_of_notMem h rest
  unfold readToken
  split
  -- in all other cases the text begins with a bracket
  case h_7 => rw [hspan]
  all_goals
    rename_i heq
    exact absurd (List.cons.inj heq).1 hc

/-! The tree under construction. -/

namespace Draft

/-- Makes a node at the end of another one. -/
def appendNew (content : Content) (parent : Nat) (d : Draft) : Draft :=
  (d.add content).append parent d.size

theorem size_appendNew (content : Content) (parent : Nat) (d : Draft) :
    (d.appendNew content parent).size = d.size + 1 := by
  simp [appendNew, append, modify, add, size]

theorem getElem?_appendNew (content : Content) {parent : Nat} {d : Draft} (h : parent < d.size)
    (i : Nat) :
    (d.appendNew content parent).entries[i]? =
      if i = d.size then some { content, parent := some parent }
      else if i = parent then
        d.entries[i]?.map fun e => { e with children := e.children.push d.size }
      else d.entries[i]? := by
  unfold size at h ⊢
  simp only [appendNew, append, modify, add, size, Array.getElem?_modify, Array.getElem?_push]
  by_cases hnew : i = d.entries.size
  · have hparent : parent ≠ i := by omega
    rw [if_pos hnew, if_pos hnew, if_neg hparent, if_pos hnew.symm]
    rfl
  · rw [if_neg hnew, if_neg hnew, if_neg (Ne.symm hnew)]
    by_cases hparent : i = parent
    · rw [if_pos hparent, if_pos hparent.symm]
    · rw [if_neg hparent, if_neg (Ne.symm hparent)]

/-- Puts a paragraph with its text at the end of the body. -/
def addParagraph (t : Text) (d : Draft) : Draft :=
  ((d.addElement .html "p" []).insert (.under 3) d.size).insertText (.under d.size) t

theorem addParagraph_eq (t : Text) {d : Draft} (h : 3 < d.size) :
    d.addParagraph t = (d.appendNew (.element "p" []) 3).appendNew (.text [t]) d.size := by
  have hbefore : nodeBefore? (.under d.size) (d.appendNew (.element "p" []) 3) = none := by
    rw [nodeBefore?, childrenOf, getElem?_appendNew _ h, if_pos rfl]
    rfl
  show insertText (.under d.size) t (d.appendNew (.element "p" []) 3) = _
  rw [insertText, hbefore]
  rfl

theorem getElem?_addParagraph (t : Text) {d : Draft} (h : 3 < d.size) (i : Nat) :
    (d.addParagraph t).entries[i]? =
      if i = d.size + 1 then some { content := .text [t], parent := some d.size }
      else if i = d.size then
        some { content := .element "p" [], parent := some 3, children := #[d.size + 1] }
      else if i = 3 then
        d.entries[i]?.map fun e => { e with children := e.children.push d.size }
      else d.entries[i]? := by
  have hlast : d.size < (d.appendNew (.element "p" []) 3).size := by
    rw [size_appendNew]
    omega
  rw [addParagraph_eq t h, getElem?_appendNew _ hlast, getElem?_appendNew _ h, size_appendNew]
  by_cases hi : i = d.size
  · simp [hi]
  · simp [hi]

/-- The tree of a document that has nothing but these paragraphs: its node, those of the root, the
head and the body, and then each paragraph and its text. -/
structure IsPage (d : Draft) (ts : List Text) : Prop where
  size : d.size = 2 * ts.length + 4
  document : d.entries[0]? = some { content := .fragment, children := #[1] }
  root : d.entries[1]? =
    some { content := .element "html" [], parent := some 0, children := #[2, 3] }
  head : d.entries[2]? = some { content := .element "head" [], parent := some 1 }
  body : d.entries[3]? = some
    { content := .element "body" [], parent := some 1,
      children := (Array.range ts.length).map fun i => 2 * i + 4 }
  paragraph (i : Nat) : d.entries[2 * i + 4]? = ts[i]?.map fun _ =>
    { content := .element "p" [], parent := some 3, children := #[2 * i + 5] }
  text (i : Nat) : d.entries[2 * i + 5]? = ts[i]?.map fun t =>
    { content := .text [t], parent := some (2 * i + 4) }

/-- The tree before the first paragraph. -/
def emptyPage : Draft where
  entries := #[{ content := .fragment, children := #[1] },
    { content := .element "html" [], parent := some 0, children := #[2, 3] },
    { content := .element "head" [], parent := some 1 },
    { content := .element "body" [], parent := some 1 }]

theorem isPage_emptyPage : emptyPage.IsPage [] where
  size := rfl
  document := rfl
  root := rfl
  head := rfl
  body := by simp [emptyPage]
  paragraph i := by
    have hsize : emptyPage.entries.size = 4 := rfl
    exact Array.getElem?_eq_none (by omega)
  text i := by
    have hsize : emptyPage.entries.size = 4 := rfl
    exact Array.getElem?_eq_none (by omega)

theorem IsPage.addParagraph {d : Draft} {ts : List Text} (h : d.IsPage ts) (t : Text) :
    (d.addParagraph t).IsPage (ts ++ [t]) := by
  have hsize := h.size
  have hbody : 3 < d.size := by omega
  have hlength : (ts ++ [t]).length = ts.length + 1 := List.length_append
  have hentries := getElem?_addParagraph t hbody
  have hframe (i : Nat) (h3 : i ≠ 3) (hparagraph : i ≠ d.size) (htext : i ≠ d.size + 1) :
      (d.addParagraph t).entries[i]? = d.entries[i]? := by
    rw [hentries, if_neg htext, if_neg hparagraph, if_neg h3]
  have hold (i : Nat) (hi : i ≠ ts.length) : (ts ++ [t])[i]? = ts[i]? := by
    rcases Nat.lt_or_gt_of_ne hi with hi | hi
    · exact List.getElem?_append_left hi
    · rw [List.getElem?_eq_none (by omega), List.getElem?_eq_none (by omega)]
  exact
    { size := by
        rw [addParagraph_eq t hbody, size_appendNew, size_appendNew]
        omega
      document := (hframe 0 (by omega) (by omega) (by omega)).trans h.document
      root := (hframe 1 (by omega) (by omega) (by omega)).trans h.root
      head := (hframe 2 (by omega) (by omega) (by omega)).trans h.head
      body := by
        rw [hentries, if_neg (by omega), if_neg (by omega), if_pos rfl, h.body, hlength, hsize]
        simp [Array.range_succ]
      paragraph := by
        intro i
        by_cases hi : i = ts.length
        · rw [hi, hentries, hsize, if_neg (by omega), if_pos rfl, List.getElem?_concat_length]
          rfl
        · rw [hframe _ (by omega) (by omega) (by omega), h.paragraph, hold i hi]
      text := by
        intro i
        by_cases hi : i = ts.length
        · rw [hi, hentries, hsize, if_pos rfl, List.getElem?_concat_length]
          rfl
        · rw [hframe _ (by omega) (by omega) (by omega), h.text, hold i hi] }

theorem nodesAt_succ {d : Draft} {node : NodeId} {e : Entry} (h : d.entries[node]? = some e)
    (fuel : Nat) :
    d.nodesAt (fuel + 1) node =
      let children := e.children.toList.flatMap (d.nodesAt fuel)
      match e.content with
      | .fragment => children
      | .element tag attributes => [.element tag attributes children]
      | .text pieces => [.text pieces.reverse.flatten]
      | .comment content => [.comment content]
      | .doctype name => [.doctype name] := by
  obtain ⟨content, parent, children, inner⟩ := e
  cases content with
  | fragment | element | text | comment | doctype => simp only [nodesAt, h]

theorem IsPage.nodesAt_paragraph {d : Draft} {ts : List Text} (h : d.IsPage ts) (fuel : Nat)
    {i : Nat} (hi : i < ts.length) :
    d.nodesAt (fuel + 2) (2 * i + 4) = [.element "p" [] [.text ts[i]]] := by
  have hparagraph := h.paragraph i
  have htext := h.text i
  rw [List.getElem?_eq_getElem hi] at hparagraph htext
  rw [nodesAt_succ hparagraph]
  show [Node.element "p" [] (d.nodesAt (fuel + 1) (2 * i + 5) ++ [])] = _
  rw [nodesAt_succ htext]
  simp

theorem IsPage.nodesAt_body {d : Draft} {ts : List Text} (h : d.IsPage ts) :
    d.nodesAt (2 * ts.length + 2) 3 =
      [.element "body" [] (ts.map fun t => .element "p" [] [.text t])] := by
  have hparagraph : ∀ i ∈ List.range ts.length, d.nodesAt (2 * ts.length + 1) (2 * i + 4) =
      [.element "p" [] [.text (ts[i]?.getD [])]] := by
    intro i hi
    have hi : i < ts.length := List.mem_range.mp hi
    obtain ⟨fuel, hfuel⟩ : ∃ fuel, 2 * ts.length + 1 = fuel + 2 := ⟨2 * ts.length - 1, by omega⟩
    rw [hfuel, h.nodesAt_paragraph fuel hi, List.getElem?_eq_getElem hi]
    rfl
  have hchildren : ((Array.range ts.length).map fun i => 2 * i + 4).toList.flatMap
      (d.nodesAt (2 * ts.length + 1)) = ts.map fun t => .element "p" [] [.text t] := by
    rw [Array.toList_map, Array.toList_range, List.flatMap_map, List.flatMap_congr hparagraph,
      ← List.map_eq_flatMap]
    apply List.ext_getElem
    · simp
    · intro i hi hi'
      rw [List.length_map] at hi'
      simp [hi']
  rw [nodesAt_succ h.body]
  show [Node.element "body" [] _] = _
  rw [hchildren]

theorem IsPage.toNodes {d : Draft} {ts : List Text} (h : d.IsPage ts) :
    d.toNodes = [.element "html" [] [.element "head" [] [],
      .element "body" [] (ts.map fun t => .element "p" [] [.text t])]] := by
  have hbody := h.nodesAt_body
  rw [Draft.toNodes, h.size]
  show d.nodesAt (2 * ts.length + 3 + 1) 0 = _
  rw [nodesAt_succ h.document]
  show d.nodesAt (2 * ts.length + 2 + 1) 1 ++ [] = _
  rw [nodesAt_succ h.root]
  show [Node.element "html" [] (d.nodesAt (2 * ts.length + 1 + 1) 2 ++
    (d.nodesAt (2 * ts.length + 2) 3 ++ []))] ++ [] = _
  rw [nodesAt_succ h.head, hbody]
  rfl

end Draft

namespace Builder

/-- In the body of a document without a doctype, and inside the elements `inner` of it. -/
def inPage (d : Draft) (inner : Stack) (allowsFrames : Bool) : Builder where
  draft := d
  mode := .inBody
  stack := inner ++ [⟨3, .html, "body"⟩, ⟨1, .html, "html"⟩]
  head := some 2
  looseTables := true
  allowsFrames := allowsFrames

theorem readToken_first :
    ({} : Builder).readToken (.startTag { name := "p" }) =
      (inPage .emptyPage [] true).readToken (.startTag { name := "p" }) := rfl

theorem readToken_finish :
    ({} : Builder).readToken .finish = inPage .emptyPage [] true := rfl

section
variable {d : Draft} (allowsFrames : Bool)

theorem readToken_start (hinner : d.hostOf 3 = 3) :
    (inPage d [] allowsFrames).readToken (.startTag { name := "p" }) =
      inPage ((d.addElement .html "p" []).insert (.under 3) d.size) [⟨d.size, .html, "p"⟩]
        allowsFrames := by
  show inPage ((d.addElement .html "p" []).insert (.under (d.hostOf 3)) d.size)
    [⟨d.size, .html, "p"⟩] allowsFrames = _
  rw [hinner]

theorem readToken_end (node : NodeId) :
    (inPage d [⟨node, .html, "p"⟩] allowsFrames).readToken (.endTag "p") =
      inPage d [] allowsFrames := rfl

theorem bodyText_plain {t : Text} (h : IsPlain t) (b : Builder) :
    b.bodyText t =
      (if t.all isSpace then b else b.forbidFrames).reopenFormats.insertText t := by
  obtain ⟨c, s, rfl⟩ := h.exists_cons
  have hkept : (c :: s).filter (· ≠ '\x00') = c :: s := by
    rw [List.filter_eq_self]
    intro e he
    have hne : e ≠ '\x00' := fun hnull => h.noNull (hnull ▸ he)
    simp [hne]
  rw [bodyText, hkept]
  rfl

/-- Text of which every scalar is kept goes under the paragraph. -/
theorem readToken_plain {t : Text} (h : IsPlain t) {node : NodeId} (hinner : d.hostOf node = node) :
    ∃ allowsFrames', (inPage d [⟨node, .html, "p"⟩] allowsFrames).readToken (.text t) =
      inPage (d.insertText (.under node) t) [⟨node, .html, "p"⟩] allowsFrames' := by
  have hframes : (if t.all isSpace then inPage d [⟨node, .html, "p"⟩] allowsFrames
      else (inPage d [⟨node, .html, "p"⟩] allowsFrames).forbidFrames) =
      inPage d [⟨node, .html, "p"⟩] (if t.all isSpace then allowsFrames else false) := by
    split
    · rfl
    · rfl
  have hread : (inPage d [⟨node, .html, "p"⟩] allowsFrames).readToken (.text t) =
      (inPage d [⟨node, .html, "p"⟩] allowsFrames).bodyText t := by
    obtain ⟨c, s, rfl⟩ := h.exists_cons
    rfl
  have hinsert (frames : Bool) :
      (inPage d [⟨node, .html, "p"⟩] frames).reopenFormats.insertText t =
        inPage (d.insertText (.under (d.hostOf node)) t) [⟨node, .html, "p"⟩] frames := by
    obtain ⟨c, s, rfl⟩ := h.exists_cons
    rfl
  refine ⟨if t.all isSpace then allowsFrames else false, ?_⟩
  rw [hread, bodyText_plain h, hframes, hinsert, hinner]

/-- A token is read where no fault and no raw text is in the way. -/
theorem readAll_token {b : Builder} (hraw : b.raw = none) (hdrops : b.dropsNewline = false)
    {fuel : Nat} {t rest : Text} {token : Token}
    (h : Html.readToken fuel b.inForeign t = (some token, rest)) (ht : t ≠ []) :
    readAll (fuel + 1) t b = readAll fuel rest (b.readToken token) := by
  have hnotice (isFaulty : Bool) : b.noticeFault isFaulty = b := by
    cases b
    cases hdrops
    rfl
  have hempty : t.isEmpty = false := by
    rw [List.isEmpty_eq_false_iff]
    exact ht
  rw [readAll, hnotice]
  simp only [hraw, hempty, h]
  rfl

/-- A paragraph is read as its start tag, its text and its end tag. -/
theorem readAll_paragraph {ts : List Text} (hpage : d.IsPage ts) {t : Text} (h : IsPlain t)
    (fuel : Nat) (rest : Text) :
    ∃ allowsFrames', readAll (fuel + 4) ("<p>" ++ (escapeText t ++ ("</p>" ++ rest)))
        (inPage d [] allowsFrames) =
      readAll (fuel + 1) rest (inPage (d.addParagraph t) [] allowsFrames') := by
  have hsize := hpage.size
  have hbody : d.hostOf 3 = 3 := by
    rw [Draft.hostOf, hpage.body]
    rfl
  have hnew : ((d.addElement .html "p" []).insert (.under 3) d.size).hostOf d.size = d.size := by
    show Draft.hostOf d.size (d.appendNew (.element "p" []) 3) = d.size
    rw [Draft.hostOf, Draft.getElem?_appendNew _ (by omega), if_pos rfl]
    rfl
  obtain ⟨allowsFrames', hplain⟩ := readToken_plain allowsFrames h hnew
  obtain ⟨c, s, hescaped⟩ : ∃ c s, escapeText t = c :: s := by
    cases hescaped : escapeText t with
    | nil =>
      have ht := Word.decode_escapeText false t
      rw [hescaped] at ht
      obtain ⟨c, s, rfl⟩ := h.exists_cons
      cases ht
    | cons c s => exact ⟨c, s, rfl⟩
  have htext : Html.readToken (fuel + 2) false (escapeText t ++ ("</p>" ++ rest)) =
      (some (.text t), "</p>" ++ rest) := by
    have hopening := (Word.escapeText_isText t).noOpening
    have hdecode := Word.decode_escapeText false t
    rw [hescaped] at hopening hdecode ⊢
    have hread := readToken_text (fuel + 2) hopening ("/p>" ++ rest)
    rw [hdecode] at hread
    exact hread
  refine ⟨allowsFrames', ?_⟩
  rw [readAll_token rfl rfl (readToken_startParagraph (fuel + 2) _) (by simp),
    readToken_start allowsFrames hbody, readAll_token rfl rfl htext (by simp [hescaped]), hplain,
    readAll_token rfl rfl (readToken_endParagraph fuel rest) (by simp), readToken_end]
  rfl

theorem readAll_paragraphs {ts more : List Text} (hpage : d.IsPage ts)
    (h : ∀ t ∈ more, IsPlain t) {fuel : Nat} (hfuel : 3 * more.length < fuel) :
    ∃ d' allowsFrames', readAll fuel (paragraphs more) (inPage d [] allowsFrames) =
      inPage d' [] allowsFrames' ∧ d'.IsPage (ts ++ more) := by
  induction more generalizing ts d allowsFrames fuel with
  | nil =>
    obtain ⟨fuel, rfl⟩ : ∃ k, fuel = k + 1 := ⟨fuel - 1, by omega⟩
    refine ⟨d, allowsFrames, rfl, ?_⟩
    rwa [List.append_nil]
  | cons t more ih =>
    rw [List.forall_mem_cons] at h
    rw [List.length_cons] at hfuel
    obtain ⟨fuel, rfl⟩ : ∃ k, fuel = k + 4 := ⟨fuel - 4, by omega⟩
    obtain ⟨allowsFrames', hfirst⟩ := readAll_paragraph allowsFrames hpage h.1 fuel
      (paragraphs more)
    have hmore : 3 * more.length < fuel + 1 := by omega
    obtain ⟨d', frames, hrest, hpage'⟩ := ih allowsFrames' (hpage.addParagraph t) h.2 hmore
    refine ⟨d', frames, ?_, ?_⟩
    · rw [paragraphs_cons, hfirst, hrest]
    · rwa [List.append_assoc] at hpage'

end

/-- A document without a beginning of its own begins where its first paragraph begins. -/
theorem readAll_start {ts : List Text} (fuel : Nat) :
    readAll (fuel + 2) (paragraphs ts) {} =
      readAll (fuel + 2) (paragraphs ts) (inPage .emptyPage [] true) := by
  cases ts with
  | nil => exact readToken_finish
  | cons t ts =>
    have htoken := readToken_startParagraph fuel (escapeText t ++ ("</p>" ++ paragraphs ts))
    have hpage := readAll_token (b := inPage .emptyPage [] true) rfl rfl htoken (by simp)
    rw [paragraphs_cons, hpage, ← readToken_first]
    exact readAll_token rfl rfl htoken (by simp)

end Builder

/-! Whole documents. -/

theorem newlines_of_notMem {t : Text} (h : '\r' ∉ t) : newlines t = t := by
  induction t with
  | nil => rfl
  | cons c t ih =>
    rw [List.mem_cons, not_or] at h
    have hc : c ≠ '\r' := Ne.symm h.1
    unfold newlines
    split
    next heq => exact absurd (List.cons.inj heq).1 hc
    next heq => exact absurd (List.cons.inj heq).1 hc
    next heq =>
      obtain ⟨rfl, rfl⟩ := List.cons.inj heq
      rw [ih h.2]
    next heq => cases heq

theorem notMem_paragraphs {ts : List Text} (h : ∀ t ∈ ts, IsPlain t) : '\r' ∉ paragraphs ts := by
  intro hmem
  obtain ⟨t, ht, hmem⟩ := List.mem_flatMap.mp hmem
  have hescaped : '\r' ∈ escapeText t := by
    simpa [enclose, Word.openTag, Word.closeTag] using hmem
  obtain ⟨c, hc, hmem⟩ := List.mem_flatMap.mp hescaped
  have hsame : c = '\r' := by
    unfold Word.markupEscape at hmem
    split at hmem
    · exact absurd hmem (by decide)
    · exact absurd hmem (by decide)
    · exact absurd hmem (by decide)
    · exact (List.mem_singleton.mp hmem).symm
  exact (h t ht).noReturn (hsame ▸ hc)

theorem clean_paragraphs {ts : List Text} (h : ∀ t ∈ ts, IsPlain t) :
    clean (paragraphs ts) = paragraphs ts := by
  have hstart : (Text.dropStart? ['\ufeff'] (paragraphs ts)).getD (paragraphs ts) =
      paragraphs ts := by
    cases ts with
    | nil => rfl
    | cons t ts =>
      rw [paragraphs_cons]
      rfl
  rw [clean, hstart, newlines_of_notMem (notMem_paragraphs h)]

theorem length_le_paragraphs (ts : List Text) : 3 * ts.length ≤ (paragraphs ts).length := by
  induction ts with
  | nil => exact Nat.le_refl 0
  | cons t ts ih =>
    rw [paragraphs_cons, List.length_cons, List.length_append, List.length_append,
      List.length_append]
    show 3 * (ts.length + 1) ≤ 3 + _
    omega

/-- Each paragraph is in the body with its text. -/
theorem parse_paragraphs {ts : List Text} (h : ∀ t ∈ ts, IsPlain t) :
    parse (paragraphs ts) = [.element "html" [] [.element "head" [] [],
      .element "body" [] (ts.map fun t => .element "p" [] [.text t])]] := by
  have hlength := length_le_paragraphs ts
  have hfuel : 3 * ts.length < 2 * (paragraphs ts).length + 2 := by omega
  obtain ⟨d, allowsFrames, hread, hpage⟩ :=
    Builder.readAll_paragraphs true Draft.isPage_emptyPage h hfuel
  unfold parse
  rw [clean_paragraphs h]
  dsimp only
  rw [Builder.readAll_start, hread]
  exact hpage.toNodes

end MarkdownExport.Html
