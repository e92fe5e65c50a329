import MarkdownExport.Markdown.Default
import MarkdownExport.Proofs.Text.Trimming
import MarkdownExport.Proofs.Text.Basic
import MarkdownExport.Proofs.Word.FlowText
import MarkdownExport.Proofs.Word.Notes

/-! Footnotes from the footnotes part to the references in the Markdown. The snapshot numbers them
and the rule of the section takes just that number away again. -/
namespace MarkdownExport
open Markdown Node Word

/-! The number of a footnote. -/

theorem dropMarker_number (k : Nat) (t : Text) :
    dropMarker ('[' :: (decimal k ++ ']' :: t)) = t.trimStart := by
  have hdigits : ∀ c ∈ decimal k, isDecimalDigit c = true := fun c hc =>
    isDecimalDigit_of_isDigit (isDigit_of_mem_decimal hc)
  have hspan := Text.span_append hdigits (c := ']') (by decide) t
  obtain ⟨d, ds, hd⟩ := List.exists_cons_of_ne_nil (Nat.toDigits_ne_nil (n := k) (b := 10))
  rw [decimal, hd] at hspan
  rw [dropMarker, decimal, hd, hspan]
  rfl

/-- Of a trimmed footnote the number goes and nothing else, whatever its text starts with. -/
theorem dropMarker_noteNumber (k : Nat) (t : Text) :
    dropMarker (noteNumber k ++ t).trim = t.trim := by
  have hopen : isBlank '[' = false := by decide
  have hclose : isBlank ']' = false := by decide
  have hnote : noteNumber k ++ t = ('[' :: decimal k) ++ ']' :: (' ' :: t) := by
    simp [noteNumber]
  have hstart : (noteNumber k ++ t).trimStart = noteNumber k ++ t := by
    rw [hnote, List.cons_append, Text.trimStart, List.dropWhile_cons_of_neg (by simp [hopen])]
  rw [Text.trim, hstart, hnote, Text.trimEnd_append_visible hclose, List.cons_append,
    dropMarker_number, Text.trimStart_trimEnd, Text.trim_cons_blank isBlank_space]

/-! The section of footnotes. -/

/-- The items that the HTML of footnotes denotes, of which the first has the number `k`. -/
inductive NoteItems (V : Vocabulary) : (k : Nat) → List Footnote → List Node → Prop
  | nil {k : Nat} : NoteItems V k [] []
  | cons {k : Nat} {note : Footnote} {notes : List Footnote} {ms items : List Node} :
      IsFlow V note.html → FlowHtml V (noteNumber k ++ note.html) ms →
      NoteItems V (k + 1) notes items →
      NoteItems V k (note :: notes)
        (.element "li" [⟨"data-word-footnote-id", note.id⟩] ms :: items)

def referenceLine (note : Footnote) : Text :=
  "[^" ++ note.id ++ "]: " ++ (plainText note.html).trim ++ "\n"

namespace NoteItems
variable {V : Vocabulary} {k : Nat} {notes : List Footnote} {items : List Node}

theorem findTags_eq (h : NoteItems V k notes items) : findTags "li" items = items := by
  induction h with
  | nil => rfl
  | cons _ hms _ ih =>
    have hinside := hms.findTags_item
    unfold findTags at hinside ih ⊢
    rw [findAll_element, hinside, ih]
    rfl

theorem flatMap_footnoteLine (h : NoteItems V k notes items) :
    items.flatMap footnoteLine = notes.flatMap referenceLine := by
  induction h with
  | nil => rfl
  | @cons k note notes ms items hhtml hms _ ih =>
    have hline : footnoteLine (.element "li" [⟨"data-word-footnote-id", note.id⟩] ms) =
        referenceLine note := by
      have hid : attribute? "data-word-footnote-id"
          (.element "li" [⟨"data-word-footnote-id", note.id⟩] ms) = some note.id := rfl
      have htext : textContent (.element "li" [⟨"data-word-footnote-id", note.id⟩] ms) =
          noteNumber k ++ plainText note.html := hms.textOf_note hhtml
      rw [footnoteLine, hid, htext, dropMarker_noteNumber]
      rfl
    rw [List.flatMap_cons, List.flatMap_cons, hline, ih]

/-- All footnotes whose content is inline HTML and tables have items. -/
theorem exists_of_isFlow (h : ∀ note ∈ notes, IsFlow V note.html) (k : Nat) :
    ∃ items, NoteItems V k notes items := by
  induction notes generalizing k with
  | nil => exact ⟨[], .nil⟩
  | cons note notes ih =>
    rw [List.forall_mem_cons] at h
    obtain ⟨items, hitems⟩ := ih h.2 (k + 1)
    obtain ⟨ms, hms⟩ := (noteNumber_isFlow k).append h.1
    exact ⟨_, .cons h.1 hms hitems⟩

theorem ne_nil (h : NoteItems V k notes items) (hne : notes ≠ []) : items ≠ [] := by
  cases h with
  | nil => contradiction
  | cons => exact List.cons_ne_nil _ _

end NoteItems

/-- The section around the items of footnotes. -/
def notesSection (items : List Node) : Node :=
  .element "section" [⟨"data-word-footnotes", "true"⟩] [.element "ol" [] items]

theorem blockNode_notesSection {V : Vocabulary} {notes : List Footnote} {items : List Node}
    (h : NoteItems V 1 notes items) (hne : notes ≠ []) (dialect : Dialect) :
    blockNode dialect defaultRules (notesSection items) =
      "\n## References\n\n" ++ notes.flatMap referenceLine ++ "\n" := by
  have hblock : blockNode dialect defaultRules (notesSection items) =
      footnoteList [.element "ol" [] items] := by
    rw [notesSection, blockNode]
    rfl
  have hitems : findTags "li" [.element "ol" [] items] = items := by
    have hbelow := h.findTags_eq
    unfold findTags at hbelow ⊢
    rw [findAll_element, hbelow]
    exact List.append_nil _
  obtain ⟨item, rest, hcons⟩ := List.exists_cons_of_ne_nil (h.ne_nil hne)
  rw [hblock, footnoteList, hitems, ← h.flatMap_footnoteLine, hcons]

/-! The section of the snapshot. -/

def itemHtml (k : Nat) (note : Footnote) : Text :=
  "<li data-word-footnote-id=\"" ++ escapeValue note.id ++ "\">" ++ noteNumber k ++ note.html ++
    "</li>"

/-- The items of footnotes in their order, numbered from one, in a section if there are any. -/
def sectionHtml (notes : List Footnote) : Text :=
  if notes = [] then []
  else "<section data-word-footnotes=\"true\"><ol>" ++
    (notes.mapIdx fun i note => itemHtml (i + 1) note).flatten ++ "</ol></section>"

theorem render_eq_itemHtml (i : Nat) (note : Footnote) : note.render i = itemHtml (i + 1) note := by
  have hopen : ("\">[" : Text) = "\">" ++ "[" := rfl
  unfold Footnote.render itemHtml noteNumber
  rw [hopen]
  simp only [List.append_assoc]

theorem renderFootnotesFrom_eq (i : Nat) (notes : List Footnote) :
    renderFootnotesFrom i notes =
      (notes.mapIdx fun j note => itemHtml (i + j + 1) note).flatten := by
  induction notes generalizing i with
  | nil => rw [List.mapIdx_nil, renderFootnotesFrom, List.flatten_nil]
  | cons note notes ih =>
    have hshift : (fun j note => itemHtml (i + 1 + j + 1) note) =
        fun j note => itemHtml (i + (j + 1) + 1) note := by
      funext j note
      rw [Nat.add_right_comm i 1 j, Nat.add_assoc i j 1]
    rw [renderFootnotesFrom, ih, List.mapIdx_cons, List.flatten_cons, hshift,
      render_eq_itemHtml, Nat.add_zero]

theorem renderFootnotes_eq (notes : List Footnote) : renderFootnotes notes = sectionHtml notes := by
  cases notes with
  | nil => rfl
  | cons note notes =>
    have hitems := renderFootnotesFrom_eq 0 (note :: notes)
    simp only [Nat.zero_add] at hitems
    rw [renderFootnotes, hitems, sectionHtml, if_neg (by simp)]
    rfl

section Snapshot
variable {package : Package} {profile : Profile} {numbering : Numbering}

theorem readNotes_pieces {xml : Text} {rels : Relationships} {events : List Xml.Event}
    {pieces : List NotePiece} (htext : package.text? footnotesPart = .ok (some xml))
    (hrels : readOptional package footnotesRelationshipsPart [] Relationships.ofScan = .ok rels)
    (hscan : Xml.scan xml = ⟨events, none⟩) (hpart : IsNotesPart events pieces) :
    readNotes package numbering profile =
      inPart footnotesPart
        ((pieces.mapM (NotePiece.note? ⟨rels, numbering, profile⟩)).map List.reduceOption) := by
  rw [← readPart_footnotes hpart, readNotes, htext]
  change (readOptional package footnotesRelationshipsPart [] Relationships.ofScan >>= fun rels =>
    inPart footnotesPart (readPart ⟨rels, numbering, profile⟩ (Xml.scan xml)) >>= fun s =>
      .ok s.footnotes) = _
  rw [hrels, hscan]
  change (inPart footnotesPart (readPart ⟨rels, numbering, profile⟩ ⟨events, none⟩) >>= fun s =>
      .ok s.footnotes) = _
  cases readPart ⟨rels, numbering, profile⟩ ⟨events, none⟩ <;> rfl

/-- A footnotes part that is a sequence of footnotes and other content is read if and only if the
content of each piece is, and then the snapshot lists the footnotes in their order. -/
theorem snapshot_html_pieces {document xml : Text} {rels noteRels : Relationships} {body : State}
    {events : List Xml.Event} {pieces : List NotePiece}
    (hdocument : package.text? documentPart = .ok (some document))
    (hrels : readOptional package documentRelationshipsPart [] Relationships.ofScan = .ok rels)
    (hnumbering : readOptional package numberingPart [] Numbering.ofScan = .ok numbering)
    (hbody : readPart ⟨rels, numbering, profile⟩ (Xml.scan document) = .ok body)
    (hnotes : package.text? footnotesPart = .ok (some xml))
    (hnoteRels : readOptional package footnotesRelationshipsPart [] Relationships.ofScan =
      .ok noteRels)
    (hscan : Xml.scan xml = ⟨events, none⟩) (hpart : IsNotesPart events pieces) :
    (snapshot package profile).map Snapshot.html =
      (inPart footnotesPart (pieces.mapM (NotePiece.note? ⟨noteRels, numbering, profile⟩))).map
        fun notes => renderBlocks body.blocks ++ sectionHtml notes.reduceOption := by
  have hread : readNotes package numbering profile = inPart footnotesPart
      ((pieces.mapM (NotePiece.note? ⟨noteRels, numbering, profile⟩)).map List.reduceOption) :=
    readNotes_pieces hnotes hnoteRels hscan hpart
  unfold snapshot readContents
  rw [hdocument, hrels, hnumbering]
  change ((inPart documentPart (readPart ⟨rels, numbering, profile⟩ (Xml.scan document)) >>= _)
    >>= _).map Snapshot.html = _
  rw [hbody]
  change ((readNotes package numbering profile >>= _) >>= _).map Snapshot.html = _
  rw [hread]
  cases pieces.mapM (NotePiece.note? ⟨noteRels, numbering, profile⟩) with
  | error e => rfl
  | ok notes =>
    change Except.ok (renderBlocks body.blocks ++ renderFootnotes notes.reduceOption) = _
    rw [renderFootnotes_eq]
    rfl

/-- The footnotes that are listed have items. -/
theorem exists_noteItems {σ : Source} {events : List Xml.Event} {pieces : List NotePiece}
    (hpart : IsNotesPart events pieces) {notes : List (Option Footnote)}
    (hnotes : pieces.mapM (NotePiece.note? σ) = .ok notes) (k : Nat) :
    ∃ items, NoteItems σ.profile.vocabulary k notes.reduceOption items := by
  have hread := readPart_footnotes (σ := σ) hpart
  rw [hnotes] at hread
  cases hs : readPart σ ⟨events, none⟩ with
  | error e =>
    rw [hs] at hread
    cases hread
  | ok s =>
    rw [hs] at hread
    have hfootnotes : s.footnotes = notes.reduceOption := Except.ok.inj hread
    rw [← hfootnotes]
    exact NoteItems.exists_of_isFlow (State.IsMarkup.readPart hs).footnotes k

/-- Footnotes from end to end. A footnotes part is read exactly if the content of each of its pieces
is. Then the snapshot lists the footnotes that count, in their order, each with its number and its
own blocks, and these have items. And the rule of a section writes a reference for each item: the
text of the footnote's blocks, trimmed, without the number and with all else that it starts with. -/
theorem footnotes_survive {document xml : Text} {rels noteRels : Relationships} {body : State}
    {events : List Xml.Event} {pieces : List NotePiece}
    (hdocument : package.text? documentPart = .ok (some document))
    (hrels : readOptional package documentRelationshipsPart [] Relationships.ofScan = .ok rels)
    (hnumbering : readOptional package numberingPart [] Numbering.ofScan = .ok numbering)
    (hbody : readPart ⟨rels, numbering, profile⟩ (Xml.scan document) = .ok body)
    (hnotes : package.text? footnotesPart = .ok (some xml))
    (hnoteRels : readOptional package footnotesRelationshipsPart [] Relationships.ofScan =
      .ok noteRels)
    (hscan : Xml.scan xml = ⟨events, none⟩) (hpart : IsNotesPart events pieces) :
    (snapshot package profile).map Snapshot.html =
        (inPart footnotesPart (pieces.mapM (NotePiece.note? ⟨noteRels, numbering, profile⟩))).map
          (fun notes => renderBlocks body.blocks ++ sectionHtml notes.reduceOption) ∧
      (∀ notes, pieces.mapM (NotePiece.note? ⟨noteRels, numbering, profile⟩) = .ok notes →
        ∃ items, NoteItems profile.vocabulary 1 notes.reduceOption items) ∧
      ∀ (V : Vocabulary) (notes : List Footnote) (items : List Node), NoteItems V 1 notes items →
        notes ≠ [] → ∀ dialect, blockNode dialect defaultRules (notesSection items) =
          "\n## References\n\n" ++ notes.flatMap referenceLine ++ "\n" :=
  ⟨snapshot_html_pieces hdocument hrels hnumbering hbody hnotes hnoteRels hscan hpart,
    fun _ h => exists_noteItems hpart h 1, fun _ _ _ h hne => blockNode_notesSection h hne⟩

end Snapshot

/-- The events of a paragraph with one text. -/
def paragraphEvents (t : Text) : List Xml.Event :=
  [.opened ⟨"w:p", []⟩, .opened ⟨"w:r", []⟩, .opened ⟨"w:t", []⟩, .text t, .closed "w:t",
   .closed "w:r", .closed "w:p"]

def noteTag (id : Text) : Xml.Tag := ⟨"w:footnote", [⟨"w:id", id⟩]⟩

def typedNoteTag (id type : Text) : Xml.Tag :=
  ⟨"w:footnote", [⟨"w:id", id⟩, ⟨"w:type", type⟩]⟩

/-- A separator, a note that starts with a marker, a block in between, a blank note, and a note
that starts with an ideographic space. -/
def markedPieces : List NotePiece :=
  [.note (typedNoteTag "0" "separator") (paragraphEvents "s"),
   .note (noteTag "2") (paragraphEvents "[7] a" ++ paragraphEvents "b"),
   .between (paragraphEvents "x"),
   .emptyNote (typedNoteTag "3" "normal"),
   .note (noteTag "4") (paragraphEvents "\u3000[1] c ")]

def markedXml : Text :=
  "<w:footnotes>" ++
    "<w:footnote w:id='0' w:type='separator'><w:p><w:r><w:t>s</w:t></w:r></w:p></w:footnote>" ++
    "<w:footnote w:id='2'><w:p><w:r><w:t>[7] a</w:t></w:r></w:p>" ++
    "<w:p><w:r><w:t>b</w:t></w:r></w:p></w:footnote>" ++ "<w:p><w:r><w:t>x</w:t></w:r></w:p>" ++
    "<w:footnote w:id='3' w:type='normal'/>" ++
    "<w:footnote w:id='4'><w:p><w:r><w:t>\u3000[1] c </w:t></w:r></w:p></w:footnote>" ++
    "</w:footnotes>"

def markedNotes : Package := .ofTexts
  [(documentPart, "<w:p><w:r><w:t>t</w:t></w:r></w:p>"), (footnotesPart, markedXml)]

def markedItems : List Node :=
  [.element "li" [⟨"data-word-footnote-id", "2"⟩] [.text "[1] [7] a b"],
   .element "li" [⟨"data-word-footnote-id", "3"⟩] [.text "[2] "],
   .element "li" [⟨"data-word-footnote-id", "4"⟩] [.text "[3] \u3000[1] c "]]

theorem markedItems_noteItems : NoteItems .full 1
    [⟨"2", "[7] a b"⟩, ⟨"3", []⟩, ⟨"4", "\u3000[1] c "⟩] markedItems := by
  have htext (t : Text) : FlowHtml .full (escapeText t) [.text t] := by
    have h := InlineHtml.text (V := .full) (escapeText_isText t)
    rw [decode_escapeText] at h
    exact .inline h
  exact .cons ⟨_, htext "[7] a b"⟩ (htext "[1] [7] a b") (.cons ⟨_, .nil⟩ (htext "[2] ")
    (.cons ⟨_, htext "\u3000[1] c "⟩ (htext "[3] \u3000[1] c ") .nil))

theorem footnotes_survive_marked :
    IsNotesPart (.opened ⟨"w:footnotes", []⟩ ::
        (markedPieces.flatMap NotePiece.events ++ [.closed "w:footnotes"])) markedPieces ∧
      (snapshot markedNotes .faithful).map Snapshot.html = .ok
        ("<p>t</p><section data-word-footnotes=\"true\"><ol>" ++
          "<li data-word-footnote-id=\"2\">[1] [7] a b</li>" ++
          "<li data-word-footnote-id=\"3\">[2] </li>" ++
          "<li data-word-footnote-id=\"4\">[3] \u3000[1] c </li></ol></section>") ∧
      ∀ dialect, blockNode dialect defaultRules (notesSection markedItems) =
        "\n## References\n\n[^2]: [7] a b\n[^3]: \n[^4]: [1] c\n\n" := by
  have hpart : IsNotesPart (.opened ⟨"w:footnotes", []⟩ ::
      (markedPieces.flatMap NotePiece.events ++ [.closed "w:footnotes"])) markedPieces :=
    .element [] [] (by decide) (by decide)
  have hscan : Xml.scan markedXml = ⟨.opened ⟨"w:footnotes", []⟩ ::
      (markedPieces.flatMap NotePiece.events ++ [.closed "w:footnotes"]), none⟩ := by
    decide +kernel
  have hdocument : markedNotes.text? documentPart =
      .ok (some "<w:p><w:r><w:t>t</w:t></w:r></w:p>") := by
    rw [markedNotes, Package.text?_ofTexts]
    rfl
  have hnotes : markedNotes.text? footnotesPart = .ok (some markedXml) := by
    rw [markedNotes, Package.text?_ofTexts]
    rfl
  have hmissing {part : Text} (hd : documentPart ≠ part) (hn : footnotesPart ≠ part) :
      markedNotes.text? part = .ok none := by
    rw [markedNotes, Package.text?_ofTexts, Dictionary.find?, if_neg hd, Dictionary.find?,
      if_neg hn]
    rfl
  have hbody : readPart {} (Xml.scan "<w:p><w:r><w:t>t</w:t></w:r></w:p>") =
      .ok { blocks := [.text .paragraph "t"] } := eq_ok_of_toOption (by decide +kernel)
  have hread : markedPieces.mapM (NotePiece.note? {}) =
      .ok [none, some ⟨"2", "[7] a b"⟩, none, some ⟨"3", []⟩, some ⟨"4", "\u3000[1] c "⟩] :=
    eq_ok_of_toOption (by decide +kernel)
  obtain ⟨hhtml, -, hrule⟩ := footnotes_survive hdocument
    (by rw [readOptional, hmissing (by decide) (by decide)]; rfl)
    (by rw [readOptional, hmissing (by decide) (by decide)]; rfl) hbody hnotes
    (by rw [readOptional, hmissing (by decide) (by decide)]; rfl) hscan hpart
  refine ⟨hpart, ?_, fun dialect => ?_⟩
  · rw [hhtml, hread]
    exact congrArg Except.ok (by decide +kernel)
  · rw [hrule _ _ _ markedItems_noteItems (List.cons_ne_nil _ _)]
    decide +kernel

end MarkdownExport
