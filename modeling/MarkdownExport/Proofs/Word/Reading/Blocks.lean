import MarkdownExport.Proofs.Word.Reading.Line

/-! Reading a document back from its WordprocessingML: the reader's blocks are the document's
rendition, and nothing of the reader's state is left open. -/
namespace MarkdownExport.Word
open Xml (Content Attributes Name)
open Document

namespace State

/-- No paragraph is open, and nothing that belongs to one. -/
structure IsBetween (s : State) : Prop extends s.IsIdle where
  paragraph : s.paragraph = none
  links : s.links = []
  deletedDepth : s.deletedDepth = 0

/-- A finished block goes into the open cell, else to the document. -/
def place (s : State) (b : Word.Block) : State :=
  match s.cell? with
  | some cell => s.setCell (extendCell cell b)
  | none => s.addBlock b

/-- A paragraph is placed unless it is blank. -/
def placeText (kind : BlockKind) (html : Text) (s : State) : State :=
  if html.allBlank then s else s.place (.text kind html)

theorem setCell_of_cell? {s : State} {cell : Text} (h : s.cell? = some cell) :
    s.setCell cell = s := by
  obtain ⟨blocks, footnotes, footnote, tables⟩ := s
  cases tables with
  | nil => cases h
  | cons t ts =>
    have ht : t.cell = some cell := h
    simp [setCell, onTable, ← ht]

theorem place_noteAll (s : State) (fs : List Feature) (b : Word.Block) :
    (s.place b).noteAll fs = (s.noteAll fs).place b := by
  obtain ⟨blocks, footnotes, footnote, tables⟩ := s
  cases tables with
  | nil => rfl
  | cons t ts =>
    obtain ⟨rows, row, cell⟩ := t
    cases cell <;> rfl

theorem foldl_place_noteAll (s : State) (fs : List Feature) (bs : List Word.Block) :
    (bs.foldl place s).noteAll fs = bs.foldl place (s.noteAll fs) := by
  induction bs generalizing s with
  | nil => rfl
  | cons b bs ih => rw [List.foldl_cons, List.foldl_cons, ih, place_noteAll]

theorem IsBetween.place {s : State} (h : s.IsBetween) (b : Word.Block) : (s.place b).IsBetween := by
  obtain ⟨blocks, footnotes, footnote, tables⟩ := s
  cases tables with
  | nil => exact { h with }
  | cons t ts =>
    obtain ⟨rows, row, cell⟩ := t
    cases cell with
    | none => exact { h with }
    | some cell => exact { h with }

theorem IsBetween.foldl_place {s : State} (h : s.IsBetween) (bs : List Word.Block) :
    (bs.foldl State.place s).IsBetween := by
  induction bs generalizing s with
  | nil => exact h
  | cons b bs ih => exact ih (h.place b)

/-- Blocks within a cell become its content. -/
theorem foldl_place_of_cell {s : State} {t : OpenTable} {ts : List OpenTable} {cell : Text}
    (h : s.tables = t :: ts) (hc : t.cell = some cell) (bs : List Word.Block) :
    bs.foldl place s =
      { s with tables := { t with cell := some (bs.foldl extendCell cell) } :: ts } := by
  obtain ⟨blocks, footnotes, footnote, tables⟩ := s
  obtain rfl : tables = t :: ts := h
  obtain ⟨rows, row, content⟩ := t
  obtain rfl : content = some cell := hc
  induction bs generalizing cell with
  | nil => rfl
  | cons b bs ih => exact ih

/-- Blocks outside all tables become the document's. -/
theorem foldl_place_of_no_cell {s : State} (h : s.cell? = none) (bs : List Word.Block) :
    bs.foldl place s = { s with blocks := s.blocks ++ bs } := by
  induction bs generalizing s with
  | nil => simp
  | cons b bs ih =>
    have hplace : s.place b = s.addBlock b := by simp [place, h]
    have hadd : (s.addBlock b).cell? = none := h
    rw [List.foldl_cons, hplace, ih hadd]
    simp [addBlock]

end State

section
variable (rels : Relationships) (numbering : Numbering) {s : State}

/-! Paragraphs. -/

def State.inParagraph (s : State) (p : OpenParagraph) : State := { s with paragraph := some p }

theorem State.onInline_inParagraph (hs : s.links = []) (p : OpenParagraph)
    (change : Inline → Inline) :
    (s.inParagraph p).onInline change =
      s.inParagraph { p with content := change p.content } := by
  cases s
  cases hs
  rfl

theorem reads_properties {σ : Source} {t : State} {name : Name} {children : List Content}
    (h : Reads σ s (Content.eventsAll children) t) (hname : Element.ofName name.text = .other)
    (hs : s.skipDepth = 0) (ht : t.skipDepth = 0) :
    Reads σ s (Content.eventsAll (properties name children)) t := by
  by_cases hempty : children = []
  · subst hempty
    exact h
  · have hopen : openElement σ (Attributes.nil.tag name) s = s := by
      rw [openElement, Attributes.tag_name, hname]
    have hclose : closeElement σ name.text t = t := by
      rw [closeElement, hname]
    rw [properties, if_neg (by simpa using hempty)]
    exact (Reads.element name .nil hs (by simp [hname]) hopen h ht hclose).singleton

/-- A property leaves what its element makes of the value, or the state without a value. -/
theorem reads_propertyXml {σ : Source} (name : Name) (update : Option Text → State)
    (hs : (update none).skipDepth = 0)
    (hread : ∀ attributes : Attributes,
      closeElement σ name.text (openElement σ (attributes.tag name) (update none)) =
        update ((attributes.tag name).value? "w:val"))
    (value : Option Text) :
    Reads σ (update none) (Content.eventsAll (propertyXml name value)) (update value) := by
  cases value with
  | none => exact Reads.nil
  | some v =>
    have hvalue := Attributes.value?_tag_single name valueName v "w:val"
    rw [if_pos (by decide)] at hvalue
    have h := Reads.empty (σ := σ) hs ((Attributes.single valueName v).tag name)
    rw [Attributes.tag_name, hread, hvalue] at h
    exact h.singleton

theorem blockKind_eq (p : Paragraph) (content : Inline) :
    blockKind ⟨rels, numbering, .faithful⟩ ⟨p.style, p.numberingId, content⟩ =
      p.kind numbering := by
  unfold blockKind Paragraph.kind
  dsimp only
  cases p.style.bind headingLevel? with
  | some level => rfl
  | none =>
    cases p.numberingId with
    | none => rfl
    | some id => by_cases h : id = ['0'] <;> simp [h, Option.filter]

theorem closeParagraph_inParagraph {σ : Source} (hs : s.paragraph = none) (p : OpenParagraph) :
    closeParagraph σ (s.inParagraph p) = s.placeText (blockKind σ p) p.content.finish := by
  have hclosed : ({ s with paragraph := none } : State) = s := by
    cases s
    cases hs
    rfl
  simp only [closeParagraph, State.inParagraph, hclosed, State.placeText]
  cases hcell : s.cell? with
  | none =>
    by_cases hblank : p.content.finish.allBlank
    · simp [hblank]
    · simp [hblank, State.place, hcell]
  | some cell =>
    by_cases hblank : p.content.finish.allBlank
    · simp [hblank, appendToCell, State.setCell_of_cell? hcell]
    · simp [hblank, State.place, hcell, extendCell]

/-- The end of a paragraph places its rendition. -/
theorem closeParagraph_eq (hs : s.IsBetween) (p : Paragraph) {content : Inline}
    (hcontent : content.finish = p.html rels) :
    closeParagraph ⟨rels, numbering, .faithful⟩
        (s.inParagraph ⟨p.style, p.numberingId, content⟩) =
      (p.rendition rels numbering).foldl State.place s := by
  rw [closeParagraph_inParagraph hs.paragraph, blockKind_eq rels numbering p content, hcontent,
    State.placeText, Paragraph.rendition]
  split
  · rfl
  · rfl

theorem reads_paragraph (hs : s.IsBetween) (p : Paragraph) :
    Reads ⟨rels, numbering, .faithful⟩ s p.xml.events
      ((p.rendition rels numbering).foldl State.place
        (s.noteAll (p.items.flatMap Item.features))) := by
  have hskip := hs.skipDepth
  have hstyle := reads_propertyXml (σ := ⟨rels, numbering, .faithful⟩) paragraphStyleName
    (fun style => s.inParagraph { style := style }) hskip (fun _ => rfl) p.style
  have hnumbering := reads_propertyXml (σ := ⟨rels, numbering, .faithful⟩) numberingIdName
    (fun id => s.inParagraph { style := p.style, numberingId := id }) hskip (fun _ => rfl)
    p.numberingId
  have hlist := reads_properties hnumbering
    (show Element.ofName numberingPropertiesName.text = .other by decide) hskip hskip
  have hboth := hstyle.append hlist
  rw [← Content.eventsAll_append] at hboth
  have hproperties := reads_properties hboth
    (show Element.ofName paragraphPropertiesName.text = .other by decide) hskip hskip
  have hidle : (s.inParagraph ⟨p.style, p.numberingId, {}⟩).IsIdle := { hs with }
  have hnote : (s.noteAll (p.items.flatMap Item.features)).IsBetween := { hs with }
  have hitems := reads_items rels numbering hidle hs.deletedDepth p.items
  change Reads _ _ _ (((s.noteAll _).inParagraph _).onInline _) at hitems
  rw [State.onInline_inParagraph hnote.links] at hitems
  have hall := hproperties.append hitems
  rw [← Content.eventsAll_append] at hall
  have hclose := closeParagraph_eq rels numbering hnote p
    (Inline.finish_foldl_push _)
  exact Reads.element paragraphName .nil hskip (by decide) rfl hall hskip hclose

/-! Tables. -/

theorem cellsHtml_eq (cs : List (List Document.Block)) :
    cellsHtml rels numbering cs =
      (cs.map fun c => cellHtml (rendition rels numbering c)).flatMap (enclose "td") := by
  induction cs with
  | nil => rfl
  | cons c cs ih => rw [cellsHtml, ih, List.map_cons, List.flatMap_cons]

theorem rowsHtml_eq (rs : List (List (List Document.Block))) :
    rowsHtml rels numbering rs =
      (rs.map fun r => r.map fun c => cellHtml (rendition rels numbering c)).flatMap
        fun row => enclose "tr" (row.flatMap (enclose "td")) := by
  induction rs with
  | nil => rfl
  | cons r rs ih => rw [rowsHtml, ih, cellsHtml_eq, List.map_cons, List.flatMap_cons]

/-- A state within a table, between its cells. -/
def State.inTable (s : State) (rows : List (List Text)) (row : List Text) (ts : List OpenTable) :
    State :=
  { s with tables := ⟨rows, row, none⟩ :: ts }

/-- The end of a table places it. -/
theorem closeTable_eq (s : State) (rows : List (List Text)) (row : List Text) :
    closeTable (s.inTable rows row s.tables) = s.place (.table (renderTable rows)) := rfl

/-- A state within a cell. -/
def State.inCell (s : State) (rows : List (List Text)) (row : List Text) (cell : Text)
    (ts : List OpenTable) : State :=
  { s with tables := ⟨rows, row, some cell⟩ :: ts }

theorem State.IsBetween.inCell (hs : s.IsBetween) (rows : List (List Text)) (row : List Text)
    (cell : Text) (ts : List OpenTable) : (s.inCell rows row cell ts).IsBetween := { hs with }

theorem foldl_place_inCell (rows : List (List Text)) (row : List Text) (ts : List OpenTable)
    (blocks : List Document.Block) :
    (rendition rels numbering blocks).foldl State.place (s.inCell rows row [] ts) =
      s.inCell rows row (cellHtml (rendition rels numbering blocks)) ts := by
  have hplace := State.foldl_place_of_cell (s := s.inCell rows row [] ts) rfl rfl
    (rendition rels numbering blocks)
  rw [foldl_extendCell rendition_isShown] at hplace
  exact hplace

/-- The texts of a row's cells. -/
abbrev cellTexts (rels : Relationships) (numbering : Numbering) (cs : List (List Document.Block)) :
    List Text :=
  cs.map fun c => cellHtml (rendition rels numbering c)

mutual

theorem reads_block (s : State) (hs : s.IsBetween) : (b : Document.Block) →
    Reads ⟨rels, numbering, .faithful⟩ s b.xml.events
      ((b.rendition rels numbering).foldl State.place (s.noteAll b.features))
  | .paragraph p => by
    rw [Block.xml, Block.rendition, Block.features]
    exact reads_paragraph rels numbering hs p
  | .table rows => by
    have hrows := reads_rows (s.noteAll [.table]) [] s.tables { hs with } rows
    rw [List.nil_append, State.noteAll_noteAll] at hrows
    have hclose := closeTable_eq (s.noteAll (.table :: rowsFeatures rows))
      (rows.map (cellTexts rels numbering)) []
    rw [renderTable, ← rowsHtml_eq rels numbering] at hclose
    rw [Block.xml, Block.rendition, Block.features]
    exact Reads.element tableName .nil hs.skipDepth (by decide) rfl hrows hs.skipDepth hclose

theorem reads_blocks (s : State) (hs : s.IsBetween) : (bs : List Document.Block) →
    Reads ⟨rels, numbering, .faithful⟩ s (Content.eventsAll (blocksXml bs))
      ((rendition rels numbering bs).foldl State.place (s.noteAll (features bs)))
  | [] => Reads.nil
  | b :: bs => by
    have hfirst := reads_block s hs b
    have hnote : (s.noteAll b.features).IsBetween := { hs with }
    have hrest := reads_blocks _ (hnote.foldl_place (b.rendition rels numbering)) bs
    rw [State.foldl_place_noteAll, State.noteAll_noteAll, ← List.foldl_append] at hrest
    rw [blocksXml, rendition, features]
    exact hfirst.cons hrest

theorem reads_cells (s : State) (rows : List (List Text)) (row : List Text) (ts : List OpenTable)
    (hs : s.IsBetween) : (cs : List (List Document.Block)) →
    Reads ⟨rels, numbering, .faithful⟩ (s.inTable rows row ts) (Content.eventsAll (cellsXml cs))
      ((s.noteAll (cellsFeatures cs)).inTable rows (row ++ cellTexts rels numbering cs) ts)
  | [] => by
    rw [cellTexts, List.map_nil, List.append_nil]
    exact Reads.nil
  | c :: cs => by
    have hblocks := reads_blocks _ (hs.inCell rows row [] ts) c
    change Reads _ _ _ (List.foldl State.place ((s.noteAll _).inCell rows row [] ts) _) at hblocks
    rw [foldl_place_inCell] at hblocks
    have hcell := Reads.element cellName .nil (s := s.inTable rows row ts)
      (t := (s.noteAll (features c)).inTable rows
        (row ++ [cellHtml (rendition rels numbering c)]) ts)
      hs.skipDepth (by decide) rfl hblocks hs.skipDepth rfl
    have hnote : (s.noteAll (features c)).IsBetween := { hs with }
    have hrest := reads_cells _ rows (row ++ [cellHtml (rendition rels numbering c)]) ts hnote cs
    rw [State.noteAll_noteAll, List.append_assoc, List.singleton_append] at hrest
    rw [cellsXml, cellsFeatures]
    exact hcell.cons hrest

theorem reads_rows (s : State) (rows : List (List Text)) (ts : List OpenTable)
    (hs : s.IsBetween) : (rs : List (List (List Document.Block))) →
    Reads ⟨rels, numbering, .faithful⟩ (s.inTable rows [] ts) (Content.eventsAll (rowsXml rs))
      ((s.noteAll (rowsFeatures rs)).inTable (rows ++ rs.map (cellTexts rels numbering)) [] ts)
  | [] => by
    rw [List.map_nil, List.append_nil]
    exact Reads.nil
  | r :: rs => by
    have hcells := reads_cells s rows [] ts hs r
    have hrow := Reads.element rowName .nil (s := s.inTable rows [] ts)
      (t := (s.noteAll (cellsFeatures r)).inTable (rows ++ [cellTexts rels numbering r]) [] ts)
      hs.skipDepth (by decide) rfl hcells hs.skipDepth rfl
    have hnote : (s.noteAll (cellsFeatures r)).IsBetween := { hs with }
    have hrest := reads_rows _ (rows ++ [cellTexts rels numbering r]) ts hnote rs
    rw [State.noteAll_noteAll, List.append_assoc, List.singleton_append] at hrest
    rw [rowsXml, rowsFeatures]
    exact hrow.cons hrest

end

theorem reads_document (rels : Relationships) (numbering : Numbering)
    (document : List Document.Block) :
    Reads ⟨rels, numbering, .faithful⟩ {} (Document.xml document).events
      { blocks := rendition rels numbering document, seen := (features document).reverse } := by
  have hidle : State.IsBetween {} := ⟨⟨rfl, rfl, rfl, rfl, rfl⟩, rfl, rfl, rfl⟩
  have hnote : (State.noteAll (features document) {}).cell? = none := rfl
  have hblocks := reads_blocks rels numbering {} hidle document
  rw [State.foldl_place_of_no_cell hnote] at hblocks
  have hread : Reads ⟨rels, numbering, .faithful⟩ {} (Content.eventsAll (blocksXml document))
      { blocks := rendition rels numbering document, seen := (features document).reverse } := by
    simpa [State.noteAll] using hblocks
  have hbody := Reads.element bodyName .nil rfl (by decide) rfl hread rfl rfl
  exact Reads.element documentName .nil rfl (by decide) rfl hbody.singleton rfl rfl

end

/-- A document that is read back is its rendition, its features are what is counted, and all else is
as it was before the first event. Written as HTML, the rendition has its list items in lists. -/
theorem readPart_document (rels : Relationships) (numbering : Numbering)
    (document : List Document.Block) :
    readPart ⟨rels, numbering, .faithful⟩ (Xml.scan (Document.xml document).render) =
        .ok { blocks := rendition rels numbering document, seen := (features document).reverse } ∧
      renderBlocks (rendition rels numbering document) =
        Document.html (rendition rels numbering document) := by
  constructor
  · rw [readPart_eq_ok, Content.scan_render]
    exact ⟨reads_document rels numbering document, rfl⟩
  · exact renderBlocks_eq _

/-- A heading, a table in a table behind a link and a deletion, and an item. -/
def nestedDocument : List Document.Block :=
  [.paragraph ⟨some "Heading2", some ['7'],
     [.run ⟨{ bold := true }, "a < "⟩, .run ⟨{ bold := true }, "b"⟩]⟩,
   .table [[[.paragraph ⟨none, some ['7'],
       [.link (.relationship ['r']) [⟨{ italic := true }, "c & d"⟩], .deleted [⟨{}, "e"⟩]]⟩,
     .table [[[.paragraph ⟨none, none, [.run ⟨{}, "f"⟩]⟩], []]]]]],
   .paragraph ⟨none, some ['7'], [.inserted [⟨{}, "g"⟩]]⟩]

def nestedXml : Text := List.flatten
  ["<w:document>", "<w:body>",
   "<w:p>", "<w:pPr>", "<w:pStyle w:val=\"Heading2\"/>",
   "<w:numPr>", "<w:numId w:val=\"7\"/>", "</w:numPr>", "</w:pPr>",
   "<w:r>", "<w:rPr><w:b/></w:rPr>", "<w:t xml:space=\"preserve\">", "a &lt; ", "</w:t>", "</w:r>",
   "<w:r>", "<w:rPr><w:b/></w:rPr>", "<w:t xml:space=\"preserve\">", "b", "</w:t>", "</w:r>",
   "</w:p>",
   "<w:tbl><w:tr><w:tc>",
   "<w:p>", "<w:pPr>", "<w:numPr>", "<w:numId w:val=\"7\"/>", "</w:numPr>", "</w:pPr>",
   "<w:hyperlink r:id=\"r\">", "<w:r>", "<w:rPr><w:i/></w:rPr>", "<w:t xml:space=\"preserve\">",
   "c &amp; d", "</w:t>", "</w:r>", "</w:hyperlink>",
   "<w:del>", "<w:r>", "<w:delText ", "xml:space=\"preserve\">", "e", "</w:delText>", "</w:r>",
   "</w:del>", "</w:p>",
   "<w:tbl><w:tr><w:tc>", "<w:p>", "<w:r>", "<w:t xml:space=\"preserve\">", "f", "</w:t>", "</w:r>",
   "</w:p>", "</w:tc><w:tc></w:tc></w:tr>", "</w:tbl>", "</w:tc></w:tr></w:tbl>",
   "<w:p>", "<w:pPr>", "<w:numPr>", "<w:numId w:val=\"7\"/>", "</w:numPr>", "</w:pPr>",
   "<w:ins>", "<w:r>", "<w:t xml:space=\"preserve\">", "g", "</w:t>", "</w:r>", "</w:ins>",
   "</w:p>", "</w:body>", "</w:document>"]

def nestedBlocks : List Word.Block :=
  [.text (.heading 2) "<strong>a &lt; b</strong>",
   .table (List.flatten
    ["<table><tr><td>", "<a href=\"u?v&amp;w\"><em>c &amp; d</em></a>", "<del>e</del>",
     "<table><tr><td>f</td><td></td></tr></table>", "</td></tr></table>"]),
   .text (.listItem true) ['g']]

theorem readPart_document_nested :
    readPart ⟨[(['r'], ⟨"u?v&w", []⟩)], [(['7'], true)], .faithful⟩ (Xml.scan nestedXml) =
      .ok
        { blocks := nestedBlocks
          seen := [.revision, .table, .revision, .hyperlink, .table] } ∧
    renderBlocks nestedBlocks = List.flatten
      ["<h2><strong>a &lt; b</strong></h2>", "<table><tr><td>",
       "<a href=\"u?v&amp;w\"><em>c &amp; d</em></a>", "<del>e</del>",
       "<table><tr><td>f</td><td></td></tr></table>", "</td></tr></table>",
       "<ol><li>g</li></ol>"] := by
  obtain ⟨hread, hwritten⟩ :=
    readPart_document [(['r'], ⟨"u?v&w", []⟩)] [(['7'], true)] nestedDocument
  have hxml : (Document.xml nestedDocument).render = nestedXml := by decide +kernel
  have hblocks : rendition [(['r'], ⟨"u?v&w", []⟩)] [(['7'], true)] nestedDocument =
      nestedBlocks := rfl
  rw [hxml, hblocks] at hread
  rw [hblocks] at hwritten
  exact ⟨hread, hwritten.trans rfl⟩

end MarkdownExport.Word
