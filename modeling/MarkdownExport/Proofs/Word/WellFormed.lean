import MarkdownExport.Proofs.Word.Invariant

/-! Snapshots are well-formed: whatever a package holds, its snapshot is a sentence of the grammar,
so nothing in the package can open, close or forge markup. -/
namespace MarkdownExport.Word
variable {V : Vocabulary}

variable (V) in
/-- The rest of a page: blocks, or items that end the open list and then blocks. -/
def IsRest : Option Bool → Text → Prop
  | none, t => ∃ ns, BlocksHtml V t ns
  | some ordered, t => ∃ items is rest ns, ItemsHtml V items is ∧ BlocksHtml V rest ns ∧
      t = items ++ closeTag (listTag ordered) ++ rest

/-- An open list is closed when it has an item. -/
theorem IsRest.openList {ordered : Bool} {t : Text} {html : Text} (h : IsInline V html)
    (ht : IsRest V (some ordered) t) :
    IsRest V none (openTag (listTag ordered) ++ enclose "li" html ++ t) := by
  obtain ⟨items, is, rest, ns, hi, hb, rfl⟩ := ht
  obtain ⟨ms, hms⟩ := h
  have hl := BlockHtml.list ordered (.cons hms hi) (by simp)
  have heq : openTag (listTag ordered) ++ enclose "li" html ++
      (items ++ closeTag (listTag ordered) ++ rest) =
      enclose (listTag ordered) (enclose "li" html ++ items) ++ rest := by
    simp [enclose]
  rw [heq]
  exact ⟨_, .cons hl hb⟩

theorem IsRest.item {ordered : Bool} {t : Text} {html : Text} (h : IsInline V html)
    (ht : IsRest V (some ordered) t) : IsRest V (some ordered) (enclose "li" html ++ t) := by
  obtain ⟨items, is, rest, ns, hi, hb, rfl⟩ := ht
  obtain ⟨ms, hms⟩ := h
  exact ⟨_, _, rest, ns, .cons hms hi, hb, by simp⟩

theorem IsRest.closeList (ordered : Bool) {t : Text} (ht : IsRest V none t) :
    IsRest V (some ordered) (closeTag (listTag ordered) ++ t) := by
  obtain ⟨ns, hns⟩ := ht
  exact ⟨[], [], t, ns, .nil, hns, rfl⟩

/-- What comes before an item: nothing in a list of its kind, and else a new list. -/
theorem IsRest.change_item {ordered : Bool} {t : Text} {html : Text} (h : IsInline V html)
    (ht : IsRest V (some ordered) t) (before : Option Bool) :
    IsRest V before (listChange before (some ordered) ++ enclose "li" html ++ t) := by
  unfold listChange
  split
  next he =>
    subst he
    exact ht.item h
  next =>
    cases before with
    | none => exact ht.openList h
    | some other =>
      have hopen := (ht.openList h).closeList other
      simpa using hopen

theorem IsRest.change_none {t : Text} (ht : IsRest V none t) (before : Option Bool) :
    IsRest V before (listChange before none ++ t) := by
  cases before with
  | none => exact ht
  | some ordered => simpa [listChange] using ht.closeList ordered

theorem Block.IsMarkup.blockHtml {b : Block} (h : b.IsMarkup V) (hl : b.list? = none) :
    ∃ n, BlockHtml V b.render n := by
  cases b with
  | text kind html =>
    obtain ⟨hk, ns, hns⟩ := h
    cases kind with
    | paragraph => exact ⟨_, .paragraph hns⟩
    | heading level => exact ⟨_, .heading (hk level rfl).1 (hk level rfl).2 hns⟩
    | listItem ordered => cases hl
  | table html =>
    obtain ⟨rows, hrows, rfl⟩ := h
    exact ⟨_, .table hrows (Or.inl rfl)⟩

/-- The induction is over the blocks, for every kind of list that may be open before them. -/
theorem renderBlocksFrom_isRest {blocks : List Block} (h : ∀ b ∈ blocks, b.IsMarkup V)
    (before : Option Bool) : IsRest V before (renderBlocksFrom before blocks) := by
  induction blocks generalizing before with
  | nil =>
    have hnil : IsRest V none [] := ⟨[], .nil⟩
    simpa [renderBlocksFrom] using hnil.change_none before
  | cons b bs ih =>
    rw [List.forall_mem_cons] at h
    have hrest := ih h.2 b.list?
    rw [renderBlocksFrom]
    cases hl : b.list? with
    | none =>
      rw [hl] at hrest
      obtain ⟨n, hn⟩ := h.1.blockHtml hl
      obtain ⟨ns, hns⟩ := hrest
      have hb : IsRest V none (b.render ++ renderBlocksFrom none bs) := ⟨_, .cons hn hns⟩
      simpa using hb.change_none before
    | some ordered =>
      rw [hl] at hrest
      cases b with
      | table html => cases hl
      | text kind html =>
        cases kind with
        | paragraph | heading => cases hl
        | listItem =>
          cases hl
          exact hrest.change_item h.1.2 before

theorem renderBlocks_html {blocks : List Block} (h : ∀ b ∈ blocks, b.IsMarkup V) :
    ∃ ns, BlocksHtml V (renderBlocks blocks) ns :=
  renderBlocksFrom_isRest h none

theorem renderFootnotesFrom_html {notes : List Footnote} (h : ∀ n ∈ notes, IsFlow V n.html)
    (i : Nat) : ∃ ns, NotesHtml V (i + 1) (renderFootnotesFrom i notes) ns ∧
      ns.length = notes.length := by
  induction notes generalizing i with
  | nil => exact ⟨[], .nil, rfl⟩
  | cons note notes ih =>
    rw [List.forall_mem_cons] at h
    obtain ⟨ns, hns, hlen⟩ := ih h.2 (i + 1)
    have hnumber : IsFlow V (noteNumber (i + 1)) :=
      ((IsFlow.text (.of_plain (by decide))).append (.text (decimal_isText _))).append
        (.text (.of_plain (by decide)))
    obtain ⟨ms, hms⟩ := hnumber.append h.1
    have heq : renderFootnotesFrom i (note :: notes) =
        "<li data-word-footnote-id=\"" ++ escapeValue note.id ++ "\">" ++ noteNumber (i + 1) ++
          note.html ++ closeTag "li" ++ renderFootnotesFrom (i + 1) notes := by
      change note.render i ++ renderFootnotesFrom (i + 1) notes = _
      unfold Footnote.render noteNumber closeTag
      simp
    rw [heq]
    exact ⟨_, .cons (escapeValue_isValue note.id) h.1 hms hns, by simp [hlen]⟩

theorem renderFootnotes_html {notes : List Footnote} (h : ∀ n ∈ notes, IsFlow V n.html) :
    ∃ ns, SectionHtml V (renderFootnotes notes) ns := by
  cases notes with
  | nil => exact ⟨[], .none⟩
  | cons note notes =>
    obtain ⟨ns, hns, hlen⟩ := renderFootnotesFrom_html h 0
    have hne : ns ≠ [] := by
      rintro rfl
      simp at hlen
    have heq : renderFootnotes (note :: notes) = "<section data-word-footnotes=\"true\">" ++
        enclose "ol" (renderFootnotesFrom 0 (note :: notes)) ++ closeTag "section" := by
      simp [renderFootnotes, enclose, openTag, closeTag]
    rw [heq]
    exact ⟨_, .notes hns hne⟩

variable {package : Package} {profile : Profile}

theorem readNotes_isFlow {numbering : Numbering} {notes : List Footnote}
    (h : readNotes package numbering profile = .ok notes) :
    ∀ n ∈ notes, IsFlow profile.vocabulary n.html := by
  rcases readNotes_eq_ok h with rfl | ⟨xml, rels, s, -, hs, rfl⟩
  · simp
  · exact (State.IsMarkup.readPart hs).footnotes

theorem contents_page {c : Contents} (h : readContents package profile = .ok c) :
    ∃ ns, PageHtml profile.vocabulary c.html ns := by
  obtain ⟨xml, rels, numbering, s, -, hs, hn, hb⟩ := readContents_eq_ok h
  obtain ⟨ms, hms⟩ := renderBlocks_html (State.IsMarkup.readPart hs).blocks
  obtain ⟨ns, hns⟩ := renderFootnotes_html (readNotes_isFlow hn)
  rw [Contents.html, hb]
  exact ⟨_, .mk hms hns⟩

/-- Snapshots are sentences of the grammar, and strict ones use its smaller vocabulary. -/
theorem snapshot_wellFormed {s : Snapshot} (h : snapshot package profile = .ok s) :
    ∃ nodes, PageHtml profile.vocabulary s.html nodes := by
  obtain ⟨c, hc, hs⟩ := snapshot_eq_ok h
  rw [hs]
  exact contents_page hc

/-- A package whose texts, anchor and footnote try to close their elements and to open others. -/
def forgery : Package := .ofTexts
  [(documentPart, "<w:tbl><w:tr><w:tc><w:p>" ++ "<w:hyperlink w:anchor='&quot;>&lt;b>'>" ++
      "<w:r><w:t>&lt;/a></w:t></w:r>" ++ "</w:hyperlink></w:p></w:tc></w:tr></w:tbl>"),
   (footnotesPart, "<w:footnote w:id='&quot;/>'>" ++ "<w:p><w:r><w:t>&lt;/li></w:t></w:r></w:p>" ++
      "</w:footnote>")]

def forgeryHtml : Text :=
  "<table><tr><td>" ++ "<a href=\"#&quot;&gt;&lt;b&gt;\">" ++ "&lt;/a&gt;</a></td></tr></table>" ++
    "<section data-word-footnotes=\"true\">" ++ "<ol><li data-word-footnote-id=\"" ++
    "&quot;/&gt;\">[1] &lt;/li&gt;</li></ol></section>"

theorem forgery_wellFormed : ∃ s, snapshot forgery .faithful = .ok s ∧ s.html = forgeryHtml ∧
    ∃ nodes, PageHtml .full s.html nodes := by
  have h : (snapshot forgery .faithful).toOption.map Snapshot.html = some forgeryHtml := by
    simp only [snapshot, readContents, readNotes, readOptional, forgery, Package.text?_ofTexts]
    decide +kernel
  obtain ⟨s, hs, hhtml⟩ := exists_snapshot h
  exact ⟨s, hs, hhtml, snapshot_wellFormed hs⟩

end MarkdownExport.Word
