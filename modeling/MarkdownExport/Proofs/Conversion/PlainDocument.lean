import MarkdownExport.Conversion
import MarkdownExport.Proofs.Html.Paragraphs
import MarkdownExport.Proofs.Markdown.EscapedText
import MarkdownExport.Proofs.Word.Reading.Blocks

/-! Word documents of plain text: what is decoded and encoded on the way to Markdown cancels out,
and its own escapes are all that is left. -/
namespace MarkdownExport.Word
open Xml (Content Attributes Name)
open Document

/-- A paragraph without properties, of one run with one text. -/
def plainParagraph (p : Attributes × Text) : Content :=
  .element paragraphName .nil [.element runName .nil [.leaf textName p.1 p.2]]

/-- A document of such paragraphs, each given by its text and the attributes of its text element. -/
def plainXml (ps : List (Attributes × Text)) : Content :=
  .element documentName .nil [.element bodyName .nil (ps.map plainParagraph)]

def plainBlock (t : Text) : Word.Block := .text .paragraph (escapeText t)

/-! Reading: each paragraph is a block, whatever the document refers to. -/

section
variable {σ : Source} {s : State}

/-- The end of the paragraph makes its run a block. -/
theorem closeParagraph_plain (hs : s.IsBetween) (hcell : s.cell? = none) {t : Text}
    (ht : t.allBlank = false) :
    closeParagraph σ (s.inParagraph { content := Inline.pushRun {} (escapeText t) {} }) =
      s.addBlock (plainBlock t) := by
  have hfinish : (Inline.pushRun {} (escapeText t) {}).finish = escapeText t := by
    cases escapeText t <;> rfl
  rw [← allBlank_escapeText] at ht
  rw [closeParagraph_inParagraph hs.paragraph, hfinish, State.placeText, ht, State.place, hcell]
  rfl

theorem reads_plainParagraph (hs : s.IsBetween) (hcell : s.cell? = none) {p : Attributes × Text}
    (hp : p.2.allBlank = false) :
    Reads σ s (plainParagraph p).events (s.addBlock (plainBlock p.2)) := by
  have hidle : (s.inParagraph {}).IsIdle := { hs with }
  have hopen : openElement σ (Attributes.nil.tag runName) (s.inParagraph {}) =
      (s.inParagraph {}).inRun {} [] := by
    obtain ⟨-, -, -, hdepth⟩ := hs
    cases s
    cases hdepth
    rfl
  have htext := reads_text (σ := σ) hidle (show Element.ofName textName.text = .text by decide)
    p.1 {} p.2
  have hrun := Reads.element runName .nil hidle.skipDepth (by decide) hopen htext.singleton
    hidle.skipDepth (closeElement_run hidle {} (escapeText p.2))
  rw [State.onInline_inParagraph hs.links] at hrun
  exact Reads.element paragraphName .nil hs.skipDepth (by decide) rfl hrun.singleton hs.skipDepth
    (closeParagraph_plain hs hcell hp)

theorem reads_plainParagraphs (hs : s.IsBetween) (hcell : s.cell? = none)
    {ps : List (Attributes × Text)} (hps : ∀ p ∈ ps, p.2.allBlank = false) :
    Reads σ s (Content.eventsAll (ps.map plainParagraph))
      { s with blocks := s.blocks ++ ps.map fun p => plainBlock p.2 } := by
  induction ps generalizing s with
  | nil =>
    simp only [List.map_nil, List.append_nil]
    exact Reads.nil
  | cons p ps ih =>
    rw [List.forall_mem_cons] at hps
    have hfirst := reads_plainParagraph (σ := σ) hs hcell hps.1
    have hrest := ih (s := s.addBlock (plainBlock p.2)) { hs with } hcell hps.2
    have hboth := hfirst.cons hrest
    rw [State.addBlock, List.append_assoc] at hboth
    exact hboth

theorem readPart_plainXml {ps : List (Attributes × Text)}
    (hps : ∀ p ∈ ps, p.2.allBlank = false) :
    readPart σ (Xml.scan (plainXml ps).render) =
      .ok { blocks := ps.map fun p => plainBlock p.2 } := by
  have hstart : State.IsBetween {} := ⟨⟨rfl, rfl, rfl, rfl, rfl⟩, rfl, rfl, rfl⟩
  have hread := reads_plainParagraphs (σ := σ) hstart rfl hps
  have hbody := Reads.element bodyName .nil rfl (by decide) rfl hread rfl rfl
  rw [readPart_eq_ok, Content.scan_render]
  exact ⟨Reads.element documentName .nil rfl (by decide) rfl hbody.singleton rfl rfl, rfl⟩

end

theorem renderBlocks_plain (ts : List Text) :
    renderBlocks (ts.map plainBlock) = Html.paragraphs ts := by
  induction ts with
  | nil => rfl
  | cons t ts ih =>
    show [] ++ enclose "p" (escapeText t) ++ renderBlocks (ts.map plainBlock) = _
    rw [ih]
    rfl

theorem readContents_plain {package : Package} (profile : Profile)
    {ps : List (Attributes × Text)} (hps : ∀ p ∈ ps, p.2.allBlank = false)
    (hdocument : package.text? documentPart = .ok (some (plainXml ps).render))
    (hrelationships : ∃ rels,
      readOptional package documentRelationshipsPart [] Relationships.ofScan = .ok rels)
    (hnumbering : ∃ numbering,
      readOptional package numberingPart [] Numbering.ofScan = .ok numbering)
    (hnotes : package.text? footnotesPart = .ok none) :
    ∃ seen, readContents package profile = .ok ⟨ps.map fun p => plainBlock p.2, [], seen⟩ := by
  obtain ⟨rels, hrels⟩ := hrelationships
  obtain ⟨numbering, hnumbering⟩ := hnumbering
  have hread := readPart_plainXml (σ := ⟨rels, numbering, profile⟩) hps
  have hnone : readNotes package numbering profile = .ok [] := by
    rw [readNotes, hnotes]
    rfl
  refine ⟨List.replicate (Relationships.countKind "/header" rels) .header ++
    List.replicate (Relationships.countKind "/footer" rels) .footer ++ [], ?_⟩
  unfold readContents
  rw [hdocument, hrels, hnumbering]
  show (inPart documentPart (readPart ⟨rels, numbering, profile⟩ _) >>= fun s =>
    readNotes package numbering profile >>= fun notes => _) = _
  rw [hread]
  show (readNotes package numbering profile >>= fun notes => _) = _
  rw [hnone]
  rfl

/-- The snapshot has a paragraph for each text. -/
theorem snapshot_plain {package : Package} {profile : Profile} {ps : List (Attributes × Text)}
    {seen : List Feature}
    (h : readContents package profile = .ok ⟨ps.map fun p => plainBlock p.2, [], seen⟩) :
    ∃ s, snapshot package profile = .ok s ∧ s.html = Html.paragraphs (ps.map Prod.snd) := by
  have hmap : (ps.map fun p => plainBlock p.2) = (ps.map Prod.snd).map plainBlock := by
    rw [List.map_map]
    rfl
  refine ⟨⟨Contents.html ⟨ps.map fun p => plainBlock p.2, [], seen⟩, some (.ofSeen seen 0)⟩, ?_, ?_⟩
  · rw [snapshot, h]
    rfl
  · show renderBlocks (ps.map fun p => plainBlock p.2) ++ renderFootnotes [] = _
    rw [hmap, renderBlocks_plain]
    exact List.append_nil _

end MarkdownExport.Word

namespace MarkdownExport.Markdown

theorem rawMarkdown_paragraphs {dialect : Dialect} (ts : List Text) :
    rawMarkdown dialect [] (ts.map fun t => .element "p" [] [.text t]) =
      escape (ts.flatMap fun t => t ++ "\n\n") := by
  induction ts with
  | nil => rfl
  | cons t ts ih =>
    rw [rawMarkdown] at ih ⊢
    rw [List.map_cons, blockAll_cons, ih, List.flatMap_cons, escape_append, escape_append]
    have hrule : blockNode dialect (defaultRules.merge []) (.element "p" [] [.text t]) =
        inlineAll dialect [.text t] ++ "\n\n" := rfl
    rw [hrule, inlineAll_cons, inlineAll_nil, List.append_nil]
    rfl

end MarkdownExport.Markdown

namespace MarkdownExport
open Word
open Markdown (escape normalize)

theorem convertHtml_paragraphs {o : Options} (hrules : o.rules.getD [] = []) {ts : List Text}
    (h : ∀ t ∈ ts, Html.IsPlain t) :
    (convertHtml o (Html.paragraphs ts)).markdown =
      escape (normalize (ts.flatMap fun t => t ++ "\n\n")) := by
  rw [convertHtml, Html.parse_paragraphs h]
  show Markdown.normalize (Markdown.rawMarkdown o.dialect (o.rules.getD [])
    (ts.map fun t => .element "p" [] [.text t])) = _
  rw [hrules, Markdown.rawMarkdown_paragraphs, Markdown.normalize_escape]

/-- A document of plain paragraphs becomes its texts, each with an empty line behind it, with their
spacing normalized and their punctuation escaped, in either dialect and with any profile. Where no
frontmatter is wanted, that is all that is written. -/
theorem convertWord_plainXml {o : WordOptions} {package : Package}
    {ps : List (Xml.Attributes × Text)} (hplain : ∀ p ∈ ps, Html.IsPlain p.2)
    (hrules : o.markdown.rules.getD [] = [])
    (hdocument : package.text? documentPart = .ok (some (plainXml ps).render))
    (hrelationships : ∃ rels,
      readOptional package documentRelationshipsPart [] Relationships.ofScan = .ok rels)
    (hnumbering : ∃ numbering,
      readOptional package numberingPart [] Numbering.ofScan = .ok numbering)
    (hnotes : package.text? footnotesPart = .ok none) :
    ∃ c, convertWord o package = .ok c ∧
      c.markdown = escape (normalize (ps.flatMap fun p => p.2 ++ "\n\n")) ∧
      (o.markdown.frontmatter = false → c.document = c.markdown) := by
  obtain ⟨seen, hread⟩ := readContents_plain o.profile
    (fun p hp => (hplain p hp).notBlank) hdocument hrelationships hnumbering hnotes
  obtain ⟨s, hs, hhtml⟩ := snapshot_plain hread
  have hmarkdown : (convertHtml o.markdown (Html.paragraphs (ps.map Prod.snd))).markdown =
      escape (normalize ((ps.map Prod.snd).flatMap fun t => t ++ "\n\n")) := by
    apply convertHtml_paragraphs hrules
    rw [List.forall_mem_map]
    exact hplain
  rw [List.flatMap_map, ← hhtml] at hmarkdown
  refine ⟨convertSnapshot o s, ?_, hmarkdown, ?_⟩
  · rw [convertWord, hs]
    rfl
  · intro hfrontmatter
    have hnone : (convertSnapshot o s).frontmatter = none := by
      show (if o.markdown.frontmatter then some _ else none) = none
      rw [hfrontmatter]
      rfl
    rw [ConvertedWord.document, hnone]

/-- Texts with the marks of XML, HTML and Markdown, and with blanks at their ends. -/
def markedTexts : List (Xml.Attributes × Text) :=
  [(.nil, "1 < 2 &amp; _x_"), (.nil, " #\n\n\n[\"y\"] ")]

def markedPackage : Package := .ofTexts [(documentPart, (plainXml markedTexts).render)]

theorem convertWord_markedTexts :
    (∀ p ∈ markedTexts, Html.IsPlain p.2) ∧
      ∃ c, convertWord {} markedPackage = .ok c ∧
        c.document = "1 < 2 &amp; \\_x\\_\n\n \\#\n\n\\[\"y\"\\]\n" := by
  have hplain : ∀ p ∈ markedTexts, Html.IsPlain p.2 := by
    intro p hp
    simp only [markedTexts, List.mem_cons, List.not_mem_nil, or_false] at hp
    rcases hp with rfl | rfl
    · exact ⟨by decide, by decide, by decide⟩
    · exact ⟨by decide, by decide, by decide⟩
  have hdocument : markedPackage.text? documentPart =
      .ok (some (plainXml markedTexts).render) := by
    rw [markedPackage, Package.text?_ofTexts]
    rfl
  have hmissing {part : Text} (hpart : part ≠ documentPart) :
      markedPackage.text? part = .ok none := by
    rw [markedPackage, Package.text?_ofTexts, Dictionary.find?, if_neg hpart.symm]
    rfl
  have hrelationships : readOptional markedPackage documentRelationshipsPart []
      Relationships.ofScan = .ok [] := by
    rw [readOptional, hmissing (by decide)]
    rfl
  have hnumbering : readOptional markedPackage numberingPart [] Numbering.ofScan = .ok [] := by
    rw [readOptional, hmissing (by decide)]
    rfl
  obtain ⟨c, hc, hmarkdown, hwhole⟩ := convertWord_plainXml (o := {}) hplain rfl hdocument
    ⟨[], hrelationships⟩ ⟨[], hnumbering⟩ (hmissing (by decide))
  refine ⟨hplain, c, hc, ?_⟩
  rw [hwhole rfl, hmarkdown]
  decide +kernel

end MarkdownExport
