import MarkdownExport.Proofs.Word.Url
import MarkdownExport.Proofs.Word.WellFormed

/-! The links of a snapshot. A `<` of a snapshot belongs to a tag, so whatever looks like a link is
one, with a value that the vocabulary allows. -/
namespace MarkdownExport.Word

/-- Text in which every link has a value that `P` holds of. -/
inductive Links (P : Text → Prop) : Text → Prop
  | nil : Links P []
  | scalar {c : Char} {t : Text} : c ≠ '<' → Links P t → Links P (c :: t)
  | tag {c : Char} {t : Text} : c ≠ 'a' → Links P (c :: t) → Links P ('<' :: c :: t)
  | link {v t : Text} : P v → '<' ∉ v → '"' ∉ v → Links P t → Links P (linkTag v ++ t)

namespace Links
variable {P : Text → Prop} {s t : Text}

theorem append (hs : Links P s) (ht : Links P t) : Links P (s ++ t) := by
  induction hs with
  | nil => exact ht
  | scalar hc _ ih => exact .scalar hc ih
  | tag hc _ ih => exact .tag hc ih
  | link hv hopen hquote _ ih =>
    rw [List.append_assoc]
    exact .link hv hopen hquote ih

theorem of_plain (h : '<' ∉ s) : Links P s := by
  induction s with
  | nil => exact .nil
  | cons c s ih =>
    obtain ⟨hc, hs⟩ := not_or.mp (List.mem_cons.not.mp h)
    exact .scalar (Ne.symm hc) (ih hs)

/-- A tag other than a link's, with nothing else in it. -/
theorem of_tag {c : Char} (hc : c ≠ 'a') (h : '<' ∉ c :: s) : Links P ('<' :: c :: s) :=
  .tag hc (of_plain h)

theorem linkTag_eq (v : Text) : linkTag v = '<' :: ("a href=\"" ++ v ++ "\">") := rfl

theorem linkTag_append (v t : Text) :
    linkTag v ++ t = ("<a href=\"" : Text) ++ (v ++ '"' :: '>' :: t) := by
  unfold linkTag
  rw [List.append_assoc, List.append_assoc]
  rfl

/-- A `<` that comes after a text without one comes after all of that text. -/
theorem exists_eq_append {a b u : Text} (ha : '<' ∉ a) {w : Text} (h : a ++ b = u ++ '<' :: w) :
    ∃ u', u = a ++ u' ∧ b = u' ++ '<' :: w := by
  rcases List.append_eq_append_iff.mp h with ⟨r, hu, hb⟩ | ⟨r, hr, hw⟩
  · exact ⟨r, hu, hb⟩
  · cases r with
    | nil => exact ⟨[], by simpa using hr.symm, by simpa using hw.symm⟩
    | cons c r =>
      obtain rfl : '<' = c := by simpa using congrArg List.head? hw
      exact absurd (hr ▸ by simp) ha

/-- The values of two links at one place are the same. -/
theorem eq_of_linkTag_append {v v' s t : Text} (hv : '"' ∉ v) (hv' : '"' ∉ v')
    (h : linkTag v ++ s = linkTag v' ++ t) : v = v' := by
  have hvalue : v ++ '"' :: '>' :: s = v' ++ '"' :: '>' :: t := by
    rw [linkTag_append, linkTag_append] at h
    exact List.append_cancel_left h
  exact Text.eq_of_append_cons hv hv' hvalue

theorem of_infix (h : Links P t) {u v w : Text} (hquote : '"' ∉ v)
    (ht : t = u ++ (linkTag v ++ w)) : P v := by
  induction h generalizing u with
  | nil => simp [linkTag_eq] at ht
  | scalar hc _ ih =>
    cases u with
    | nil =>
      rw [linkTag_eq] at ht
      exact absurd (List.cons.inj ht).1 hc
    | cons d u => exact ih (List.cons.inj ht).2
  | tag hc _ ih =>
    cases u with
    | nil =>
      rw [linkTag_eq] at ht
      exact absurd (List.cons.inj (List.cons.inj ht).2).1 hc
    | cons d u => exact ih (List.cons.inj ht).2
  | @link v' t' hv' hopen' hquote' _ ih =>
    cases u with
    | nil => exact eq_of_linkTag_append hquote hquote' ht.symm ▸ hv'
    | cons d u =>
      rw [linkTag_eq, List.cons_append] at ht
      have htail := (List.cons.inj ht).2
      have hplain : '<' ∉ ("a href=\"" ++ v' ++ "\">" : Text) := by simp [hopen']
      rw [linkTag_eq, List.cons_append] at htail
      obtain ⟨u', rfl, hrest⟩ := exists_eq_append hplain htail
      exact ih hrest

end Links

/-! Every rule of the grammar gives such text. -/

section Grammar
variable {P : Text → Prop} {V : Vocabulary} {t : Text} {ns : List Node}

theorem IsText.links (h : IsText t) : Links P t := .of_plain h.noOpening

/-- The names of elements other than links. -/
def IsPlainName (name : Text) : Prop := name ≠ [] ∧ name.head? ≠ some 'a' ∧ '<' ∉ name

theorem openTag_links {name : Text} (h : IsPlainName name) : Links P (openTag name) := by
  obtain ⟨hne, hhead, hopen⟩ := h
  obtain ⟨c, cs, rfl⟩ := List.exists_cons_of_ne_nil hne
  refine .of_tag (fun hc => hhead (by simp [hc])) ?_
  simpa using hopen

theorem closeTag_links {name : Text} (h : '<' ∉ name) : Links P (closeTag name) := by
  change Links P ('<' :: '/' :: (name ++ ['>']))
  exact .of_tag (by decide) (by simp [h])

theorem enclose_links {name : Text} (h : IsPlainName name) (ht : Links P t) :
    Links P (enclose name t) :=
  ((openTag_links h).append ht).append (closeTag_links h.2.2)

theorem Mark.tag_isPlainName (mark : Mark) : IsPlainName mark.tag := by
  cases mark with
  | strong => exact ⟨by decide, by decide, by decide⟩
  | emphasis => exact ⟨by decide, by decide, by decide⟩
  | deleted => exact ⟨by decide, by decide, by decide⟩
  | superscript => exact ⟨by decide, by decide, by decide⟩

theorem imageTag_links {source : Text} {description : Option Text} (hs : IsValue source)
    (hd : ∀ d ∈ description, IsValue d) : Links P (imageTag source description) := by
  have hplain : '<' ∉ source := hs.encoded.noOpening
  cases description with
  | none =>
    change Links P ('<' :: 'i' :: ("mg src=\"" ++ source ++ "\"" ++ ([] : Text) ++ "/>"))
    exact .of_tag (by decide) (by simp [hplain])
  | some d =>
    have hplain' : '<' ∉ d := (hd d rfl).encoded.noOpening
    change Links P ('<' :: 'i' ::
      ("mg src=\"" ++ source ++ "\"" ++ (" alt=\"" ++ d ++ "\"") ++ "/>"))
    exact .of_tag (by decide) (by simp [hplain, hplain'])

theorem InlineHtml.links (h : InlineHtml V t ns) : Links V.link t := by
  induction h with
  | nil => exact .nil
  | append _ _ ihs iht => exact ihs.append iht
  | text ht => exact ht.links
  | lineBreak => exact .of_tag (by decide) (by decide)
  | image _ hs hd => exact imageTag_links hs hd
  | marked mark _ ih => exact enclose_links mark.tag_isPlainName ih
  | link hv hlink _ ih =>
    rw [List.append_assoc]
    exact .link hlink hv.encoded.noOpening hv.noQuote (ih.append (closeTag_links (by decide)))

theorem flatMap_links {α : Type} {xs : List α} {f : α → Text} (h : ∀ x ∈ xs, Links P (f x)) :
    Links P (xs.flatMap f) := by
  induction xs with
  | nil => exact .nil
  | cons x xs ih =>
    rw [List.flatMap_cons]
    exact (h x List.mem_cons_self).append (ih fun y hy => h y (List.mem_cons_of_mem x hy))

theorem tableTag_links {rows : List (List (Text × List Node))}
    (h : ∀ row ∈ rows, ∀ c ∈ row, Links P c.1) : Links P (tableTag rows) := by
  have hname : ∀ name ∈ (["table", "tr", "td"] : List Text), IsPlainName name := by
    unfold IsPlainName
    decide
  refine enclose_links (hname _ (by simp)) (flatMap_links fun row hrow => ?_)
  refine enclose_links (hname _ (by simp)) (flatMap_links fun c hc => ?_)
  exact enclose_links (hname _ (by simp)) (h row hrow c hc)

theorem FlowHtml.links (h : FlowHtml V t ns) : Links V.link t := by
  induction h with
  | nil => exact .nil
  | append _ _ ihs iht => exact ihs.append iht
  | inline hi => exact hi.links
  | table _ _ ih => exact tableTag_links ih

theorem ItemsHtml.links (h : ItemsHtml V t ns) : Links V.link t := by
  induction h with
  | nil => exact .nil
  | cons hi _ ih => exact (enclose_links ⟨by decide, by decide, by decide⟩ hi.links).append ih

theorem heading_isPlainName (level : Nat) : IsPlainName ('h' :: decimal level) :=
  ⟨by simp, by simp, by simpa using (decimal_isText level).noOpening⟩

theorem listTag_isPlainName (ordered : Bool) : IsPlainName (listTag ordered) := by
  cases ordered with
  | false => exact ⟨by decide, by decide, by decide⟩
  | true => exact ⟨by decide, by decide, by decide⟩

theorem BlockHtml.links {n : Node} (h : BlockHtml V t n) : Links V.link t := by
  cases h with
  | paragraph hi => exact enclose_links ⟨by decide, by decide, by decide⟩ hi.links
  | heading _ _ hi => exact enclose_links (heading_isPlainName _) hi.links
  | list ordered hitems _ => exact enclose_links (listTag_isPlainName ordered) hitems.links
  | table hcells _ => exact tableTag_links fun row hrow c hc => (hcells row hrow c hc).links

theorem BlocksHtml.links (h : BlocksHtml V t ns) : Links V.link t := by
  induction h with
  | nil => exact .nil
  | cons hb _ ih => exact hb.links.append ih

theorem noteTag_links {id : Text} (h : IsValue id) :
    Links P ("<li data-word-footnote-id=\"" ++ id ++ "\">") := by
  have hplain : '<' ∉ id := h.encoded.noOpening
  change Links P ('<' :: 'l' :: (("i data-word-footnote-id=\"" : Text) ++ id ++ "\">"))
  exact .of_tag (by decide) (by simp [hplain])

theorem noteNumber_links (k : Nat) : Links P (noteNumber k) := by
  have hplain : '<' ∉ decimal k := (decimal_isText k).noOpening
  exact .of_plain (by simp [noteNumber, hplain])

theorem NotesHtml.links {k : Nat} (h : NotesHtml V k t ns) : Links V.link t := by
  induction h with
  | nil => exact .nil
  | @cons k _ _ _ _ _ hid hcontent _ _ ih =>
    obtain ⟨cs, hcs⟩ := hcontent
    have hitem := ((noteTag_links hid).append (noteNumber_links k)).append hcs.links
    exact (hitem.append (closeTag_links (by decide))).append ih

theorem SectionHtml.links (h : SectionHtml V t ns) : Links V.link t := by
  cases h with
  | none => exact .nil
  | notes hnotes _ =>
    have hstart : Links V.link "<section data-word-footnotes=\"true\">" :=
      .of_tag (by decide) (by decide)
    have hlist := enclose_links (listTag_isPlainName true) hnotes.links
    exact (hstart.append hlist).append (closeTag_links (by decide))

theorem PageHtml.links (h : PageHtml V t ns) : Links V.link t := by
  cases h with
  | mk hblocks hsection => exact hblocks.links.append hsection.links

end Grammar

theorem contents_link {package : Package} {profile : Profile} {c : Contents}
    (h : readContents package profile = .ok c) {v : Text} (hquote : '"' ∉ v)
    (hv : linkTag v <:+: c.html) : profile.vocabulary.link v := by
  obtain ⟨ns, hns⟩ := contents_page h
  obtain ⟨before, after, hhtml⟩ := hv
  rw [List.append_assoc] at hhtml
  exact hns.links.of_infix hquote hhtml.symm

/-- A link of a strict snapshot is a script exactly if it hides its scheme. -/
theorem strict_link_isScriptUrl_iff {package : Package} {s : Snapshot}
    (h : snapshot package .strict = .ok s) {v : Text} (hquote : '"' ∉ v)
    (hv : linkTag v <:+: s.html) :
    IsScriptUrl (Html.decode true v) ↔ HidesScheme (Html.decode true v) := by
  obtain ⟨c, hc, hs⟩ := snapshot_eq_ok h
  rw [hs] at hv
  obtain ⟨given, url, hurl, rfl⟩ := contents_link hc hquote hv
  rw [decode_escapeValue]
  exact isScriptUrl_iff_hidesScheme hurl

/-- A package whose only link goes to a target. -/
def linkPackage (target : Text) : Package := .ofTexts
  [(documentPart, "<w:p><w:hyperlink r:id='r'>" ++ "<w:r><w:t>x</w:t></w:r>" ++
      "</w:hyperlink></w:p>"),
   (documentRelationshipsPart, "<Relationship Id='r' Target='" ++ target ++ "'/>")]

/-- Blanks around a target do not last, and it is no script. -/
theorem strict_link_harmless : ∃ s, snapshot (linkPackage " #a&amp;b ") .strict = .ok s ∧
    linkTag "#a&amp;b" <:+: s.html ∧ ¬ IsScriptUrl (Html.decode true "#a&amp;b") := by
  have h : (snapshot (linkPackage " #a&amp;b ") .strict).toOption.map Snapshot.html =
      some "<p><a href=\"#a&amp;b\">x</a></p>" := by
    simp only [snapshot, readContents, readNotes, readOptional, linkPackage, Package.text?_ofTexts]
    decide +kernel
  obtain ⟨s, hs, hhtml⟩ := exists_snapshot h
  have hlink : linkTag "#a&amp;b" <:+: s.html := by
    rw [hhtml]
    decide +kernel
  refine ⟨s, hs, hlink, ?_⟩
  rw [strict_link_isScriptUrl_iff hs (by decide) hlink]
  decide +kernel

/-- A tab in its scheme leaves a script in a strict snapshot. -/
theorem strict_link_hidden : ∃ s, snapshot (linkPackage "java&#9;script:f()") .strict = .ok s ∧
    linkTag "java\tscript:f()" <:+: s.html ∧
    IsScriptUrl (Html.decode true "java\tscript:f()") := by
  have h : (snapshot (linkPackage "java&#9;script:f()") .strict).toOption.map Snapshot.html =
      some "<p><a href=\"java\tscript:f()\">x</a></p>" := by
    simp only [snapshot, readContents, readNotes, readOptional, linkPackage, Package.text?_ofTexts]
    decide +kernel
  obtain ⟨s, hs, hhtml⟩ := exists_snapshot h
  refine ⟨s, hs, ?_, by decide +kernel⟩
  rw [hhtml]
  decide +kernel

end MarkdownExport.Word
