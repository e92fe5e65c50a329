import MarkdownExport.Proofs.Word.Invariant

/-! The text of inline HTML: what is left without its tags, decoded. Marks and links do not change
the text that they are put around. -/
namespace MarkdownExport.Word

/-- The text outside tags. -/
def stripTags (inTag : Bool) : Text → Text
  | [] => []
  | c :: t =>
    if inTag then stripTags (c != '>') t
    else if c = '<' then stripTags true t
    else c :: stripTags false t

def plainText (html : Text) : Text := Html.decode false (stripTags false html)

theorem stripTags_text {s : Text} (h : '<' ∉ s) (rest : Text) :
    stripTags false (s ++ rest) = s ++ stripTags false rest := by
  induction s with
  | nil => rfl
  | cons c s ih =>
    rw [List.mem_cons, not_or] at h
    rw [List.cons_append, stripTags, if_neg Bool.false_ne_true, if_neg (Ne.symm h.1), ih h.2]
    rfl

theorem stripTags_inTag {s : Text} (h : '>' ∉ s) (rest : Text) :
    stripTags true (s ++ '>' :: rest) = stripTags false rest := by
  induction s with
  | nil => rfl
  | cons c s ih =>
    rw [List.mem_cons, not_or] at h
    have hc : (c != '>') = true := by simpa using Ne.symm h.1
    rw [List.cons_append, stripTags, if_pos rfl, hc, ih h.2]

/-- Without its tags `html` is the text `u`, whatever comes behind it. -/
def Shows (html u : Text) : Prop :=
  ∀ rest, stripTags false (html ++ rest) = escapeText u ++ stripTags false rest

namespace Shows
variable {s t u v : Text}

theorem plainText_eq (h : Shows s u) : plainText s = u := by
  have hs := h []
  rw [List.append_nil, stripTags, List.append_nil] at hs
  rw [plainText, hs, decode_escapeText]

theorem nil : Shows [] [] := fun _ => rfl

theorem append (hs : Shows s u) (ht : Shows t v) : Shows (s ++ t) (u ++ v) := by
  intro rest
  rw [List.append_assoc, hs, ht, escapeText_append, List.append_assoc]

theorem tag (inner : Text) (h : '>' ∉ inner) : Shows ('<' :: (inner ++ ['>'])) [] := by
  intro rest
  rw [List.cons_append, List.append_assoc, stripTags, if_neg Bool.false_ne_true, if_pos rfl]
  exact stripTags_inTag h rest

theorem escapeText (u : Text) : Shows (escapeText u) u :=
  stripTags_text (escapeText_isText u).noOpening

theorem element {name : Text} (hname : '>' ∉ name) (h : Shows t u) :
    Shows (MarkdownExport.Word.enclose name t) u := by
  have hopen : Shows (openTag name) [] := tag name hname
  have hclose : Shows (closeTag name) [] := tag ('/' :: name) (by simpa using hname)
  rw [← List.append_nil u]
  exact (hopen.append h).append hclose

theorem enclose (mark : Mark) (h : Shows t u) : Shows (enclose mark.tag t) u :=
  h.element (by cases mark <;> decide)

end Shows

theorem linkTag_shows {v : Text} (hv : IsValue v) : Shows (linkTag v) [] := by
  have hinner : '>' ∉ ("a href=\"" : Text) ++ v ++ ['"'] := by
    simp only [List.mem_append, not_or]
    exact ⟨⟨by decide, hv.encoded.noClosing⟩, by decide⟩
  have hopen : ("<a href=\"" : Text) = '<' :: ("a href=\"" : Text) := by decide
  have hclose : ("\">" : Text) = ['"'] ++ ['>'] := by decide
  have htag : linkTag v = '<' :: (("a href=\"" : Text) ++ v ++ ['"'] ++ ['>']) := by
    unfold linkTag
    rw [hopen, hclose, List.cons_append, List.cons_append, ← List.append_assoc _ _ ['>']]
  rw [htag]
  exact .tag _ hinner

theorem imageTag_shows {source : Text} {description : Option Text} (hsource : IsValue source)
    (hdescription : ∀ d ∈ description, IsValue d) : Shows (imageTag source description) [] := by
  have halt (alt : Text) (h : '>' ∉ alt) :
      Shows (("<img src=\"" : Text) ++ source ++ ("\"" : Text) ++ alt ++ ("/>" : Text)) [] := by
    have hinner : '>' ∉ ("img src=\"" : Text) ++ source ++ ("\"" : Text) ++ alt ++ ['/'] := by
      simp only [List.mem_append, not_or]
      exact ⟨⟨⟨⟨by decide, hsource.encoded.noClosing⟩, by decide⟩, h⟩, by decide⟩
    have hopen : ("<img src=\"" : Text) = '<' :: ("img src=\"" : Text) := by decide
    have hclose : ("/>" : Text) = ['/'] ++ ['>'] := by decide
    rw [hopen, hclose, ← List.append_assoc _ ['/']]
    simp only [List.cons_append]
    exact .tag _ hinner
  cases description with
  | none => exact halt [] (by simp)
  | some d =>
    refine halt (" alt=\"" ++ d ++ "\"") ?_
    simp only [List.mem_append, not_or]
    exact ⟨⟨by decide, (hdescription d rfl).encoded.noClosing⟩, by decide⟩

theorem IsText.of_append {s t : Text} (h : IsText (s ++ t)) : IsText t where
  noOpening hm := h.noOpening (List.mem_append_right s hm)
  noClosing hm := h.noClosing (List.mem_append_right s hm)
  entity before after ht := h.entity (s ++ before) after (by rw [ht, List.append_assoc])

/-- Text that cannot be taken for markup is some text in its escaped form. -/
theorem IsText.exists_escapeText (t : Text) (h : IsText t) : ∃ u, t = escapeText u := by
  match t with
  | [] => exact ⟨[], rfl⟩
  | c :: t =>
    by_cases hc : c = '&'
    · subst hc
      obtain ⟨name, hname, rest, rfl⟩ := h.entity [] t rfl
      have hrest : IsText rest := h.of_append (s := '&' :: name)
      obtain ⟨u, rfl⟩ := exists_escapeText rest hrest
      simp only [List.mem_cons, List.not_mem_nil, or_false] at hname
      rcases hname with rfl | rfl | rfl
      · exact ⟨'&' :: u, rfl⟩
      · exact ⟨'<' :: u, rfl⟩
      · exact ⟨'>' :: u, rfl⟩
    · obtain ⟨u, hu⟩ := exists_escapeText t (h.of_append (s := [c]))
      have hplain : markupEscape c = [c] := by
        have hopen : c ≠ '<' := by
          rintro rfl
          exact h.noOpening List.mem_cons_self
        have hclose : c ≠ '>' := by
          rintro rfl
          exact h.noClosing List.mem_cons_self
        unfold markupEscape
        split <;> simp_all
      exact ⟨c :: u, by rw [escapeText_cons, hplain, hu]; rfl⟩
termination_by t.length

variable {V : Vocabulary} {s t : Text}

theorem InlineHtml.exists_shows {ns : List Node} (h : InlineHtml V t ns) : ∃ u, Shows t u := by
  induction h with
  | nil => exact ⟨_, .nil⟩
  | append _ _ ihs iht =>
    obtain ⟨u, hu⟩ := ihs
    obtain ⟨v, hv⟩ := iht
    exact ⟨_, hu.append hv⟩
  | text ht =>
    obtain ⟨u, rfl⟩ := ht.exists_escapeText
    exact ⟨u, .escapeText u⟩
  | lineBreak => exact ⟨_, .tag "br/" (by decide)⟩
  | image _ hsource hdescription => exact ⟨_, imageTag_shows hsource hdescription⟩
  | marked mark _ ih =>
    obtain ⟨u, hu⟩ := ih
    exact ⟨u, hu.enclose mark⟩
  | link hv _ _ ih =>
    obtain ⟨u, hu⟩ := ih
    have hclose : Shows (closeTag "a") [] := .tag "/a" (by decide)
    exact ⟨_, ((linkTag_shows hv).append hu).append hclose⟩

theorem IsInline.shows (h : IsInline V t) : Shows t (plainText t) := by
  obtain ⟨ns, hns⟩ := h
  obtain ⟨u, hu⟩ := hns.exists_shows
  rwa [hu.plainText_eq]

@[simp] theorem plainText_nil : plainText [] = [] := rfl

@[simp] theorem plainText_escapeText (t : Text) : plainText (escapeText t) = t :=
  (Shows.escapeText t).plainText_eq

theorem plainText_append (hs : IsInline V s) (ht : IsInline V t) :
    plainText (s ++ t) = plainText s ++ plainText t :=
  (hs.shows.append ht.shows).plainText_eq

theorem plainText_encloseIf (h : IsInline V t) (wanted : Bool) (mark : Mark) :
    plainText (encloseIf wanted mark.tag t) = plainText t := by
  unfold encloseIf
  split
  · exact (h.shows.enclose mark).plainText_eq
  · rfl

theorem plainText_wrap (h : IsInline V t) (f : RunFormat) : plainText (f.wrap t) = plainText t := by
  have hsup := h.encloseIf f.superscript .superscript
  have hdel := hsup.encloseIf f.strike .deleted
  have hem := hdel.encloseIf f.italic .emphasis
  exact (plainText_encloseIf hem f.bold .strong).trans <|
    (plainText_encloseIf hdel f.italic .emphasis).trans <|
    (plainText_encloseIf hsup f.strike .deleted).trans <|
    plainText_encloseIf h f.superscript .superscript

theorem plainText_linkMarkup (h : IsInline V t) (target : Option Text) :
    plainText (linkMarkup target t) = plainText t := by
  unfold linkMarkup
  split
  next target =>
    split
    · rfl
    · have hclose : Shows (closeTag "a") [] := .tag "/a" (by decide)
      have hlink := ((linkTag_shows (escapeValue_isValue target)).append h.shows).append hclose
      rw [List.nil_append, List.append_nil] at hlink
      exact hlink.plainText_eq
  next => rfl

theorem plainText_imageMarkup (source : Text) (description : Option Text) :
    plainText (imageMarkup source description) = [] := by
  have hdescription : ∀ d ∈ description.map escapeValue, IsValue d := by
    intro d hd
    obtain ⟨e, -, rfl⟩ := Option.map_eq_some_iff.mp hd
    exact escapeValue_isValue e
  have himage := imageTag_shows (escapeValue_isValue source) hdescription
  have htag : imageMarkup source description =
      imageTag (escapeValue source) (description.map escapeValue) := by
    cases description <;> rfl
  rw [htag]
  exact himage.plainText_eq

namespace Inline.IsMarkup
variable {i : Inline}

theorem plainText_pushRun (h : i.IsMarkup V) (ht : IsInline V t) (f : RunFormat) :
    plainText (i.pushRun f t).finish = plainText i.finish ++ plainText t := by
  unfold Inline.pushRun
  split
  next hempty =>
    rw [List.isEmpty_iff.mp hempty]
    simp
  next =>
    split
    next current before hpending =>
      have hbefore := h.pending _ hpending
      split
      · simp only [Inline.finish, hpending]
        rw [plainText_append h.done (hbefore.append ht |>.wrap current),
          plainText_append h.done (hbefore.wrap current), plainText_wrap (hbefore.append ht),
          plainText_wrap hbefore, plainText_append hbefore ht, List.append_assoc]
      · exact (plainText_append h.finish (ht.wrap f)).trans
          (congrArg (plainText i.finish ++ ·) (plainText_wrap ht f))
    next hpending =>
      have hfinish : i.finish = i.done := by simp only [Inline.finish, hpending]
      rw [hfinish]
      exact (plainText_append h.done (ht.wrap f)).trans
        (congrArg (plainText i.done ++ ·) (plainText_wrap ht f))

theorem plainText_pushMarkup (h : i.IsMarkup V) (ht : IsInline V t) :
    plainText (i.pushMarkup t).finish = plainText i.finish ++ plainText t :=
  plainText_append h.finish ht

end Inline.IsMarkup

end MarkdownExport.Word
