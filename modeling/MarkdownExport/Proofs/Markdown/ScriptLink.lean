import MarkdownExport.Markdown.Escape
import MarkdownExport.Proofs.Markdown.Spacing
import MarkdownExport.Proofs.Text.Basic
import MarkdownExport.Word.Link

/-! Live links to scripts in Markdown: the end of a label, the start of a destination and a scheme
without anything between them. Which texts hold none, and which ways of putting texts together give
none. -/
namespace MarkdownExport.Markdown

def IsScriptScheme (scheme : Text) : Prop := scheme.lower ∈ Word.scriptSchemes

def HasScriptLink (t : Text) : Prop := ∃ scheme, IsScriptScheme scheme ∧ ']' :: '(' :: scheme <:+: t

/-- Whether a scalar can stand in a script link behind the bracket that it begins with. -/
def continues (c : Char) : Bool :=
  c == '(' || Word.scriptSchemes.any fun scheme => decide (c.toLower ∈ scheme)

theorem IsScriptScheme.continues {scheme : Text} (h : IsScriptScheme scheme) {c : Char}
    (hc : c ∈ '(' :: scheme) : continues c = true := by
  rcases List.mem_cons.mp hc with rfl | hc
  · rfl
  · have hlower : c.toLower ∈ scheme.lower := List.mem_map_of_mem hc
    have hany : (Word.scriptSchemes.any fun s => decide (c.toLower ∈ s)) = true :=
      List.any_eq_true.mpr ⟨scheme.lower, h, by simpa using hlower⟩
    simp [Markdown.continues, hany]

theorem IsScriptScheme.notMem {scheme : Text} (h : IsScriptScheme scheme) {c : Char}
    (hc : Markdown.continues c = false) : c ∉ '(' :: scheme := by
  intro hmem
  rw [h.continues hmem] at hc
  contradiction

theorem continues_of_isBlank {c : Char} (h : isBlank c = true) : continues c = false := by
  have hlower : c.toLower = c := by
    unfold Char.toLower
    split
    · rename_i hc
      have hlow : 65 ≤ c.toNat := hc.1
      have hhigh : c.toNat ≤ 90 := hc.2
      simp [isBlank] at h
      omega
    · rfl
  have hne (d : Char) (hd : isBlank d = false) : c ≠ d := by
    rintro rfl
    rw [h] at hd
    contradiction
  have hschemes : ∀ scheme ∈ Word.scriptSchemes, ∀ d ∈ scheme, isBlank d = false := by decide
  rw [continues, Bool.or_eq_false_iff, hlower]
  constructor
  · simpa using hne '(' (by decide)
  · rw [List.any_eq_false]
    intro scheme hscheme hmem
    exact hne c (hschemes scheme hscheme c (by simpa using hmem)) rfl

theorem IsScriptScheme.isWord {scheme : Text} (h : IsScriptScheme scheme) :
    IsWord (']' :: '(' :: scheme) where
  nonempty := List.cons_ne_nil _ _
  nonblank := by
    rw [List.forall_mem_cons]
    refine ⟨by decide, fun c hc => ?_⟩
    by_contra hblank
    exact h.notMem (continues_of_isBlank (by simpa using hblank)) hc

namespace HasScriptLink
variable {s t : Text}

theorem mono (h : HasScriptLink s) (hst : s <:+: t) : HasScriptLink t := by
  obtain ⟨scheme, hscheme, hs⟩ := h
  exact ⟨scheme, hscheme, hs.trans hst⟩

theorem not_of_notMem (h : ']' ∉ t) : ¬ HasScriptLink t := by
  rintro ⟨scheme, -, ht⟩
  exact h (ht.subset List.mem_cons_self)

theorem not_nil : ¬ HasScriptLink [] := not_of_notMem List.not_mem_nil

theorem not_cons {c : Char} (ht : ¬ HasScriptLink t)
    (hstart : ∀ scheme, IsScriptScheme scheme → ¬ ']' :: '(' :: scheme <+: c :: t) :
    ¬ HasScriptLink (c :: t) := by
  rintro ⟨scheme, hscheme, h⟩
  rcases List.infix_cons_iff.mp h with h | h
  · exact hstart scheme hscheme h
  · exact ht ⟨scheme, hscheme, h⟩

theorem not_cons_of_ne {c : Char} (hc : c ≠ ']') (ht : ¬ HasScriptLink t) :
    ¬ HasScriptLink (c :: t) := by
  apply not_cons ht
  intro scheme _ h
  exact hc (List.cons_prefix_cons.mp h).1.symm

theorem not_bracket (ht : ¬ HasScriptLink t) (hhead : t.head? ≠ some '(') :
    ¬ HasScriptLink (']' :: t) := by
  apply not_cons ht
  intro scheme _ h
  obtain ⟨rest, rfl⟩ := (List.cons_prefix_cons.mp h).2
  exact hhead rfl

/-- The end of a label and the start of a destination that has another scheme, or none. -/
theorem not_destination (ht : ¬ HasScriptLink t)
    (hscheme : ∀ scheme, IsScriptScheme scheme → ¬ scheme <+: t) :
    ¬ HasScriptLink (']' :: '(' :: t) := by
  apply not_cons (not_cons_of_ne (by decide) ht)
  intro scheme hs h
  exact hscheme scheme hs (List.cons_prefix_cons.mp (List.cons_prefix_cons.mp h).2).2

/-- No script link lies across a place before a scalar that cannot continue one. -/
theorem not_append {c : Char} (hs : ¬ HasScriptLink s) (hc : continues c = false)
    (ht : ¬ HasScriptLink (c :: t)) : ¬ HasScriptLink (s ++ c :: t) := by
  induction s with
  | nil => exact ht
  | cons d s ih =>
    have hrest : ¬ HasScriptLink s := fun h => hs (h.mono (List.suffix_cons d s).isInfix)
    apply not_cons (ih hrest)
    intro scheme hscheme h
    obtain ⟨r, hr⟩ := h
    change (']' :: '(' :: scheme) ++ r = (d :: s) ++ c :: t at hr
    rcases List.append_eq_append_iff.mp hr with ⟨u, hu, -⟩ | ⟨u, hu, hu'⟩
    · exact hs ⟨scheme, hscheme, (List.prefix_append _ u).isInfix.trans (hu ▸ List.infix_rfl)⟩
    · cases u with
      | nil =>
        rw [List.append_nil] at hu
        exact hs ⟨scheme, hscheme, hu ▸ List.infix_rfl⟩
      | cons e u =>
        obtain rfl : c = e := (List.cons.inj hu').1
        have hmem : c ∈ '(' :: scheme := by
          rw [(List.cons.inj hu).2]
          simp
        exact hscheme.notMem hc hmem

/-! Parts of a text, and texts with other blanks. -/

theorem trim_iff : HasScriptLink t.trim ↔ HasScriptLink t :=
  exists_congr fun _ => and_congr_right fun h => h.isWord.isInfix_trim_iff

theorem joined_iff : HasScriptLink (t.replace '\n' [' ']) ↔ HasScriptLink t :=
  exists_congr fun _ => and_congr_right fun h => h.isWord.isInfix_joined_iff

theorem normalize_iff : HasScriptLink (normalize t) ↔ HasScriptLink t :=
  exists_congr fun _ => and_congr_right fun h => h.isWord.isInfix_normalize_iff

end HasScriptLink

/-! Pieces of a line. -/

/-- Text that makes no link to a script with what comes after it, unless that goes on with a
destination. -/
structure Sealed (t : Text) : Prop where
  head : t.head? ≠ some '('
  before : ∀ u, ¬ HasScriptLink u → u.head? ≠ some '(' → ¬ HasScriptLink (t ++ u)

namespace Sealed
variable {s t : Text}

theorem nil : Sealed [] where
  head := by simp
  before _ hu _ := hu

theorem append (hs : Sealed s) (ht : Sealed t) : Sealed (s ++ t) where
  head := by
    cases s with
    | nil => exact ht.head
    | cons c s => exact hs.head
  before u hu hhead := by
    have hrest : (t ++ u).head? ≠ some '(' := by
      cases t with
      | nil => exact hhead
      | cons c t => exact ht.head
    rw [List.append_assoc]
    exact hs.before _ (ht.before u hu hhead) hrest

theorem singleton {c : Char} (hopen : c ≠ '(') (hclose : c ≠ ']') : Sealed [c] where
  head := by simpa using hopen
  before _ hu _ := HasScriptLink.not_cons_of_ne hclose hu

theorem of_plain (h : ∀ c ∈ t, c ≠ '(' ∧ c ≠ ']') : Sealed t := by
  induction t with
  | nil => exact nil
  | cons c t ih =>
    obtain ⟨hopen, hclose⟩ := h c List.mem_cons_self
    exact (singleton hopen hclose).append (ih fun d hd => h d (List.mem_cons_of_mem c hd))

theorem escaped (c : Char) : Sealed ['\\', c] where
  head := by simp
  before u hu hhead := by
    refine HasScriptLink.not_cons_of_ne (by decide) ?_
    by_cases hc : c = ']'
    · rw [hc]
      exact HasScriptLink.not_bracket hu hhead
    · exact HasScriptLink.not_cons_of_ne hc hu

theorem escape (t : Text) : Sealed (Markdown.escape t) := by
  induction t with
  | nil => exact nil
  | cons c t ih =>
    rw [Markdown.escape_cons]
    refine append ?_ ih
    split
    · exact escaped c
    · rename_i hplain
      refine singleton ?_ ?_
      · rintro rfl
        exact hplain (by decide)
      · rintro rfl
        exact hplain (by decide)

theorem not_hasScriptLink (h : Sealed t) : ¬ HasScriptLink t := by
  have := h.before [] HasScriptLink.not_nil (by simp)
  rwa [List.append_nil] at this

/-- A link whose target copies no other and does not begin with a script's scheme. -/
theorem link {label target : Text} (hl : Sealed label) (ht : ¬ HasScriptLink target)
    (hscheme : ∀ scheme, IsScriptScheme scheme → ¬ scheme <+: target) :
    Sealed ("[" ++ label ++ "](" ++ target ++ ")") where
  head := by simp
  before u hu _ := by
    have hend : ¬ HasScriptLink (target ++ ')' :: u) :=
      HasScriptLink.not_append ht (by decide) (HasScriptLink.not_cons_of_ne (by decide) hu)
    have hstart (scheme : Text) (hs : IsScriptScheme scheme) : ¬ scheme <+: target ++ ')' :: u := by
      rintro ⟨r, hr⟩
      rcases List.append_eq_append_iff.mp hr with ⟨v, hv, -⟩ | ⟨v, hv, hu⟩
      · exact hscheme scheme hs ⟨v, hv.symm⟩
      · cases v with
        | nil => exact hscheme scheme hs ⟨[], by simpa using hv⟩
        | cons d v =>
          obtain rfl : ')' = d := (List.cons.inj hu).1
          have hparen := hs.notMem (c := ')') (by decide)
          exact hparen (List.mem_cons_of_mem _ (by simp [hv]))
    have hall := hl.before _ (HasScriptLink.not_destination hend hstart) (by simp)
    have hlink := HasScriptLink.not_cons_of_ne (c := '[') (by decide) hall
    simpa using hlink

end Sealed

/-! Pieces that end their lines. -/

/-- Text that makes no link to a script with what comes after it. -/
def IsClosed (t : Text) : Prop := ∀ u, ¬ HasScriptLink u → ¬ HasScriptLink (t ++ u)

namespace IsClosed
variable {s t : Text}

theorem nil : IsClosed [] := fun _ hu => hu

theorem append (hs : IsClosed s) (ht : IsClosed t) : IsClosed (s ++ t) := by
  intro u hu
  rw [List.append_assoc]
  exact hs _ (ht u hu)

theorem flatMap {α : Type} {xs : List α} {f : α → Text} (h : ∀ x ∈ xs, IsClosed (f x)) :
    IsClosed (xs.flatMap f) := by
  induction xs with
  | nil => exact nil
  | cons x xs ih =>
    rw [List.forall_mem_cons] at h
    rw [List.flatMap_cons]
    exact h.1.append (ih h.2)

theorem of_notMem (h : ']' ∉ t) : IsClosed t := by
  intro u hu
  induction t with
  | nil => exact hu
  | cons c t ih =>
    obtain ⟨hc, ht⟩ := not_or.mp (List.mem_cons.not.mp h)
    exact HasScriptLink.not_cons_of_ne (Ne.symm hc) (ih ht)

/-- No link to a script goes on behind a scalar that cannot continue one. -/
theorem append_of_continues (ht : ¬ HasScriptLink t) {c : Char} (hc : continues c = false)
    (hs : IsClosed (c :: s)) : IsClosed (t ++ c :: s) := by
  intro u hu
  rw [List.append_assoc]
  exact HasScriptLink.not_append ht hc (hs u hu)

theorem bracket {c : Char} (hc : c ≠ '(') (h : IsClosed (c :: t)) : IsClosed (']' :: c :: t) := by
  intro u hu
  exact HasScriptLink.not_bracket (h u hu) (by simpa using hc)

theorem not_hasScriptLink (h : IsClosed t) : ¬ HasScriptLink t := by
  have := h [] HasScriptLink.not_nil
  rwa [List.append_nil] at this

end IsClosed

/-! Links to scripts that come from elsewhere. -/

/-- Text that makes no link to a script of its own, and has those of its sources. -/
structure Copies (sources : List Text) (t : Text) : Prop where
  isClosed : (∀ s ∈ sources, ¬ HasScriptLink s) → IsClosed t
  hasScriptLink : ∀ s ∈ sources, HasScriptLink s → HasScriptLink t

namespace Copies
variable {sources others : List Text} {s t u : Text}

theorem hasScriptLink_iff (h : Copies sources t) :
    HasScriptLink t ↔ ∃ s ∈ sources, HasScriptLink s := by
  constructor
  · intro ht
    by_contra hnone
    refine (h.isClosed fun s hs hlink => ?_).not_hasScriptLink ht
    exact hnone ⟨s, hs, hlink⟩
  · rintro ⟨s, hs, hlink⟩
    exact h.hasScriptLink s hs hlink

theorem nil : Copies [] [] := ⟨fun _ => IsClosed.nil, fun _ hs => nomatch hs⟩

theorem append (hs : Copies sources s) (ht : Copies others t) :
    Copies (sources ++ others) (s ++ t) where
  isClosed h := by
    rw [List.forall_mem_append] at h
    exact (hs.isClosed h.1).append (ht.isClosed h.2)
  hasScriptLink r hr hlink := by
    rcases List.mem_append.mp hr with hr | hr
    · exact (hs.hasScriptLink r hr hlink).mono (List.prefix_append s t).isInfix
    · exact (ht.hasScriptLink r hr hlink).mono (List.suffix_append s t).isInfix

/-- Nothing changes when text without brackets is put around. -/
theorem enclose (h : Copies sources t) (hs : ']' ∉ s) (hu : ']' ∉ u) :
    Copies sources (s ++ t ++ u) where
  isClosed hnone :=
    ((IsClosed.of_notMem hs).append (h.isClosed hnone)).append (IsClosed.of_notMem hu)
  hasScriptLink r hr hlink := (h.hasScriptLink r hr hlink).mono ⟨s, u, rfl⟩

/-- A line with a newline behind it. -/
theorem line (h : HasScriptLink t ↔ ∃ s ∈ sources, HasScriptLink s) :
    Copies sources (t ++ "\n") where
  isClosed hnone := by
    refine IsClosed.append_of_continues (fun ht => ?_) (by decide) (IsClosed.of_notMem (by decide))
    obtain ⟨s, hs, hlink⟩ := h.mp ht
    exact hnone s hs hlink
  hasScriptLink s hs hlink := (h.mpr ⟨s, hs, hlink⟩).mono (List.prefix_append t _).isInfix

end Copies
end MarkdownExport.Markdown
