import Mathlib.Data.List.TakeWhile
import MarkdownExport.Proofs.Text.Basic
import MarkdownExport.Word.Link

/-! What makes an address a script. Readers of addresses pass over controls and blanks in front and
over tabs and line ends anywhere, so a scheme can be hidden from a comparison of its letters. -/
namespace MarkdownExport.Word

def isLeading (c : Char) : Bool := c.toNat ≤ 0x20

def isIgnored (c : Char) : Bool := c == '\t' || c == '\n' || c == '\r'

/-- An address as it is understood. -/
def cleanUrl (url : Text) : Text := (url.dropWhile isLeading).filter fun c => !isIgnored c

def IsScriptUrl (url : Text) : Prop :=
  ∃ scheme ∈ scriptSchemes, scheme <+: Text.lower (cleanUrl url)

instance : DecidablePred IsScriptUrl := fun url =>
  inferInstanceAs (Decidable (∃ scheme ∈ scriptSchemes, scheme <+: Text.lower (cleanUrl url)))

/-- What comes up to the first colon, and the colon. -/
def schemePart (url : Text) : Text :=
  url.takeWhile (· ≠ ':') ++ (url.dropWhile (· ≠ ':')).take 1

/-- A script's scheme with controls or blanks in it. -/
def HidesScheme (url : Text) : Prop :=
  Text.lower (cleanUrl (schemePart url)) ∈ scriptSchemes ∧ ∃ c ∈ schemePart url, isLeading c = true

instance : DecidablePred HidesScheme := fun url =>
  inferInstanceAs (Decidable (_ ∧ ∃ c ∈ schemePart url, isLeading c = true))

theorem startsWith_iff {t head : Text} : Text.startsWith t head = true ↔ head <+: t := by
  unfold Text.startsWith
  constructor
  · intro h
    obtain ⟨rest, hrest⟩ := Option.isSome_iff_exists.mp h
    exact ⟨rest, (Text.dropStart?_eq_some hrest).symm⟩
  · rintro ⟨rest, rfl⟩
    rw [Text.dropStart?_append]
    rfl

theorem schemePart_of_colon {a : Text} (ha : ':' ∉ a) (b : Text) :
    schemePart (a ++ ':' :: b) = a ++ [':'] := by
  have hplain : ∀ c ∈ a, decide (c ≠ ':') = true := by
    intro c hc
    have : c ≠ ':' := fun h => ha (h ▸ hc)
    simp [this]
  rw [schemePart, List.takeWhile_append_of_pos hplain, List.dropWhile_append_of_pos hplain]
  simp

theorem schemePart_of_no_colon {a : Text} (ha : ':' ∉ a) : schemePart a = a := by
  have hplain : ∀ c ∈ a, decide (c ≠ ':') = true := by
    intro c hc
    have : c ≠ ':' := fun h => ha (h ▸ hc)
    simp [this]
  rw [schemePart, List.takeWhile_eq_self_iff.mpr hplain, List.dropWhile_eq_nil_iff.mpr hplain]
  simp

theorem schemePart_isPrefix (url : Text) : schemePart url <+: url := by
  refine ⟨(url.dropWhile (· ≠ ':')).drop 1, ?_⟩
  rw [schemePart, List.append_assoc, List.take_append_drop, List.takeWhile_append_dropWhile]

theorem toLower_eq_colon (c : Char) : c.toLower = ':' ↔ c = ':' := by
  unfold Char.toLower
  split
  · rename_i h
    have hlow : 65 ≤ c.toNat := h.1
    have hhigh : c.toNat ≤ 90 := h.2
    constructor
    · intro heq
      have hval := congrArg (fun d => d.val.toNat) heq
      simp [UInt32.toNat_add] at hval
      omega
    · rintro rfl
      exact absurd hlow (by decide)
  · rfl

theorem colon_mem_lower {t : Text} : ':' ∈ Text.lower t ↔ ':' ∈ t := by
  simp [Text.lower, toLower_eq_colon]

theorem colon_mem_cleanUrl {url : Text} (h : ':' ∈ cleanUrl url) : ':' ∈ url :=
  (List.dropWhile_sublist _).subset (List.mem_filter.mp h).1

/-- A colon is never passed over, so what follows it is cleaned on its own. -/
theorem cleanUrl_append_colon (a b : Text) :
    cleanUrl (a ++ ':' :: b) = cleanUrl (a ++ [':']) ++ b.filter fun c => !isIgnored c := by
  have hcolon : ':' ∈ a ++ [':'] := by simp
  have hdrop : (a ++ ':' :: b).dropWhile isLeading = (a ++ [':']).dropWhile isLeading ++ b := by
    rw [List.append_cons, List.dropWhile_append, if_neg]
    intro hempty
    rw [List.isEmpty_iff, List.dropWhile_eq_nil_iff] at hempty
    exact absurd (hempty ':' hcolon) (by decide)
  rw [cleanUrl, hdrop, List.filter_append]
  rfl

/-- The cleaned scheme part keeps its colon, at its end alone. -/
theorem cleanUrl_colon {a : Text} (ha : ':' ∉ a) :
    ∃ b, ':' ∉ b ∧ cleanUrl (a ++ [':']) = b ++ [':'] := by
  refine ⟨cleanUrl a, fun h => ha (colon_mem_cleanUrl h), ?_⟩
  have hfilter : [':'].filter (fun c => !isIgnored c) = [':'] := by decide
  unfold cleanUrl
  rw [List.dropWhile_append]
  split
  · rename_i hempty
    have hdrop : [':'].dropWhile isLeading = [':'] := by decide
    rw [List.isEmpty_iff.mp hempty, hdrop, hfilter]
    rfl
  · rw [List.filter_append, hfilter]

theorem scriptSchemes_colon {scheme : Text} (h : scheme ∈ scriptSchemes) :
    ∃ name, ':' ∉ name ∧ scheme = name ++ [':'] := by
  refine ⟨scheme.dropLast, ?_⟩
  have all : ∀ scheme ∈ scriptSchemes,
      ':' ∉ scheme.dropLast ∧ scheme = scheme.dropLast ++ [':'] := by decide
  exact all scheme h

/-- Only the scheme part of an address says whether it is a script. -/
theorem isScriptUrl_iff_schemePart (url : Text) :
    IsScriptUrl url ↔ Text.lower (cleanUrl (schemePart url)) ∈ scriptSchemes := by
  by_cases hcolon : ':' ∈ url
  · obtain ⟨a, b, rfl, ha⟩ := List.eq_append_cons_of_mem hcolon
    obtain ⟨c, hc, hclean⟩ := cleanUrl_colon ha
    have hlower : Text.lower [':'] = [':'] := by decide
    rw [schemePart_of_colon ha, IsScriptUrl, cleanUrl_append_colon, hclean]
    simp only [Text.lower_append, hlower]
    constructor
    · rintro ⟨scheme, hscheme, rest, hrest⟩
      obtain ⟨name, hname, rfl⟩ := scriptSchemes_colon hscheme
      rw [List.append_assoc, List.append_assoc] at hrest
      have heq := Text.eq_of_append_cons hname (colon_mem_lower.not.mpr hc) hrest
      rwa [← heq]
    · intro h
      exact ⟨_, h, List.prefix_append _ _⟩
  · rw [schemePart_of_no_colon hcolon]
    have hnone : ':' ∉ Text.lower (cleanUrl url) :=
      fun h => hcolon (colon_mem_cleanUrl (colon_mem_lower.mp h))
    constructor
    · rintro ⟨scheme, hscheme, hstart⟩
      obtain ⟨name, -, rfl⟩ := scriptSchemes_colon hscheme
      exact absurd (hstart.subset (by simp)) hnone
    · intro h
      obtain ⟨name, -, hname⟩ := scriptSchemes_colon h
      rw [hname] at hnone
      simp at hnone

theorem cleanUrl_eq_self {url : Text} (h : ∀ c ∈ url, isLeading c = false) :
    cleanUrl url = url := by
  have hdrop : url.dropWhile isLeading = url := by
    cases url with
    | nil => rfl
    | cons c cs => simp [h c List.mem_cons_self]
  have hignored : ∀ c, isIgnored c = true → isLeading c = true := by
    intro c hc
    simp only [isIgnored, Bool.or_eq_true, beq_iff_eq] at hc
    obtain (rfl | rfl) | rfl := hc <;> decide
  rw [cleanUrl, hdrop, List.filter_eq_self]
  intro c hc
  by_contra hkept
  have hleading := hignored c (by simpa using hkept)
  rw [h c hc] at hleading
  cases hleading

/-- What a sanitized target does not start with. -/
theorem sanitizeTarget_safe {given url : Text} (h : sanitizeTarget given = some url) :
    ∀ scheme ∈ scriptSchemes, ¬ scheme <+: Text.lower url := by
  intro scheme hscheme hstart
  unfold sanitizeTarget at h
  split at h
  · cases h
  · split at h
    · cases h
    · rename_i hnone
      cases h
      refine hnone ?_
      rw [List.any_eq_true]
      exact ⟨scheme, hscheme, startsWith_iff.mpr hstart⟩

/-- A sanitized target is a script exactly if it hides its scheme. -/
theorem isScriptUrl_iff_hidesScheme {given url : Text} (h : sanitizeTarget given = some url) :
    IsScriptUrl url ↔ HidesScheme url := by
  rw [isScriptUrl_iff_schemePart]
  constructor
  · intro hscheme
    refine ⟨hscheme, ?_⟩
    by_contra hvisible
    have hplain : ∀ c ∈ schemePart url, isLeading c = false := by
      intro c hc
      by_contra hleading
      exact hvisible ⟨c, hc, by simpa using hleading⟩
    rw [cleanUrl_eq_self hplain] at hscheme
    exact sanitizeTarget_safe h _ hscheme ((schemePart_isPrefix url).map _)
  · intro hhidden
    exact hhidden.1

end MarkdownExport.Word
