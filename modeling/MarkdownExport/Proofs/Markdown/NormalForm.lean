import Mathlib.Data.List.Infix
import Mathlib.Data.List.SplitBy
import MarkdownExport.Markdown.Spacing
import MarkdownExport.Proofs.Text.Trimming

/-! The normal form of a document's spacing. `normalize` is told by what it keeps (every scalar but
newlines, up to the last visible one) and by the form of its results, which are its fixed points. -/
namespace MarkdownExport.Markdown

def tripleNewline : Text := ['\n', '\n', '\n']

/-- The form of a finished document, said without the function that brings it about. -/
structure IsNormal (t : Text) : Prop where
  noLongRun : ¬ tripleNewline <:+: t
  oneNewline : ∃ body, t = body ++ ['\n'] ∧ body.getLast? ≠ some '\n'
  visible : t = ['\n'] ∨ ∃ body c, t = body ++ [c, '\n'] ∧ isBlank c = false

/-- Every run of three or more newlines becomes two. -/
def shortenRuns (t : Text) : Text :=
  (t.splitBy fun c d => c = '\n' && d = '\n').flatMap fun run =>
    if 3 ≤ run.length then ['\n', '\n'] else run

def dropNewlines (t : Text) : Text := t.filter (· ≠ '\n')

/-- A text is a run of newlines, or two texts around a scalar that is none. -/
@[elab_as_elim]
theorem newlines_induction {motive : Text → Prop} (t : Text)
    (newlines : ∀ n, motive (List.replicate n '\n'))
    (other : ∀ s c u, c ≠ '\n' → motive s → motive u → motive (s ++ c :: u)) : motive t := by
  -- the newlines read so far wait in front of the text
  suffices h : ∀ n, motive (List.replicate n '\n' ++ t) from h 0
  induction t with
  | nil =>
    intro n
    rw [List.append_nil]
    exact newlines n
  | cons c t ih =>
    intro n
    by_cases hc : c = '\n'
    · have hrun : List.replicate n '\n' ++ c :: t = List.replicate (n + 1) '\n' ++ t := by
        rw [hc, List.replicate_succ', List.append_assoc, List.singleton_append]
      rw [hrun]
      exact ih (n + 1)
    · exact other _ c t hc (newlines n) (ih 0)

theorem eq_nil_of_isPrefix_cons {w u : Text} {c : Char} (hc : c ∉ w) (h : w <+: c :: u) :
    w = [] := by
  rcases List.prefix_cons_iff.mp h with rfl | ⟨v, rfl, -⟩
  · rfl
  · exact absurd List.mem_cons_self hc

/-- A word without a scalar stands on one side of it. -/
theorem isInfix_append_cons_iff {w s u : Text} {c : Char} (hc : c ∉ w) :
    w <:+: s ++ c :: u ↔ w <:+: s ∨ w <:+: u := by
  constructor
  · intro h
    rcases List.infix_append_iff.mp h with h | h | ⟨v, v', rfl, hv, hv'⟩
    · exact Or.inl h
    · rcases List.infix_cons_iff.mp h with h | h
      · rw [eq_nil_of_isPrefix_cons hc h]
        exact Or.inl s.nil_infix
      · exact Or.inr h
    · have hnil : v' = [] := eq_nil_of_isPrefix_cons (fun h => hc (List.mem_append_right v h)) hv'
      rw [hnil, List.append_nil]
      exact Or.inl hv.isInfix
  · rintro (h | h)
    · exact h.trans (List.infix_append [] s (c :: u))
    · exact h.trans ((List.suffix_cons c u).isInfix.trans (List.suffix_append s _).isInfix)

/-! Runs of newlines. -/

theorem limitNewlines_append_cons {c : Char} (hc : c ≠ '\n') (n : Nat) (s u : Text) :
    limitNewlines n (s ++ c :: u) = limitNewlines n s ++ c :: limitNewlines 0 u := by
  induction s generalizing n with
  | nil => simp [limitNewlines, hc]
  | cons d s ih =>
    simp only [List.cons_append, limitNewlines, ih]
    split_ifs <;> rfl

theorem limitNewlines_append_of_notMem {l : Text} (hl : '\n' ∉ l) (t : Text) :
    limitNewlines 0 (l ++ t) = l ++ limitNewlines 0 t := by
  induction l with
  | nil => rfl
  | cons c l ih =>
    rw [List.mem_cons, not_or] at hl
    rw [List.cons_append, limitNewlines, if_neg (Ne.symm hl.1), ih hl.2, List.cons_append]

theorem limitNewlines_newlines_append {n : Nat} (hn : n ≤ 2) (k : Nat) (t : Text) :
    limitNewlines n (List.replicate k '\n' ++ t) =
      List.replicate (min k (2 - n)) '\n' ++ limitNewlines (min (n + k) 2) t := by
  induction k generalizing n with
  | zero => simp [Nat.min_eq_left hn]
  | succ k ih =>
    rw [List.replicate_succ, List.cons_append, limitNewlines, if_pos rfl]
    split_ifs with h
    · have hmin : min (k + 1) (2 - n) = min k (2 - (n + 1)) + 1 := by omega
      rw [ih (by omega), hmin, List.replicate_succ, List.cons_append, Nat.add_assoc,
        Nat.add_comm 1 k]
    · have htwo : n = 2 := by omega
      rw [ih hn, htwo]
      simp

theorem limitNewlines_newlines (k : Nat) :
    limitNewlines 0 (List.replicate k '\n') = List.replicate (min k 2) '\n' := by
  have h := limitNewlines_newlines_append (Nat.zero_le 2) k []
  simpa [limitNewlines] using h

theorem limitNewlines_limitNewlines_append (s t : Text) :
    limitNewlines 0 (limitNewlines 0 s ++ t) = limitNewlines 0 (s ++ t) := by
  induction s using newlines_induction generalizing t with
  | newlines k =>
    rw [limitNewlines_newlines, limitNewlines_newlines_append (Nat.zero_le 2),
      limitNewlines_newlines_append (Nat.zero_le 2)]
    simp
  | other s c u hc hs hu =>
    have hself : limitNewlines 0 (limitNewlines 0 s) = limitNewlines 0 s := by
      simpa only [List.append_nil] using hs []
    simp only [limitNewlines_append_cons hc, List.append_assoc, List.cons_append, hself, hu]

theorem not_tripleNewline_isInfix_limitNewlines (t : Text) :
    ¬ tripleNewline <:+: limitNewlines 0 t := by
  induction t using newlines_induction with
  | newlines k =>
    intro h
    have hlength := h.length_le
    rw [limitNewlines_newlines, List.length_replicate] at hlength
    have hthree : tripleNewline.length = 3 := rfl
    omega
  | other s c u hc hs hu =>
    rw [limitNewlines_append_cons hc, isInfix_append_cons_iff (by simp [tripleNewline, hc])]
    rintro (h | h)
    · exact hs h
    · exact hu h

theorem limitNewlines_eq_self {t : Text} (h : ¬ tripleNewline <:+: t) : limitNewlines 0 t = t := by
  induction t using newlines_induction with
  | newlines k =>
    have hk : k ≤ 2 := by
      by_contra hk
      apply h
      refine ⟨[], List.replicate (k - 3) '\n', ?_⟩
      have hthree : tripleNewline = List.replicate 3 '\n' := rfl
      rw [List.nil_append, hthree, List.replicate_append_replicate, Nat.add_sub_cancel' (by omega)]
    rw [limitNewlines_newlines, Nat.min_eq_left hk]
  | other s c u hc hs hu =>
    rw [isInfix_append_cons_iff (by simp [tripleNewline, hc]), not_or] at h
    rw [limitNewlines_append_cons hc, hs h.1, hu h.2]

theorem dropNewlines_limitNewlines (n : Nat) (t : Text) :
    dropNewlines (limitNewlines n t) = dropNewlines t := by
  induction t generalizing n with
  | nil => rfl
  | cons c t ih =>
    unfold dropNewlines at ih ⊢
    unfold limitNewlines
    split_ifs with hc
    · rw [List.filter_cons_of_neg (by simp [hc]), List.filter_cons_of_neg (by simp [hc]), ih]
    · rw [List.filter_cons_of_neg (by simp [hc]), ih]
    · rw [List.filter_cons_of_pos (by simp [hc]), List.filter_cons_of_pos (by simp [hc]), ih]

theorem limitNewlines_eq_shortenRuns (t : Text) : limitNewlines 0 t = shortenRuns t := by
  induction t using newlines_induction with
  | newlines k =>
    rw [limitNewlines_newlines]
    cases k with
    | zero => rfl
    | succ k =>
      have hrun : (List.replicate (k + 1) '\n').splitBy (fun c d => c = '\n' && d = '\n') =
          [List.replicate (k + 1) '\n'] :=
        List.splitBy_of_isChain (by simp) (by simp [List.isChain_replicate_of_rel])
      rw [shortenRuns, hrun, List.flatMap_singleton, List.length_replicate]
      split_ifs with hk
      · rw [Nat.min_eq_right (by omega)]
        rfl
      · rw [Nat.min_eq_left (by omega)]
  | other s c u hc hs hu =>
    have hsplit : (s ++ c :: u).splitBy (fun c d => c = '\n' && d = '\n') =
        s.splitBy (fun c d => c = '\n' && d = '\n') ++ [[c]] ++
          u.splitBy (fun c d => c = '\n' && d = '\n') := by
      rw [← List.singleton_append, List.splitBy_append (by simp [hc]),
        List.splitBy_append (by simp [hc]), List.append_assoc]
      rfl
    rw [limitNewlines_append_cons hc, hs, hu]
    simp [shortenRuns, hsplit]

/-! Blanks at the end. -/

theorem limitNewlines_allBlank {t : Text} (h : ∀ c ∈ t, isBlank c = true) (n : Nat) :
    ∀ c ∈ limitNewlines n t, isBlank c = true := by
  induction t generalizing n with
  | nil => simp [limitNewlines]
  | cons d t ih =>
    rw [List.forall_mem_cons] at h
    unfold limitNewlines
    split_ifs
    · exact List.forall_mem_cons.mpr ⟨h.1, ih h.2 _⟩
    · exact ih h.2 _
    · exact List.forall_mem_cons.mpr ⟨h.1, ih h.2 _⟩

/-- Trimming may come first: no scalar that is kept depends on the blanks behind it. -/
theorem normalize_eq_limitNewlines_trimEnd (t : Text) :
    normalize t = limitNewlines 0 t.trimEnd ++ ['\n'] := by
  unfold normalize
  rcases Text.allBlank_or_exists_visible t with h | ⟨body, c, rest, rfl, hc, hrest⟩
  · rw [Text.trimEnd_of_allBlank h, Text.trimEnd_of_allBlank (limitNewlines_allBlank h 0)]
    rfl
  · have hne : c ≠ '\n' := Text.ne_newline_of_not_isBlank hc
    rw [Text.trimEnd_append_cons hc _ hrest, limitNewlines_append_cons hne,
      limitNewlines_append_cons hne, Text.trimEnd_append_cons hc _ (limitNewlines_allBlank hrest 0)]
    rfl

/-- One scalar in front of the last newline, unless there is nothing else. -/
theorem normalize_eq_or (t : Text) :
    normalize t = ['\n'] ∨
      ∃ body c, normalize t = limitNewlines 0 body ++ [c, '\n'] ∧ isBlank c = false := by
  rw [normalize_eq_limitNewlines_trimEnd]
  rcases Text.allBlank_or_exists_visible t with h | ⟨body, c, rest, rfl, hc, hrest⟩
  · left
    rw [Text.trimEnd_of_allBlank h]
    rfl
  · right
    have hne : c ≠ '\n' := Text.ne_newline_of_not_isBlank hc
    refine ⟨body, c, ?_, hc⟩
    rw [Text.trimEnd_append_cons hc _ hrest, limitNewlines_append_cons hne]
    simp [limitNewlines]

/-! The normal form. -/

theorem isNormal_newline : IsNormal ['\n'] where
  noLongRun h := absurd h.length_le (by decide)
  oneNewline := ⟨[], rfl, by simp⟩
  visible := Or.inl rfl

theorem isNormal_append_visible {body : Text} {c : Char} (hbody : ¬ tripleNewline <:+: body)
    (hc : isBlank c = false) : IsNormal (body ++ [c, '\n']) where
  noLongRun := by
    have hne : c ≠ '\n' := Text.ne_newline_of_not_isBlank hc
    rw [isInfix_append_cons_iff (by simp [tripleNewline, hne])]
    rintro (h | h)
    · exact hbody h
    · exact isNormal_newline.noLongRun h
  oneNewline := by
    refine ⟨body ++ [c], by simp, ?_⟩
    simpa [List.getLast?_append] using Text.ne_newline_of_not_isBlank hc
  visible := Or.inr ⟨body, c, rfl, hc⟩

theorem isNormal_normalize (t : Text) : IsNormal (normalize t) := by
  rcases normalize_eq_or t with h | ⟨body, c, h, hc⟩
  · rw [h]
    exact isNormal_newline
  · rw [h]
    exact isNormal_append_visible (not_tripleNewline_isInfix_limitNewlines body) hc

theorem IsNormal.normalize_eq {t : Text} (h : IsNormal t) : normalize t = t := by
  rcases h.visible with rfl | ⟨body, c, rfl, hc⟩
  · rfl
  · have hrun : ¬ tripleNewline <:+: body ++ [c] := by
      intro hb
      apply h.noLongRun
      exact hb.trans ⟨[], ['\n'], by simp⟩
    rw [normalize_eq_limitNewlines_trimEnd, Text.trimEnd_append_cons hc body (by simp),
      limitNewlines_eq_self hrun, List.append_assoc]
    rfl

theorem normalize_eq_self_iff {t : Text} : normalize t = t ↔ IsNormal t := by
  constructor
  · intro h
    rw [← h]
    exact isNormal_normalize t
  · exact IsNormal.normalize_eq

theorem dropNewlines_normalize (t : Text) :
    dropNewlines (normalize t) = dropNewlines t.trimEnd := by
  have hlimit := dropNewlines_limitNewlines 0 t.trimEnd
  unfold dropNewlines at hlimit ⊢
  rw [normalize_eq_limitNewlines_trimEnd, List.filter_append, hlimit]
  simp

/-- Runs may be cut before a text is continued. -/
theorem normalize_shortenRuns_append (s t : Text) :
    normalize (shortenRuns s ++ t) = normalize (s ++ t) := by
  unfold normalize
  rw [← limitNewlines_eq_shortenRuns, limitNewlines_limitNewlines_append]

/-- Normalizing computes the normal form: its results are normal, exactly the normal texts are its
fixed points, and a text and its result differ only in newlines and in blanks at the end. -/
theorem normalize_computes_normal_form (s a b : Text) :
    IsNormal (normalize s) ∧
      (normalize s = s ↔ IsNormal s) ∧
      normalize (normalize s) = normalize s ∧
      dropNewlines (normalize s) = dropNewlines s.trimEnd ∧
      normalize (a ++ b) = normalize (shortenRuns a ++ b) :=
  ⟨isNormal_normalize s, normalize_eq_self_iff, (isNormal_normalize s).normalize_eq,
    dropNewlines_normalize s, (normalize_shortenRuns_append a b).symm⟩

end MarkdownExport.Markdown
