import Mathlib.Data.List.Nodup
import MarkdownExport.Metadata.Extract
import MarkdownExport.Proofs.Text.Words
import MarkdownExport.Proofs.Tree.Adjacency

/-! What the metadata of a document are: its own entries in their order, under the overrides. -/
namespace MarkdownExport

namespace Dictionary
variable {α : Type} {d es : Dictionary α}

theorem mem_keys_of_mem {e : Text × α} (he : e ∈ d) : e.1 ∈ keys d := List.mem_map_of_mem he

theorem keys_cons (e : Text × α) (d : Dictionary α) : keys (e :: d) = e.1 :: keys d := rfl

theorem find?_of_notMem {k : Text} (hk : k ∉ keys d) : find? k d = none := by
  induction d with
  | nil => rfl
  | cons e d ih =>
    rw [keys_cons, List.mem_cons, not_or] at hk
    rw [find?, if_neg (Ne.symm hk.1), ih hk.2]

theorem find?_of_mem (hd : (keys d).Nodup) {e : Text × α} (he : e ∈ d) :
    find? e.1 d = some e.2 := by
  induction d with
  | nil => cases he
  | cons e' d ih =>
    rw [keys_cons, List.nodup_cons] at hd
    rcases List.mem_cons.mp he with rfl | he
    · exact if_pos rfl
    · have hne : e'.1 ≠ e.1 := fun h => hd.1 (h ▸ mem_keys_of_mem he)
      rw [find?, if_neg hne, ih hd.2 he]

theorem insert_of_notMem {k : Text} (hk : k ∉ keys d) (v : α) : insert k v d = d ++ [(k, v)] := by
  induction d with
  | nil => rfl
  | cons e d ih =>
    rw [keys_cons, List.mem_cons, not_or] at hk
    rw [insert, if_neg (Ne.symm hk.1), ih hk.2, List.cons_append]

theorem insert_of_mem (hd : (keys d).Nodup) {k : Text} (hk : k ∈ keys d) (v : α) :
    insert k v d = d.map fun e => if e.1 = k then (e.1, v) else e := by
  induction d with
  | nil => cases hk
  | cons e d ih =>
    rw [keys_cons, List.nodup_cons] at hd
    rw [insert, List.map_cons]
    by_cases he : e.1 = k
    · have hrest : ∀ e' ∈ d, (if e'.1 = k then (e'.1, v) else e') = e' := fun e' he' =>
        if_neg fun h => hd.1 (by rw [he, ← h]; exact mem_keys_of_mem he')
      rw [if_pos he, if_pos he, List.map_congr_left hrest, List.map_id']
    · have hmem := (List.mem_cons.mp (keys_cons e d ▸ hk)).resolve_left (Ne.symm he)
      rw [if_neg he, if_neg he, ih hd.2 hmem]

/-- What is put over a dictionary: its keys keep their places and take the new values, and the
other entries come behind them in their own order. -/
theorem overlay_eq (hd : (keys d).Nodup) (hes : (keys es).Nodup) :
    overlay d es =
      d.map (fun e => (e.1, (find? e.1 es).getD e.2)) ++
        es.filter fun e => decide (e.1 ∉ keys d) := by
  induction es generalizing d with
  | nil => simp [overlay]
  | cons e es ih =>
    rw [keys_cons, List.nodup_cons] at hes
    have hnone := find?_of_notMem hes.1
    have hcons : overlay d (e :: es) = overlay (insert e.1 e.2 d) es := rfl
    rw [hcons, ih (nodup_keys_insert _ _ hd) hes.2, List.filter_cons, keys_insert]
    by_cases he : e.1 ∈ keys d
    · rw [if_pos he, if_neg (by simpa using he), insert_of_mem hd he, List.map_map]
      refine congrArg (· ++ _) (List.map_congr_left fun e' he' => ?_)
      by_cases hkey : e'.1 = e.1
      · simp [find?, hkey, hnone]
      · simp [find?, hkey, Ne.symm hkey]
    · have hkeep (e' : Text × α) (he' : e' ∈ d) : e.1 ≠ e'.1 := fun h =>
        he (h ▸ mem_keys_of_mem he')
      have hnew (e' : Text × α) (he' : e' ∈ es) : e'.1 ≠ e.1 := fun h =>
        hes.1 (h ▸ mem_keys_of_mem he')
      have hmap : d.map (fun e' => (e'.1, (find? e'.1 (e :: es)).getD e'.2)) =
          d.map fun e' => (e'.1, (find? e'.1 es).getD e'.2) :=
        List.map_congr_left fun e' he' => by rw [find?, if_neg (hkeep e' he')]
      have hfilter : es.filter (fun e' => decide (e'.1 ∉ keys d ++ [e.1])) =
          es.filter fun e' => decide (e'.1 ∉ keys d) :=
        List.filter_congr fun e' he' => by simp [hnew e' he']
      rw [if_neg he, if_pos (by simpa using he), insert_of_notMem he, hmap, hfilter]
      simp [hnone]

theorem nodup_keys_overlay (hd : (keys d).Nodup) (es : Dictionary α) :
    (keys (overlay d es)).Nodup := by
  induction es generalizing d with
  | nil => exact hd
  | cons e es ih => exact ih (nodup_keys_insert e.1 e.2 hd)

/-- What comes of an overlay can be put over the same dictionary again. -/
theorem overlay_overlay (hd : (keys d).Nodup) (hes : (keys es).Nodup) :
    overlay d (overlay d es) = overlay d es := by
  have hnodup := nodup_keys_overlay hd es
  rw [overlay_eq hd hnodup]
  have hown : d.map (fun e => (e.1, (find? e.1 (overlay d es)).getD e.2)) =
      d.map fun e => (e.1, (find? e.1 es).getD e.2) := by
    refine List.map_congr_left fun e he => ?_
    have hmem : (e.1, (find? e.1 es).getD e.2) ∈ overlay d es := by
      rw [overlay_eq hd hes]
      exact List.mem_append_left _ (List.mem_map_of_mem he)
    rw [find?_of_mem hnodup hmem, Option.getD_some]
  have hnew : (overlay d es).filter (fun e => decide (e.1 ∉ keys d)) =
      es.filter fun e => decide (e.1 ∉ keys d) := by
    have hnone : (d.map fun e => (e.1, (find? e.1 es).getD e.2)).filter
        (fun e => decide (e.1 ∉ keys d)) = [] := by
      rw [List.filter_eq_nil_iff]
      rintro e he
      obtain ⟨e', he', rfl⟩ := List.mem_map.mp he
      simpa using mem_keys_of_mem he'
    rw [overlay_eq hd hes, List.filter_append, hnone, List.nil_append, List.filter_filter]
    simp
  rw [hown, hnew, overlay_eq hd hes]

end Dictionary

namespace Metadata
open Node
open Dictionary (keys)

theorem title?_eq (document : List Node) :
    title? document =
      ((preorder document).find? (isTag "h1")).map fun h => h.textContent.trim := by
  rw [title?, findTag?, findFirst?_eq_head?, findAll_eq_filter, List.head?_filter]

theorem description?_eq (document : List Node) :
    description? document =
      ((withPrevious none document).find? fun e =>
        e.2.isTag "p" && e.1.any isSectionHeading).bind fun e =>
          if 1 ≤ e.2.textContent.trim.units16 ∧ e.2.textContent.trim.units16 ≤ 199 then
            some e.2.textContent.trim
          else none := by
  rw [description?, findAdjacent?_eq_find? fun _ => isElement_of_isTag, Option.bind_map]
  refine congrArg _ (funext fun e => ?_)
  simp only [Function.comp, Bool.and_eq_true, decide_eq_true_eq, descriptionLimit,
    Nat.lt_iff_add_one_le, Nat.zero_add, Nat.reduceLeDiff]

theorem length_findTags (tag : Text) (document : List Node) :
    (findTags tag document).length = (preorder document).countP (isTag tag) := by
  rw [findTags, findAll_eq_filter, List.countP_eq_length_filter]

/-- The fields that have a value. -/
def present (fields : List (Text × Option Value)) : Record :=
  fields.filterMap fun e => e.2.map fun v => (e.1, v)

theorem present_cons (k : Text) (v : Option Value) (fields : List (Text × Option Value)) :
    present ((k, v) :: fields) = (v.map fun v => (k, v)).toList ++ present fields := by
  cases v <;> rfl

theorem keys_present_sublist (fields : List (Text × Option Value)) :
    (keys (present fields)).Sublist (fields.map Prod.fst) := by
  induction fields with
  | nil => exact List.Sublist.slnil
  | cons e fields ih =>
    obtain ⟨k, v⟩ := e
    cases v with
    | none => exact ih.cons k
    | some v => exact ih.cons_cons k

theorem derived_eq (document : List Node) :
    derived document = present
      [("title", (title? document).map .text), ("description", (description? document).map .text),
        ("wordCount", some (.ofNat (wordCount document))),
        ("paragraphCount", some (.ofNat (findTags "p" document).length)),
        ("tableCount", (positive? (findTags "table" document).length).map .ofNat),
        ("imageCount", (positive? (findTags "img" document).length).map .ofNat)] := by
  have hnil : present [] = [] := rfl
  simp only [present_cons, hnil, List.append_nil, Option.map_map]
  simp only [derived, textEntry?, countEntry?, List.append_assoc, Option.map_some]
  rfl

theorem nodup_keys_derived (document : List Node) : (keys (derived document)).Nodup := by
  rw [derived_eq]
  refine (keys_present_sublist _).nodup ?_
  simp only [List.map_cons, List.map_nil]
  decide

/-- The metadata of a document are its title, description and counts, each that it has, under the
overrides. A key of its own keeps its place and takes the value of the override, and the other
overrides come behind in their order, so no key comes twice and putting the result over the same
document changes nothing. -/
theorem extract_eq (document : List Node) {overrides : Record} (h : overrides.keys.Nodup) :
    let count (tag : Text) := (preorder document).countP (isTag tag)
    let title := ((preorder document).find? (isTag "h1")).map fun n => n.textContent.trim
    let lead := (withPrevious none document).find? fun e => e.2.isTag "p" &&
      e.1.any fun s => s.isTag "h1" || s.isTag "h2" || s.isTag "h3"
    let description := lead.bind fun e =>
      let text := e.2.textContent.trim
      if 1 ≤ text.units16 ∧ text.units16 ≤ 199 then some text else none
    let own := present
      [("title", title.map .text), ("description", description.map .text),
        ("wordCount", some (.ofNat {cut | Text.IsRun (textOf (body document)) cut}.ncard)),
        ("paragraphCount", some (.ofNat (count "p"))),
        ("tableCount", if 0 < count "table" then some (.ofNat (count "table")) else none),
        ("imageCount", if 0 < count "img" then some (.ofNat (count "img")) else none)]
    extract document overrides =
        own.map (fun e => (e.1, (overrides.find? e.1).getD e.2)) ++
          overrides.filter (fun e => decide (e.1 ∉ own.keys)) ∧
      (extract document overrides).keys.Nodup ∧
      extract document (extract document overrides) = extract document overrides := by
  intro count title lead description own
  have hpositive (tag : Text) : (positive? (findTags tag document).length).map Value.ofNat =
      if 0 < count tag then some (.ofNat (count tag)) else none := by
    rw [length_findTags, positive?]
    by_cases hzero : count tag = 0
    · rw [if_pos hzero, if_neg (by omega)]
      rfl
    · rw [if_neg hzero, if_pos (by omega)]
      rfl
  have hown : derived document = own := by
    rw [derived_eq, title?_eq, description?_eq, wordCount, Text.length_words, length_findTags,
      hpositive, hpositive]
    rfl
  have hnodup := nodup_keys_derived document
  refine ⟨?_, Dictionary.nodup_keys_overlay hnodup overrides,
    Dictionary.overlay_overlay hnodup h⟩
  rw [extract, Dictionary.overlay_eq hnodup h, hown]

/-- A heading between paragraphs, then a table. Images are in the second paragraph and the table. -/
def illustrated (lead : Text) : List Node :=
  [.element "p" [] [.text "a "], .element "h1" [] [.text " Derived "], .text ['\n'],
   .element "p" [] [.text lead, .element "img" [] []],
   .element "table" [] [.element "img" [] [], .text " b c"]]

/-- A title of the overrides stands in the place of the document's own, and an author behind it. The
lead has a hundred scalars either way, which are 199 units of UTF-16 or 200. -/
theorem extract_title_author :
    let overrides : Record := [("title", .text "Custom"), ("author", .text "Ann")]
    let short : Text := List.replicate 99 '𝄞' ++ ['d']
    let long : Text := List.replicate 100 '𝄞'
    let result : Record :=
      [("title", .text "Custom"), ("description", .text short), ("wordCount", .integer 5),
       ("paragraphCount", .integer 2), ("tableCount", .integer 1), ("imageCount", .integer 2),
       ("author", .text "Ann")]
    overrides.keys.Nodup ∧ extract (illustrated short) overrides = result ∧
      extract (illustrated long) overrides =
        result.filter (fun e => e.1 ≠ "description".toList) ∧
      extract (illustrated short) result = result := by
  intro overrides short long result
  have hnodup : overrides.keys.Nodup := by decide
  have hshort : extract (illustrated short) overrides = result := rfl
  have hlong : extract (illustrated long) overrides =
      result.filter fun e => e.1 ≠ "description".toList := rfl
  obtain ⟨-, -, hagain⟩ := extract_eq (illustrated short) hnodup
  rw [hshort] at hagain
  exact ⟨hnodup, hshort, hlong, hagain⟩

end Metadata
end MarkdownExport
