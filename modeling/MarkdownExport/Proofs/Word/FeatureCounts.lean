import Mathlib.Data.Set.Card
import MarkdownExport.Proofs.Metadata.Extraction
import MarkdownExport.Proofs.Word.Faults
import MarkdownExport.Proofs.Word.Noted
import MarkdownExport.Proofs.Word.Numbering.Notes
import MarkdownExport.Proofs.Word.Url
import MarkdownExport.Proofs.Xml.Places

/-! What the counts of a report are: numbers of tags of the document part outside skipped elements,
and of identifiers of its relationships. -/
namespace MarkdownExport

theorem Text.endsWith_iff {t tail : Text} : Text.endsWith t tail = true ↔ tail <:+ t := by
  rw [Text.endsWith, Word.startsWith_iff, List.reverse_prefix]

theorem Text.contains_iff {t part : Text} : Text.contains t part = true ↔ part <:+: t := by
  induction t with
  | nil => simp [Text.contains]
  | cons c t ih =>
    rw [Text.contains, Bool.or_eq_true, Word.startsWith_iff, ih, List.infix_cons_iff]

/-- The keys whose values have a property are as many as the entries that have it. -/
theorem Dictionary.ncard_find? {α : Type} {d : Dictionary α} (hd : (keys d).Nodup) (p : α → Bool) :
    {k | ∃ v, find? k d = some v ∧ p v = true}.ncard = d.countP fun e => p e.2 := by
  have hset : {k | ∃ v, find? k d = some v ∧ p v = true} =
      ↑((d.filter fun e => p e.2).map Prod.fst).toFinset := by
    ext k
    simp only [Set.mem_ofPred_eq, List.coe_toFinset, List.mem_map, List.mem_filter]
    constructor
    · rintro ⟨v, hfind, hv⟩
      exact ⟨(k, v), ⟨Markdown.mem_of_dictionary_find? hfind, hv⟩, rfl⟩
    · rintro ⟨e, ⟨he, hv⟩, rfl⟩
      exact ⟨e.2, find?_of_mem hd he, hv⟩
  have hnodup : ((d.filter fun e => p e.2).map Prod.fst).Nodup :=
    hd.sublist (List.filter_sublist.map _)
  rw [hset, Set.ncard_coe_finset, List.toFinset_card_of_nodup hnodup, List.length_map,
    List.countP_eq_length_filter]

namespace Word
open Xml (Event Tag Place place? places placesIn enter nest nestStep)

/-! Headers and footers. -/

namespace Relationships

/-- The tag is an entry for an identifier: it has the name of entries in any name space, the
identifier and a target. An entry need not say of what kind it is. -/
structure IsEntry (tag : Tag) (id : Text) (rel : Relationship) : Prop where
  name : tag.localName = "Relationship".toList
  identifier : tag.value? "Id" = some id
  target : tag.value? "Target" = some rel.target
  kind : (tag.value? "Type").getD [] = rel.kind

/-- Of several entries for an identifier the last one. -/
def IsLastEntry (tags : List Tag) (id : Text) (rel : Relationship) : Prop :=
  ∃ before tag after, tags = before ++ tag :: after ∧ IsEntry tag id rel ∧
    ∀ later ∈ after, ∀ rel', ¬ IsEntry later id rel'

theorem entry?_eq_some_iff {tag : Tag} {id : Text} {rel : Relationship} :
    entry? tag = some (id, rel) ↔ IsEntry tag id rel := by
  constructor
  · intro h
    unfold entry? at h
    split at h
    next hname =>
      split at h
      next hid htarget =>
        cases h
        exact ⟨hname, hid, htarget, rfl⟩
      next => cases h
    next => cases h
  · rintro ⟨hname, hid, htarget, hkind⟩
    unfold entry?
    rw [if_pos hname, hid, htarget]
    dsimp only
    rw [hkind]

/-- The relationship that a tag gives an identifier. -/
def given? (id : Text) (tag : Tag) : Option Relationship :=
  entry? tag |>.bind fun e => if e.1 = id then some e.2 else none

theorem given?_eq_some_iff {tag : Tag} {id : Text} {rel : Relationship} :
    given? id tag = some rel ↔ IsEntry tag id rel := by
  rw [← entry?_eq_some_iff, given?, Option.bind_eq_some_iff]
  constructor
  · rintro ⟨⟨id', rel'⟩, hentry, hid⟩
    rw [Option.ite_none_right_eq_some] at hid
    obtain ⟨rfl, hrel⟩ := hid
    cases hrel
    exact hentry
  · intro hentry
    exact ⟨(id, rel), hentry, if_pos rfl⟩

theorem given?_eq_none_iff {tag : Tag} {id : Text} :
    given? id tag = none ↔ ∀ rel, ¬ IsEntry tag id rel := by
  simp only [Option.eq_none_iff_forall_ne_some, ne_eq, given?_eq_some_iff]

/-- The entries that tags give, in their order. -/
def entries (tags : List Tag) : List (Text × Relationship) := tags.filterMap entry?

theorem values_entries (id : Text) (tags : List Tag) :
    Dictionary.values id (entries tags) = tags.filterMap (given? id) := by
  rw [Dictionary.values, entries, List.filterMap_filterMap]
  rfl

/-- The last entry for an identifier is the one that counts. -/
theorem find?_ofList_entries {tags : List Tag} {id : Text} {rel : Relationship} :
    Dictionary.find? id (Dictionary.ofList (entries tags)) = some rel ↔
      IsLastEntry tags id rel := by
  rw [Dictionary.find?_ofList, values_entries, List.getLast?_filterMap, List.findSome?_eq_some_iff]
  simp only [given?_eq_some_iff, given?_eq_none_iff]
  constructor
  · rintro ⟨after, tag, before, hcut, hentry, hlater⟩
    refine ⟨before.reverse, tag, after.reverse, ?_, hentry, fun later h => ?_⟩
    · rw [← List.reverse_reverse tags, hcut]
      simp
    · exact hlater later (List.mem_reverse.mp h)
  · rintro ⟨before, tag, after, rfl, hentry, hlater⟩
    refine ⟨after.reverse, tag, before.reverse, by simp, hentry, fun later h => ?_⟩
    exact hlater later (List.mem_reverse.mp h)

theorem foldl_step_eq (rels : Relationships) (around : List Tag) (events : List Event) :
    events.foldl step rels =
      rels.overlay (entries ((places around events).map Place.tag)) := by
  induction events generalizing rels around with
  | nil => rfl
  | cons event events ih =>
    rw [List.foldl_cons, ih _ (enter around event), Xml.places_cons, List.map_append, entries,
      entries, List.filterMap_append, Dictionary.overlay, Dictionary.overlay, List.foldl_append]
    congr 1
    cases event with
    | opened tag | empty tag => cases hentry : entry? tag <;> simp [step, place?, hentry]
    | closed name | text raw => rfl

theorem ofEvents_eq (xml : Text) :
    ofEvents (Xml.scan xml).events =
      Dictionary.ofList (entries ((placesIn xml).map Place.tag)) :=
  foldl_step_eq [] [] _

end Relationships

/-- The tags of the relationships of a package's document. -/
def Package.relationshipTags (package : Package) : List Tag :=
  match package.text? documentRelationshipsPart with
  | .ok (some xml) => (placesIn xml).map Place.tag
  | _ => []

/-- The identifiers whose last entry is of a kind that ends in `suffix`. -/
def Package.related (package : Package) (suffix : Text) : Set Text :=
  {id | ∃ rel, Relationships.IsLastEntry package.relationshipTags id rel ∧ suffix <:+ rel.kind}

theorem Package.ncard_related (package : Package) (suffix : Text) :
    (package.related suffix).ncard =
      Relationships.countKind suffix
        (Dictionary.ofList (Relationships.entries package.relationshipTags)) := by
  have hnodup : (Dictionary.ofList (Relationships.entries package.relationshipTags)).keys.Nodup :=
    Dictionary.nodup_keys_overlay (d := []) List.nodup_nil _
  rw [Relationships.countKind, ← Dictionary.ncard_find? hnodup fun rel => rel.kind.endsWith suffix]
  simp only [Package.related, Relationships.find?_ofList_entries, Text.endsWith_iff]

theorem readOptional_relationships {package : Package} {rels : Relationships}
    (h : readOptional package documentRelationshipsPart [] Relationships.ofScan = .ok rels) :
    rels = Dictionary.ofList (Relationships.entries package.relationshipTags) := by
  obtain ⟨text?, htext, h⟩ := exists_ok_of_bind h
  unfold Package.relationshipTags
  rw [htext]
  cases text? with
  | none =>
    obtain rfl := Except.ok.inj h
    rfl
  | some xml =>
    have hscan := eq_ok_of_inPart h
    unfold Relationships.ofScan at hscan
    split at hscan
    · cases hscan
    · obtain rfl := Except.ok.inj hscan
      exact Relationships.ofEvents_eq xml

/-- What was seen when a package was read. -/
theorem readContents_seen {package : Package} {profile : Profile} {c : Contents}
    (h : readContents package profile = .ok c) :
    ∃ xml, package.text? documentPart = .ok (some xml) ∧
      c.seen = List.replicate (package.related "/header").ncard .header ++
        List.replicate (package.related "/footer").ncard .footer ++
          featuresOf (State.outline {}) (Xml.scan xml).events := by
  obtain ⟨text?, htext, h⟩ := exists_ok_of_bind h
  cases text? with
  | none => cases h
  | some xml =>
    obtain ⟨rels, hrels, h⟩ := exists_ok_of_bind h
    -- numbering and footnotes are read for the snapshot only
    obtain ⟨numbering, -, h⟩ := exists_ok_of_bind h
    obtain ⟨s, hs, h⟩ := exists_ok_of_bind h
    obtain ⟨notes, -, h⟩ := exists_ok_of_bind h
    obtain rfl := Except.ok.inj h
    obtain ⟨hread, -⟩ := readPart_eq_ok.mp (eq_ok_of_inPart hs)
    have hseen := readEvents_seen hread
    refine ⟨xml, htext, ?_⟩
    rw [Package.ncard_related, Package.ncard_related, ← readOptional_relationships hrels, hseen,
      List.append_nil]

/-! Tags. -/

/-- The names of the tags that are counted. -/
def Feature.tagNames : Feature → List String
  | hyperlink => ["w:hyperlink"]
  | anchorImage => ["wp:anchor"]
  | chart => ["c:chart"]
  | smartArt => ["dgm:relIds"]
  | omml => ["m:oMath"]
  | table => ["w:tbl"]
  | footnoteRef => ["w:footnoteReference"]
  | endnoteRef => ["w:endnoteReference"]
  | commentRef => ["w:commentReference"]
  | revision => ["w:ins", "w:moveTo", "w:del", "w:moveFrom"]
  | bookmark => ["w:bookmarkStart"]
  | field => ["w:fldSimple", "w:fldChar"]
  | sdt => ["w:sdt"]
  | shape => ["w:pict", "wps:wsp"]
  | ole => ["w:object"]
  | watermark => ["v:shape"]
  | pageBreak | crossRef | header | footer => []

/-- A tag is counted by its name. Of field characters only those count that begin a field, and of
vector shapes those that are watermarks by their identifier. -/
def Feature.Marks (f : Feature) (tag : Tag) : Prop :=
  tag.name ∈ f.tagNames.map String.toList ∧
    (tag.name = "w:fldChar".toList → tag.value? "w:fldCharType" = some "begin".toList) ∧
    (tag.name = "v:shape".toList →
      "watermark".toList <:+: Text.lower ((tag.value? "id").getD []))

instance (f : Feature) (tag : Tag) : Decidable (f.Marks tag) :=
  inferInstanceAs (Decidable (_ ∧ _ ∧ _))

/-- The names of the elements that are skipped with all that is in them. -/
def skippedNames : List String := ["mc:Fallback", "w:txbxContent", "w:pPrChange", "w:rPrChange"]

/-- No skipped element is around. -/
def IsVisible (p : Place) : Prop := ∀ a ∈ p.around, a.name ∉ skippedNames.map String.toList

instance : DecidablePred IsVisible := fun p =>
  inferInstanceAs (Decidable (∀ a ∈ p.around, a.name ∉ skippedNames.map String.toList))

/-- The feature that the tags of an element are counted for. -/
def Element.feature? : Element → Option Feature
  | .hyperlink => some .hyperlink
  | .anchor => some .anchorImage
  | .chart => some .chart
  | .smartArt => some .smartArt
  | .math => some .omml
  | .table => some .table
  | .footnoteReference => some .footnoteRef
  | .endnoteReference => some .endnoteRef
  | .commentReference => some .commentRef
  | .inserted | .deleted => some .revision
  | .bookmark => some .bookmark
  | .simpleField | .fieldCharacter => some .field
  | .contentControl => some .sdt
  | .shape => some .shape
  | .object => some .ole
  | .vectorShape => some .watermark
  | _ => none

namespace Element

theorem nodup_names : (Dictionary.keys names).Nodup := by decide +kernel

/-- The names of an element are those that are listed for it. -/
theorem ofName_iff {p : Element → Bool} (hother : p other = false) (name : Text) :
    p (ofName name) = true ↔ name ∈ (names.filter fun e => p e.2).map Prod.fst := by
  rw [List.mem_map]
  constructor
  · intro h
    cases hfind : names.find? name with
    | none =>
      rw [ofName, hfind, Option.getD_none, hother] at h
      cases h
    | some e =>
      rw [ofName, hfind, Option.getD_some] at h
      exact ⟨(name, e), List.mem_filter.mpr ⟨Markdown.mem_of_dictionary_find? hfind, h⟩, rfl⟩
  · rintro ⟨e, he, rfl⟩
    obtain ⟨he, hp⟩ := List.mem_filter.mp he
    rw [ofName, Dictionary.find?_of_mem nodup_names he]
    exact hp

theorem feature?_ofName {f : Feature} {name : Text} :
    (ofName name).feature? = some f ↔ name ∈ f.tagNames.map String.toList := by
  have hnames : f.tagNames.map String.toList =
      (names.filter fun e => e.2.feature? == some f).map Prod.fst := by
    cases f <;> rfl
  rw [hnames, ← ofName_iff (p := fun e => e.feature? == some f) rfl name,
    beq_iff_eq]

/-- The same for one element and all its names. -/
theorem ofName_eq_iff (e : Element) (spelled : List String) (hother : e ≠ other)
    (h : (names.filter fun n => n.2 == e).map Prod.fst = spelled.map String.toList) (name : Text) :
    ofName name = e ↔ name ∈ spelled.map String.toList := by
  rw [← h, ← ofName_iff (p := (· == e)) (beq_false_of_ne hother.symm) name, beq_iff_eq]

end Element

theorem Feature.marks_iff {f : Feature} {tag : Tag} :
    f.Marks tag ↔ (Element.ofName tag.name).feature? = some f ∧
      (Element.ofName tag.name = .fieldCharacter →
        tag.value? "w:fldCharType" = some "begin".toList) ∧
      (Element.ofName tag.name = .vectorShape → isWatermark tag = true) := by
  have hfield := Element.ofName_eq_iff .fieldCharacter ["w:fldChar"] (by decide) rfl tag.name
  have hshape := Element.ofName_eq_iff .vectorShape ["v:shape"] (by decide) rfl tag.name
  rw [List.map_singleton, List.mem_singleton] at hfield hshape
  rw [Element.feature?_ofName, hfield, hshape, isWatermark, Text.contains_iff]
  rfl

theorem isVisible_iff (p : Place) :
    IsVisible p ↔ ∀ a ∈ p.around, Element.ofName a.name ≠ .skipped := by
  have hskipped := Element.ofName_eq_iff .skipped skippedNames (by decide) rfl
  simp only [IsVisible, ne_eq, hskipped]

section Count
variable {f : Feature} {o : Outline} {tag : Tag}

theorem count_instructionFeatures (hf : f ≠ .crossRef) (instruction : Text) :
    (instructionFeatures instruction).count f = 0 := by
  unfold instructionFeatures
  split
  · exact List.count_singleton.trans (if_neg (by simpa using hf.symm))
  · rfl

theorem count_instruction?Features (hf : f ≠ .crossRef) (instruction? : Option Text) :
    (instruction?.elim [] instructionFeatures).count f = 0 := by
  cases instruction? with
  | none => rfl
  | some instruction => exact count_instructionFeatures hf instruction

/-- A tag is counted once for the feature that it marks. -/
theorem count_tagFeatures (hbreak : f ≠ .pageBreak) (hcross : f ≠ .crossRef) (o : Outline)
    (tag : Tag) : (o.tagFeatures tag).count f = if f.Marks tag then 1 else 0 := by
  simp only [Feature.marks_iff, Outline.tagFeatures]
  cases Element.ofName tag.name with
  | lineBreak =>
    dsimp only
    split <;> simp [Element.feature?, hbreak.symm]
  | simpleField =>
    simp [Element.feature?, count_instruction?Features hcross, List.count_singleton]
  | fieldCharacter =>
    dsimp only
    split <;> simp_all [Element.feature?, List.count_singleton]
  | vectorShape =>
    dsimp only
    split <;> simp_all [Element.feature?, List.count_singleton]
  | _ => simp [Element.feature?, List.count_singleton]

/-- Nothing is skipped exactly where no skipped element is around. -/
theorem Outline.Fits.skipDepth_eq_zero_iff {around : List Tag} (h : o.Fits (around.map Tag.name)) :
    o.skipDepth = 0 ↔ ∀ a ∈ around, Element.ofName a.name ≠ .skipped := by
  constructor
  · intro hdepth a ha hskip
    refine h.plain ?_
    rw [Outline.visible, hdepth, List.drop_zero, ← hskip]
    exact List.mem_map_of_mem (List.mem_map_of_mem ha)
  · intro hvisible
    refine h.skipDepth_eq_zero fun name hname => ?_
    obtain ⟨a, ha, rfl⟩ := List.mem_map.mp hname
    exact hvisible a ha

theorem count_features (hbreak : f ≠ .pageBreak) (hcross : f ≠ .crossRef) {around : List Tag}
    (h : o.Fits (around.map Tag.name)) (event : Event) :
    (o.features event).count f =
      (place? around event).toList.countP fun p => IsVisible p ∧ f.Marks p.tag := by
  cases event with
  | opened tag | empty tag =>
    change (if o.skipDepth = 0 then o.tagFeatures tag else []).count f =
      [Place.mk around tag].countP _
    rw [List.countP_singleton]
    have hvisible : o.skipDepth = 0 ↔ IsVisible ⟨around, tag⟩ :=
      h.skipDepth_eq_zero_iff.trans (isVisible_iff ⟨around, tag⟩).symm
    by_cases hdepth : o.skipDepth = 0
    · rw [if_pos hdepth, count_tagFeatures hbreak hcross]
      simp [hvisible.mp hdepth]
    · rw [if_neg hdepth]
      simp [mt hvisible.mpr hdepth]
  | closed name => rfl
  | text raw =>
    rw [Outline.features]
    split
    · exact count_instruction?Features hcross _
    · rfl

/-- Features are seen as often as there are visible tags for them. -/
theorem count_featuresOf (hbreak : f ≠ .pageBreak) (hcross : f ≠ .crossRef) {around : List Tag}
    {events : List Event} {stack : List Text} (h : o.Fits (around.map Tag.name))
    (hnest : nest (around.map Tag.name) events = some stack) :
    (featuresOf o events).count f =
      (places around events).countP fun p => IsVisible p ∧ f.Marks p.tag := by
  induction events generalizing o around with
  | nil => rfl
  | cons event events ih =>
    obtain ⟨hstep, hrest⟩ := Xml.nest_enter hnest
    rw [featuresOf, List.count_append, ih (h.step hstep) hrest, count_features hbreak hcross h,
      Xml.places_cons, List.countP_append, Nat.add_comm]

end Count

/-- Each count of a report but those of page breaks and cross-references is a number of tags of the
document part outside skipped elements, or for headers and footers of identifiers of the document's
relationships. The other profile reads the package as well. A package with the same two parts has
the same counts under either profile, whatever its footnotes are. -/
theorem report_counts {package : Package} {profile : Profile} {s : Snapshot}
    (h : snapshot package profile = .ok s) :
    ∃ xml r, package.text? documentPart = .ok (some xml) ∧ s.report = some r ∧
      (∀ f ∉ [Feature.pageBreak, .crossRef, .header, .footer],
        r.count f = (placesIn xml).countP fun p => IsVisible p ∧ f.Marks p.tag) ∧
      r.count .header = (package.related "/header").ncard ∧
      r.count .footer = (package.related "/footer").ncard ∧
      (∀ profile', ∃ s', snapshot package profile' = .ok s') ∧
      ∀ package' profile' s', snapshot package' profile' = .ok s' →
        package'.text? documentPart = package.text? documentPart →
        package'.text? documentRelationshipsPart = package.text? documentRelationshipsPart →
        ∃ r', s'.report = some r' ∧ ∀ f, r'.count f = r.count f := by
  obtain ⟨c, hc, hs⟩ := exists_ok_of_bind h
  obtain rfl := Except.ok.inj hs
  obtain ⟨xml, htext, hseen⟩ := readContents_seen hc
  obtain ⟨stack, hnest⟩ := Xml.exists_nest_scan xml
  have hfits : (State.outline {}).Fits (([] : List Tag).map Tag.name) := .initial
  have hcount (f : Feature) (hbreak : f ≠ .pageBreak) (hcross : f ≠ .crossRef) :
      c.seen.count f = (if Feature.header == f then (package.related "/header").ncard else 0) +
        (if Feature.footer == f then (package.related "/footer").ncard else 0) +
        (placesIn xml).countP fun p => IsVisible p ∧ f.Marks p.tag := by
    rw [hseen, List.count_append, List.count_append, List.count_replicate, List.count_replicate,
      count_featuresOf hbreak hcross hfits hnest]
    rfl
  have hnone (f : Feature) (hf : f.tagNames = []) :
      (placesIn xml).countP (fun p => IsVisible p ∧ f.Marks p.tag) = 0 := by
    rw [List.countP_eq_zero]
    intro p _ hp
    have hname := (of_decide_eq_true hp).2.1
    rw [hf] at hname
    cases hname
  refine ⟨xml, _, htext, rfl, fun f hf => ?_, ?_, ?_, fun profile' => ?_,
    fun package' profile' s' h' hdocument hrelationships => ?_⟩
  · simp only [List.mem_cons, List.not_mem_nil, or_false, not_or] at hf
    obtain ⟨hbreak, hcross, hheader, hfooter⟩ := hf
    refine (hcount f hbreak hcross).trans ?_
    rw [if_neg (by simpa using Ne.symm hheader), if_neg (by simpa using Ne.symm hfooter),
      Nat.zero_add]
  · refine (hcount .header nofun nofun).trans ?_
    rw [hnone .header rfl]
    rfl
  · refine (hcount .footer nofun nofun).trans ?_
    rw [hnone .footer rfl]
    exact Nat.zero_add _
  · rw [← fault?_eq_none, snapshot_fault?, ← snapshot_fault? profile, fault?_eq_none]
    exact ⟨_, h⟩
  · obtain ⟨c', hc', hs'⟩ := exists_ok_of_bind h'
    obtain rfl := Except.ok.inj hs'
    obtain ⟨xml', htext', hseen'⟩ := readContents_seen hc'
    rw [hdocument, htext] at htext'
    obtain rfl : xml = xml' := by simpa using htext'
    have hrelated (suffix : Text) : package'.related suffix = package.related suffix := by
      rw [Package.related, Package.related, Package.relationshipTags, Package.relationshipTags,
        hrelationships]
    have hsame : c'.seen = c.seen := by rw [hseen', hseen, hrelated, hrelated]
    exact ⟨_, rfl, fun f => congrArg (List.count f) hsame⟩

/-- A shape in a fallback, a watermark and a deletion in a table. Of the relationships `a` is
replaced by a footer, an entry without a target does not replace `b`, and `c` is of no kind. -/
def countedPackage : Package := .ofTexts
  [(documentPart, List.flatten
    ["<w:document>", "<mc:Fallback>", "<w:pict/>", "</mc:Fallback>", "<w:tbl>", "<w:del>",
     "<v:shape id=\"WaterMark1\"/>", "</w:del>", "</w:tbl>", "</w:document>"]),
   (documentRelationshipsPart, List.flatten
    ["<Relationship Id=\"a\" Type=\"/header\" Target=\"x\"/>",
     "<Relationship Id=\"a\" Type=\"/footer\" Target=\"x\"/>",
     "<r:Relationship Id=\"b\" Type=\"t/header\" Target=\"\">", "</r:Relationship>",
     "<Relationship Id=\"b\" Type=\"/footer\"/>",
     "<Relationship Id=\"c\" Target=\"z\"/>",
     "<Relationship Id=\"d\" Type=\"/header\" Target=\"z\"/>"])]

theorem report_counts_countedPackage :
    ∃ s r, snapshot countedPackage .strict = .ok s ∧ s.report = some r ∧ r.count .shape = 0 ∧
      r.count .watermark = 1 ∧ r.count .revision = 1 ∧ r.count .table = 1 ∧
      r.count .header = 2 ∧ r.count .footer = 1 := by
  have hhtml : (snapshot countedPackage .strict).toOption.map Snapshot.html =
      some "<table></table>" := by
    simp only [snapshot, readContents, readNotes, readOptional, countedPackage,
      Package.text?_ofTexts]
    decide +kernel
  obtain ⟨s, hs, -⟩ := exists_snapshot hhtml
  obtain ⟨xml, r, htext, hr, hcount, hheader, hfooter, -⟩ := report_counts hs
  rw [countedPackage, Package.text?_ofTexts, Dictionary.find?, if_pos rfl] at htext
  obtain rfl := Option.some.inj (Except.ok.inj htext)
  refine ⟨s, r, hs, hr, ?_⟩
  rw [hcount .shape (by decide), hcount .watermark (by decide), hcount .revision (by decide),
    hcount .table (by decide), hheader, hfooter, Package.ncard_related, Package.ncard_related,
    Package.relationshipTags, countedPackage, Package.text?_ofTexts]
  decide +kernel

end Word
end MarkdownExport
