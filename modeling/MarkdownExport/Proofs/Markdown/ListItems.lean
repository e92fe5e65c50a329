import MarkdownExport.Proofs.Markdown.Skipping
import MarkdownExport.Proofs.Markdown.StartNumber

/-! The lines of a list. Each item has a line of its own, and the count goes on over tasks, so the
number of an item is told by its place alone. -/
namespace MarkdownExport.Markdown

/-- The number of the first item, if the items of a list are numbered. -/
def firstNumber? (tag : Text) (attributes : List Attribute) : Option Int :=
  if tag.lower = "ol" then some (((Attribute.find? "start" attributes).map startNumber).getD 1)
  else none

/-- The number of the item with index `i`, in 128 bits with a sign. -/
def listNumber (first : Int) (i : Nat) : Int := min (2 ^ 127 - 1) (first + i)

/-- What stands in front of an item that is no task. -/
def itemMark (first? : Option Int) (i : Nat) : Text :=
  match first? with
  | some first => signedDecimal (listNumber first i) ++ ". "
  | none => "- "

/-- The line of the item with index `i`. An item with a checkbox is a task where the dialect knows
tasks, whatever list it is in. The first checkbox in document order says whether it is done, and is
left out of its text. -/
inductive IsItemLine (dialect : Dialect) (first? : Option Int) (i : Nat) (item : Node) :
    Text → Prop
  | done {path : Node.Path} {box : Node} (hdialect : dialect = .gfm)
      (hbox : Node.IsFirst Node.isCheckbox item.children path box)
      (hchecked : ∃ a ∈ box.attributes, a.name.lower = "checked") :
      IsItemLine dialect first? i item
        ("- [x] " ++ (inlineWithout dialect path item.children).trim ++ "\n")
  | pending {path : Node.Path} {box : Node} (hdialect : dialect = .gfm)
      (hbox : Node.IsFirst Node.isCheckbox item.children path box)
      (hchecked : ¬ ∃ a ∈ box.attributes, a.name.lower = "checked") :
      IsItemLine dialect first? i item
        ("- [ ] " ++ (inlineWithout dialect path item.children).trim ++ "\n")
  | plain (hbox : dialect = .gfm → ∀ n ∈ Node.preorder item.children, n.isCheckbox = false) :
      IsItemLine dialect first? i item
        (itemMark first? i ++ (inlineAll dialect item.children).trim ++ "\n")

/-! Numbers. -/

theorem startNumber_bounds (given : Text) :
    -2 ^ 127 < startNumber given ∧ startNumber given < 2 ^ 127 := by
  obtain ⟨p, h⟩ := StartParts.exists_reads given
  rw [startNumber_of_reads h]
  unfold startValue
  split <;> omega

theorem firstNumber?_bounds {tag : Text} {attributes : List Attribute} {first : Int}
    (h : firstNumber? tag attributes = some first) : -2 ^ 127 < first ∧ first < 2 ^ 127 := by
  unfold firstNumber? at h
  split at h
  · cases h
    cases Attribute.find? "start" attributes with
    | none => decide
    | some given => exact startNumber_bounds given
  · cases h

theorem listNumber_mono (first : Int) {i j : Nat} (h : i ≤ j) :
    listNumber first i ≤ listNumber first j := by
  unfold listNumber
  omega

/-- Numbers go up by 1 until they stay at the greatest one. -/
theorem listNumber_succ (first : Int) (i : Nat) :
    listNumber first (i + 1) = listNumber first i + 1 ∨
      listNumber first i = 2 ^ 127 - 1 ∧ listNumber first (i + 1) = 2 ^ 127 - 1 := by
  unfold listNumber
  omega

theorem listNumber_bounds {first : Int} (h : -2 ^ 127 < first) (i : Nat) :
    -2 ^ 127 < listNumber first i ∧ listNumber first i < 2 ^ 127 := by
  unfold listNumber
  omega

/-! Lines. -/

/-- How a list with that first number marks its items. -/
def ListKind.ofFirst : Option Int → ListKind
  | some first => .numbered first
  | none => .bulleted

theorem marker_ofFirst (first? : Option Int) (i : Nat) :
    (ListKind.ofFirst first?).marker i = itemMark first? i := by
  cases first? with
  | none => rfl
  | some first =>
    have hgreatest : greatestNumber = 2 ^ 127 - 1 := by decide
    rw [ListKind.ofFirst, ListKind.marker, itemNumber, hgreatest]
    rfl

theorem hasAttribute_iff {name : Text} (hname : name.lower = name) (n : Node) :
    n.hasAttribute name = true ↔ ∃ a ∈ n.attributes, a.name.lower = name := by
  unfold Node.hasAttribute Node.attribute? Attribute.find?
  rw [Option.isSome_map, List.find?_isSome]
  simp [Text.equalsIgnoringCase, hname]

theorem isItemLine_itemLine (dialect : Dialect) (first? : Option Int) (i : Nat) (item : Node) :
    IsItemLine dialect first? i item (itemLine dialect (.ofFirst first?) i item) := by
  have hplain (hbox : dialect = .gfm → ∀ n ∈ Node.preorder item.children, n.isCheckbox = false)
      (hline : itemLine dialect (.ofFirst first?) i item =
        plainLine dialect (.ofFirst first?) i item) :
      IsItemLine dialect first? i item (itemLine dialect (.ofFirst first?) i item) := by
    rw [hline, plainLine, marker_ofFirst]
    exact .plain hbox
  cases dialect with
  | standard => exact hplain (fun h => by cases h) (itemLine_standard _ i item)
  | gfm =>
    cases hbox : Node.locate? Node.isCheckbox item.children with
    | none =>
      have hnone := Node.forall_of_locateFrom_eq_none hbox
      exact hplain (fun _ => hnone) (itemLine_of_no_box hnone .gfm _ i)
    | some box =>
      have hfirst := Node.isFirst_of_locate? hbox
      have hline : itemLine .gfm (.ofFirst first?) i item = taskLine
          (box.node.hasAttribute "checked") (inlineWithout .gfm box.path item.children) := by
        rw [itemLine, taskBox?, hbox]
        rfl
      rw [hline]
      cases hchecked : box.node.hasAttribute "checked" with
      | true => exact .done rfl hfirst ((hasAttribute_iff (by decide) _).mp hchecked)
      | false =>
        refine .pending rfl hfirst fun h => ?_
        rw [(hasAttribute_iff (by decide) _).mpr h] at hchecked
        cases hchecked

/-- The lines of a list's items. -/
def itemLines (dialect : Dialect) (kind : ListKind) (lis : List Node) : List Text :=
  lis.mapIdx fun i item => itemLine dialect kind i item

theorem itemLinesFrom_eq (dialect : Dialect) (kind : ListKind) (lis : List Node) (i : Nat) :
    itemLinesFrom dialect kind i lis =
      (lis.mapIdx fun j item => itemLine dialect kind (i + j) item).flatten := by
  induction lis generalizing i with
  | nil => rfl
  | cons item lis ih =>
    rw [itemLinesFrom, ih, List.mapIdx_cons, List.flatten_cons]
    simp only [Nat.add_zero, Nat.add_assoc, Nat.add_comm 1]

theorem list_eq (kind : ListKind) {s : Subject} (h : ∃ c ∈ s.children, c.isTag "li" = true) :
    list kind s = '\n' :: (itemLines s.dialect kind (items s.children)).flatten ++ ['\n'] := by
  obtain ⟨c, hc, hitem⟩ := h
  have hmem : c ∈ items s.children := List.mem_filter.mpr ⟨hc, hitem⟩
  unfold list
  split
  next hnil =>
    rw [hnil] at hmem
    cases hmem
  next =>
    rw [itemLinesFrom_eq, itemLines]
    simp

section List
variable {tag : Text} {attributes : List Attribute} {children : List Node}

theorem blockNode_eq_itemLines (htag : tag.lower = "ul" ∨ tag.lower = "ol")
    (hitem : ∃ c ∈ children, c.isTag "li" = true) (dialect : Dialect) :
    blockNode dialect defaultRules (.element tag attributes children) =
      '\n' :: (itemLines dialect (.ofFirst (firstNumber? tag attributes))
        (items children)).flatten ++ ['\n'] := by
  rcases htag with htag | htag
  · have hrule : blockNode dialect defaultRules (.element tag attributes children) =
        list .bulleted (subject dialect tag attributes children) := by
      rw [blockNode, htag]
      rfl
    have hfirst : firstNumber? tag attributes = none := by
      rw [firstNumber?, htag]
      rfl
    rw [hrule, hfirst]
    exact list_eq .bulleted hitem
  · have hrule : blockNode dialect defaultRules (.element tag attributes children) =
        numberedList (subject dialect tag attributes children) := by
      rw [blockNode, htag]
      rfl
    have hfirst : firstNumber? tag attributes =
        some (((Attribute.find? "start" attributes).map startNumber).getD 1) := by
      rw [firstNumber?, if_pos htag]
    rw [hrule, hfirst]
    exact list_eq (.numbered _) hitem

/-- A list is written as one line for each of its items, in their order, and nothing else in it
counts. The text of a task is that without its checkbox exactly if the checkbox has no text or is
not revealed. Numbers stay in their range, never go down, and go up by 1 until they stay at the
greatest one. -/
theorem blockNode_list (htag : tag.lower = "ul" ∨ tag.lower = "ol")
    (hitem : ∃ c ∈ children, c.isTag "li" = true) (dialect : Dialect) :
    (∃ lines : List Text,
      blockNode dialect defaultRules (.element tag attributes children) =
        '\n' :: lines.flatten ++ ['\n'] ∧
      lines.length = (items children).length ∧
      ∀ (i : Nat) item line, (items children)[i]? = some item → lines[i]? = some line →
        IsItemLine dialect (firstNumber? tag attributes) i item line) ∧
    (∀ children', items children' = items children →
      blockNode dialect defaultRules (.element tag attributes children') =
        blockNode dialect defaultRules (.element tag attributes children)) ∧
    (∀ item ∈ items children, ∀ path box,
      Node.IsFirst Node.isCheckbox item.children path box →
        ((inlineWithout dialect path item.children).trim =
            (inlineAll dialect (Node.removeAt path item.children)).trim ↔
          (isRevealed dialect path item.children = true → box.textContent = []))) ∧
    ∀ first, firstNumber? tag attributes = some first →
      (∀ i, -2 ^ 127 < listNumber first i ∧ listNumber first i < 2 ^ 127) ∧
      (∀ i j, i ≤ j → listNumber first i ≤ listNumber first j) ∧
      ∀ i, listNumber first (i + 1) = listNumber first i + 1 ∨
        listNumber first i = 2 ^ 127 - 1 ∧ listNumber first (i + 1) = 2 ^ 127 - 1 := by
  refine ⟨?_, ?_, ?_, ?_⟩
  · refine ⟨_, blockNode_eq_itemLines htag hitem dialect, List.length_mapIdx, ?_⟩
    intro i item line hi hline
    rw [itemLines, List.getElem?_mapIdx, hi] at hline
    cases hline
    exact isItemLine_itemLine dialect _ i item
  · intro children' hitems
    obtain ⟨c, hc, hli⟩ := hitem
    have hmem : c ∈ items children' := by
      rw [hitems]
      exact List.mem_filter.mpr ⟨hc, hli⟩
    have hitem' : ∃ c ∈ children', c.isTag "li" = true := ⟨c, List.mem_filter.mp hmem⟩
    rw [blockNode_eq_itemLines htag hitem', blockNode_eq_itemLines htag ⟨c, hc, hli⟩, hitems]
  · intro item _ path box hbox
    by_cases hrevealed : isRevealed dialect path item.children = true
    · rw [(insertsWithin_of_isRevealed hbox.at_place hrevealed).trim_eq_iff,
        imp_iff_right hrevealed]
    · rw [inlineWithout_of_not_isRevealed hbox.at_place hrevealed]
      exact iff_of_true rfl (absurd · hrevealed)
  · intro first hfirst
    exact ⟨listNumber_bounds (firstNumber?_bounds hfirst).1, fun i j => listNumber_mono first,
      listNumber_succ first⟩

end List

/-- Tasks between numbers that reach the greatest one, and nodes that are no items. -/
theorem blockNode_list_mixed :
    let start : List Attribute := [⟨"START", "170141183460469231731687303715884105726"⟩]
    let box : Node := .element "input" [⟨"type", "Checkbox"⟩, ⟨"CHECKED", []⟩] []
    let lis : List Node := [.element "li" [] [.text " a "],
      .element "LI" [] [.element "code" [] [box, .text "b"], .element "input" [] []],
      .element "li" [] [.text "c"], .element "li" [] []]
    let children : List Node := .text "\n" :: .element "p" [] [box] :: lis
    Text.lower "OL" = "ol" ∧ (∃ c ∈ children, c.isTag "li" = true) ∧
      blockNode .gfm defaultRules (.element "OL" start children) =
        blockNode .gfm defaultRules (.element "OL" start lis) ∧
      blockNode .gfm defaultRules (.element "OL" start lis) =
        "\n170141183460469231731687303715884105726. a\n- [x] \x60b\x60\n" ++
          "170141183460469231731687303715884105727. c\n" ++
            "170141183460469231731687303715884105727. \n\n" := by
  intro start box lis children
  have htag : Text.lower "OL" = "ol" := by decide
  have hitem : ∃ c ∈ lis, c.isTag "li" = true := ⟨_, List.mem_cons_self, by decide⟩
  have hchildren : ∃ c ∈ children, c.isTag "li" = true := by
    obtain ⟨c, hc, hli⟩ := hitem
    exact ⟨c, List.mem_cons_of_mem _ (List.mem_cons_of_mem _ hc), hli⟩
  have hitems : items children = items lis := rfl
  have hlist := @blockNode_list "OL" start lis (Or.inr htag) hitem .gfm
  exact ⟨htag, hchildren, hlist.2.1 children hitems, by decide +kernel⟩

/-- A code span around a checkbox with text shows that text in the line of the task. -/
theorem blockNode_list_revealed :
    let box : Node := .element "input" [⟨"type", "checkbox"⟩] [.text "c"]
    let item : Node := .element "li" [] [.element "code" [] [.text "a", box]]
    Node.IsFirst Node.isCheckbox item.children [0, 1] box ∧
      blockNode .gfm defaultRules (.element "ul" [] [item]) = "\n- [ ] \x60ac\x60\n\n" ∧
      inlineAll .gfm (Node.removeAt [0, 1] item.children) = "\x60a\x60" := by
  intro box item
  have hfound : Node.locate? Node.isCheckbox item.children = some ⟨[0, 1], box⟩ := rfl
  exact ⟨Node.isFirst_of_locate? hfound, by decide +kernel, by decide⟩

end MarkdownExport.Markdown
