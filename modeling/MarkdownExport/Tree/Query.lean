import MarkdownExport.Tree.Basic

/-! Searching below a list of nodes in document order: every element comes before its descendants,
and those before its following siblings. -/
namespace MarkdownExport.Node

/-- The way to a node: at each level the index among its siblings. -/
abbrev Path := List Nat

structure Located where
  path : Path
  node : Node

mutual

def preorderOf : Node → List Node
  | n@(element _ _ children) => n :: preorder children
  | n => [n]

/-- All nodes of a forest in document order. -/
def preorder : List Node → List Node
  | [] => []
  | n :: ns => preorderOf n ++ preorder ns

end

mutual

def findBelow (p : Node → Bool) : Node → List Node
  | element _ _ children => findAll p children
  | _ => []

def findAll (p : Node → Bool) : List Node → List Node
  | [] => []
  | n :: ns => (if p n then [n] else []) ++ findBelow p n ++ findAll p ns

end

mutual

def locateBelow (p : Node → Bool) : Node → Option Located
  | element _ _ children => locateFrom p 0 children
  | _ => none

/-- The first match among nodes of which the first has index `i`. -/
def locateFrom (p : Node → Bool) (i : Nat) : List Node → Option Located
  | [] => none
  | n :: ns =>
    if p n then some ⟨[i], n⟩
    else match locateBelow p n with
      | some found => some ⟨i :: found.path, found.node⟩
      | none => locateFrom p (i + 1) ns

end

def locate? (p : Node → Bool) (forest : List Node) : Option Located := locateFrom p 0 forest

def findFirst? (p : Node → Bool) (forest : List Node) : Option Node :=
  (locate? p forest).map Located.node

def findTag? (tag : Text) (forest : List Node) : Option Node := findFirst? (isTag tag) forest

def findTags (tag : Text) (forest : List Node) : List Node := findAll (isTag tag) forest

mutual

def adjacentBelow (previous p : Node → Bool) : Node → Option Node
  | element _ _ children => adjacentAfter previous p none children
  | _ => none

/-- The first match among nodes that come after the sibling element `last`. -/
def adjacentAfter (previous p : Node → Bool) (last : Option Node) : List Node → Option Node
  | [] => none
  | n :: ns =>
    if n.isElement then
      if p n && last.any previous then some n
      else match adjacentBelow previous p n with
        | some found => some found
        | none => adjacentAfter previous p (some n) ns
    else adjacentAfter previous p last ns

end

/-- The first element that satisfies `p` and whose previous sibling element satisfies `previous`. -/
def findAdjacent? (previous p : Node → Bool) (forest : List Node) : Option Node :=
  adjacentAfter previous p none forest

/-- The nodes in the `body` element, or all nodes if there is none. -/
def body (document : List Node) : List Node :=
  match findTag? "body" document with
  | some b => b.children
  | none => document

end MarkdownExport.Node
