/-! Documents as a store of nodes. A node knows its parent and its children; the first node is the
document itself, and nodes keep the order in which they were made.
-/

namespace Harvest.Markup

/-- The vocabularies an element can belong to. -/
inductive Space where
  | html
  | svg
  | math
deriving DecidableEq, Repr, Inhabited

/-- An attribute: its name, its value, and whether its name belongs to another vocabulary. -/
structure Attribute where
  name : String
  value : String
  qualified : Bool := false
deriving DecidableEq, Repr

/-- An element. -/
structure Element where
  space : Space
  name : String
  attributes : List Attribute
deriving DecidableEq, Repr

/-- What a node is. -/
inductive Content where
  | root
  /-- The contents of a template. -/
  | fragment
  | element (e : Element)
  | text (s : String)
  | comment (s : String)
deriving DecidableEq, Repr, Inhabited

/-- Nodes are known by their place in the store. -/
abbrev NodeId := Nat

/-- A node. -/
structure Node where
  content : Content
  parent : Option NodeId := none
  children : Array NodeId := #[]
deriving Inhabited

/-- A store of nodes. -/
structure Document where
  nodes : Array Node

namespace Document

/-- The document itself. -/
def root : NodeId := 0

/-- A document without any nodes of its own. -/
def empty : Document := ⟨#[⟨.root, none, #[]⟩]⟩

/-- The number of nodes. -/
def size (d : Document) : Nat := d.nodes.size

/-- The content of a node. -/
def content? (d : Document) (n : NodeId) : Option Content := (d.nodes[n]?).map Node.content

/-- The element at a node. -/
def element? (d : Document) (n : NodeId) : Option Element :=
  match d.content? n with
  | some (.element e) => some e
  | _ => none

/-- The node is an element. -/
def isElement (d : Document) (n : NodeId) : Bool := (d.element? n).isSome

/-- The parent of a node. -/
def parent? (d : Document) (n : NodeId) : Option NodeId := (d.nodes[n]?).bind Node.parent

/-- The children of a node, in order. -/
def children (d : Document) (n : NodeId) : List NodeId :=
  ((d.nodes[n]?).map fun node => node.children.toList).getD []

/-! ## Changes -/

/-- The document with a node of its own that stands nowhere, and that node. -/
def create (d : Document) (content : Content) : Document × NodeId :=
  (⟨d.nodes.push ⟨content, none, #[]⟩⟩, d.size)

/-- The document with one node changed. -/
def modify (d : Document) (n : NodeId) (f : Node → Node) : Document :=
  ⟨d.nodes.modify n f⟩

/-- The document with a node taken out of its place. -/
def detach (d : Document) (n : NodeId) : Document :=
  match d.parent? n with
  | none => d
  | some p =>
      (d.modify p fun node => { node with children := node.children.filter (· != n) }).modify n
        fun node => { node with parent := none }

/-- The document with a node as the last child of another. -/
def append (d : Document) (p n : NodeId) : Document :=
  ((d.detach n).modify p fun node => { node with children := node.children.push n }).modify n
    fun node => { node with parent := some p }

/-- A list with an item put before another one. -/
def putBefore (mark n : NodeId) (children : Array NodeId) : Array NodeId :=
  (children.toList.flatMap fun c => if c == mark then [n, c] else [c]).toArray

/-- The document with a node just before another one that stands somewhere. -/
def insertBefore (d : Document) (mark n : NodeId) : Document :=
  let d := d.detach n
  match d.parent? mark with
  | none => d
  | some p =>
      (d.modify p fun node => { node with children := putBefore mark n node.children }).modify n
        fun node => { node with parent := some p }

/-- The document with all children of a node moved to the end of another one. -/
def moveChildren (d : Document) (source target : NodeId) : Document :=
  (d.children source).foldl (fun d n => d.append target n) d

/-- The document with a character at the end of a text. -/
def extendText (d : Document) (n : NodeId) (c : Char) : Document :=
  d.modify n fun node =>
    match node with
    | ⟨.text s, parent, children⟩ => ⟨.text (s.push c), parent, children⟩
    | node => node

/-- The node is a text. -/
def isText (d : Document) (n : NodeId) : Bool :=
  match d.content? n with
  | some (.text _) => true
  | _ => false

/-- The document with a character at the end of a node, in its last text if that comes last. -/
def appendChar (d : Document) (p : NodeId) (c : Char) : Document :=
  match (d.nodes[p]?).bind fun node => node.children.back? with
  | some last => if d.isText last then d.extendText last c else fresh
  | none => fresh
where
  fresh : Document :=
    let (d, n) := d.create (.text (String.singleton c))
    d.append p n

/-- The child just before another one. -/
def previousSibling? (d : Document) (n : NodeId) : Option NodeId := do
  let p ← d.parent? n
  ((d.children p).takeWhile (· != n)).getLast?

/-- The document with a character just before a node that stands somewhere. -/
def insertCharBefore (d : Document) (mark : NodeId) (c : Char) : Document :=
  match (d.previousSibling? mark).filter d.isText with
  | some n => d.extendText n c
  | none =>
      let (d, n) := d.create (.text (String.singleton c))
      d.insertBefore mark n

/-- The document with the attributes that an element does not have yet. -/
def addMissing (d : Document) (n : NodeId) (attributes : List Attribute) : Document :=
  d.modify n fun node =>
    match node.content with
    | .element e =>
        let missing := attributes.filter fun a => !e.attributes.any (·.name == a.name)
        { node with content := .element { e with attributes := e.attributes ++ missing } }
    | _ => node

/-! ## Views -/

/-- The nodes above a node, the nearest first; `fuel` bounds their number. -/
def ancestorsWithin (d : Document) : (fuel : Nat) → NodeId → List NodeId
  | 0, _ => []
  | fuel + 1, n =>
      match d.parent? n with
      | some p => p :: d.ancestorsWithin fuel p
      | none => []

/-- The nodes above a node, the nearest first. -/
def ancestors (d : Document) (n : NodeId) : List NodeId := d.ancestorsWithin d.size n

/-- The nodes below a node in the order of the document, and then some others; `fuel` bounds
their depth.
-/
def descendantsThen (d : Document) : (fuel : Nat) → NodeId → (others : List NodeId) → List NodeId
  | 0, _, others => others
  | fuel + 1, n, others =>
      (d.children n).foldr (fun c others => c :: d.descendantsThen fuel c others) others

/-- The nodes below a node in the order of the document. -/
def descendants (d : Document) (n : NodeId) : List NodeId := d.descendantsThen d.size n []

/-- The texts below a node in one text. -/
def text (d : Document) (n : NodeId) : String :=
  String.join ((d.descendants n).map fun c =>
    match d.content? c with
    | some (.text s) => s
    | _ => "")

/-- The siblings before a node, the nearest first. -/
def siblingsBefore (d : Document) (n : NodeId) : List NodeId :=
  match d.parent? n with
  | some p => ((d.children p).takeWhile (· != n)).reverse
  | none => []

/-- The siblings after a node, the nearest first. -/
def siblingsAfter (d : Document) (n : NodeId) : List NodeId :=
  match d.parent? n with
  | some p => ((d.children p).dropWhile (· != n)).tail
  | none => []

end Document

end Harvest.Markup
