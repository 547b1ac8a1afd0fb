import Harvest.Markup.Document
import Harvest.Markup.Selector.Basic
import Harvest.Text.Blank

/-! Which elements a selector selects. The elements are listed in the order in which they were
made, which is the order of the page wherever nothing was moved.
-/

namespace Harvest.Markup

namespace Document

/-- The elements among some nodes. -/
def elementsOf (d : Document) (ns : List NodeId) : List NodeId := ns.filter d.isElement

/-- The elements above an element, the nearest first. -/
def elementsAbove (d : Document) (n : NodeId) : List NodeId :=
  (d.ancestors n).takeWhile d.isElement

/-- The elements that stand to an element as a combinator wants it. -/
def leftOf (d : Document) (n : NodeId) : Combinator → List NodeId
  | .descendant => d.elementsAbove n
  | .child => (d.elementsAbove n).take 1
  | .next => (d.elementsOf (d.siblingsBefore n)).take 1
  | .later => d.elementsOf (d.siblingsBefore n)

/-- The elements that a relative selector can select from an element. -/
def reachable (d : Document) (n : NodeId) : List NodeId :=
  d.elementsOf (d.descendants n
    ++ (d.siblingsAfter n).flatMap fun sibling => sibling :: d.descendants sibling)

/-- The values of the attributes of an element that have a name. -/
def attributeValues (e : Element) (name : String) : List String :=
  (e.attributes.filter (·.name == name)).map (·.value)

end Document

/-- A text holds another one. -/
def holdsPart (part : List Char) : List Char → Bool
  | [] => part.isEmpty
  | c :: cs => (c :: cs).take part.length == part || holdsPart part cs

/-- The parts of a text between characters of a kind. -/
def splitWhere (isBreak : Char → Bool) : List Char → List (List Char)
  | [] => [[]]
  | c :: cs =>
      match splitWhere isBreak cs with
      | part :: parts => if isBreak c then [] :: part :: parts else (c :: part) :: parts
      | [] => [[c]]

/-- The value of an attribute compares as wanted. -/
def Comparison.holds (comparison : Comparison) (value wanted : List Char) : Bool :=
  match comparison with
  | .equal => value == wanted
  | .word => !wanted.isEmpty
      && (splitWhere (fun c => " \t\n\r\x0c".contains c) value).contains wanted
  | .dash => value == wanted || value.take (wanted.length + 1) == wanted ++ ['-']
  | .start => !wanted.isEmpty && value.take wanted.length == wanted
  | .ending => !wanted.isEmpty && wanted.length ≤ value.length
      && value.drop (value.length - wanted.length) == wanted
  | .part => !wanted.isEmpty && holdsPart wanted value

/-- The value of an attribute of an element passes a test. -/
def ValueTest.holds (test : ValueTest) (e : Element) (value : String) : Bool :=
  let caseless := test.ignoresCase || (test.ignoresCaseInHtml && e.space == .html)
  let plain s := if caseless then (Text.lowerAscii s).toList else s.toList
  test.comparison.holds (plain value) (plain test.value)

/-- The name of an element or an attribute as it is compared: HTML has small letters only. -/
def nameIn (e : Element) (name : String) : String :=
  if e.space == .html then Text.lowerAscii name else name

/-- An attribute of an element passes a test. -/
def AttributeTest.holds (test : AttributeTest) (e : Element) : Bool :=
  e.attributes.any fun a =>
    a.name == nameIn e test.name && (test.anySpace || !a.qualified)
      && test.value.all (·.holds e a.value)

/-- A position is one of some positions. -/
def Positions.has (p : Positions) (position : Nat) : Bool :=
  let an := (position : Int) - p.b
  if p.a == 0 then an == 0 else an % p.a == 0 && 0 ≤ an / p.a

/-- The elements have one name in one vocabulary. -/
def Document.sameType (d : Document) (m n : NodeId) : Bool :=
  match d.element? m, d.element? n with
  | some e, some f => e.space == f.space && e.name == f.name
  | _, _ => false

/-- The position of an element among its siblings, counted from one. -/
def Document.position (d : Document) (p : Positions) (n : NodeId) : Nat :=
  let siblings := d.elementsOf (if p.fromEnd then d.siblingsAfter n else d.siblingsBefore n)
  (if p.ofType then siblings.filter (d.sameType n) else siblings).length + 1

mutual

/-- A condition holds of an element; `anchor` is the element a relative selector starts from. -/
def Simple.holds (d : Document) (anchor : Option NodeId) (n : NodeId) (e : Element)
    : Simple → Bool
  | .any => true
  | .never => false
  | .named name => e.name == nameIn e name
  | .id name => (Document.attributeValues e "id").head? == some name
  | .inClass name =>
      (Document.attributeValues e "class").any fun value =>
        (splitWhere Text.isBlank value.toList).contains name.toList
  | .having test => test.holds e
  | .root => d.parent? n == some Document.root
  | .empty => !(d.children n).any fun c => d.isElement c || d.isText c
  | .position p => p.has (d.position p n)
  | .is list => anyHolds d anchor n list
  | .not list => !anyHolds d anchor n list
  | .has list => (d.reachable n).any fun m => anyHolds d (some n) m list

/-- All conditions of a compound hold of an element. -/
def allHold (d : Document) (anchor : Option NodeId) (n : NodeId) (e : Element)
    : List Simple → Bool
  | [] => true
  | s :: rest => s.holds d anchor n e && allHold d anchor n e rest

/-- A selector holds of a node. -/
def Complex.holds (d : Document) (anchor : Option NodeId) (n : NodeId) : Complex → Bool
  | .anchor => anchor == some n
  | .alone compound =>
      match d.element? n with
      | some e => allHold d anchor n e compound
      | none => false
  | .after left combinator compound =>
      match d.element? n with
      | some e => allHold d anchor n e compound
          && (d.leftOf n combinator).any fun m => left.holds d anchor m
      | none => false

/-- One of some selectors holds of a node. -/
def anyHolds (d : Document) (anchor : Option NodeId) (n : NodeId) : List Complex → Bool
  | [] => false
  | c :: rest => c.holds d anchor n || anyHolds d anchor n rest

end

/-- The elements that a selector selects. -/
def Document.select (d : Document) (selector : Selector) : List NodeId :=
  (List.range d.size).filter fun n =>
    (d.parent? n).isSome && anyHolds d none n selector.alternatives

end Harvest.Markup
