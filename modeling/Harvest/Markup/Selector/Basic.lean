/-! Selectors of elements. A selector reads from right to left: the compound on the right must hold
of the element itself, what stands to the left of it of other elements around.
-/

namespace Harvest.Markup

/-- How the element on the left of a combinator stands to the one on its right. -/
inductive Combinator where
  | descendant
  | child
  /-- Just before it among its siblings. -/
  | next
  /-- Anywhere before it among its siblings. -/
  | later
deriving DecidableEq, Repr

/-- How the value of an attribute compares with a wanted one. -/
inductive Comparison where
  | equal
  /-- One of the words is equal. -/
  | word
  /-- It is equal, or goes on with a hyphen. -/
  | dash
  | start
  | ending
  | part
deriving DecidableEq, Repr

/-- What is wanted of the value of an attribute. -/
structure ValueTest where
  comparison : Comparison
  value : String
  /-- The case of letters does not matter: never, always, or only in elements of HTML. -/
  ignoresCase : Bool
  ignoresCaseInHtml : Bool
deriving DecidableEq, Repr

/-- What is wanted of an attribute. -/
structure AttributeTest where
  name : String
  anySpace : Bool
  value : Option ValueTest
deriving DecidableEq, Repr

/-- Positions `a * n + b` for natural `n`, counted from one among siblings. -/
structure Positions where
  a : Int
  b : Int
  fromEnd : Bool
  ofType : Bool
deriving DecidableEq, Repr

mutual

/-- A condition on one element. -/
inductive Simple where
  | any
  /-- No element is without a vocabulary. -/
  | never
  | named (name : String)
  | id (name : String)
  | inClass (name : String)
  | having (test : AttributeTest)
  | root
  | empty
  | position (p : Positions)
  | is (list : List Complex)
  | not (list : List Complex)
  | has (list : List Complex)

/-- A condition on an element and on those around it. -/
inductive Complex where
  /-- The element from which a relative selector starts. -/
  | anchor
  | alone (compound : List Simple)
  | after (left : Complex) (combinator : Combinator) (compound : List Simple)

end

/-- A selector: a list of alternatives. -/
structure Selector where
  alternatives : List Complex

end Harvest.Markup
