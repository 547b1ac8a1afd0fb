import Harvest.Json.Token

/-! Words are put together with a stack of the lists and records that are still open. A word
that cannot stand where it comes leaves its damage there and ends the reading.
-/

namespace Harvest.Json

/-- A list or record that is still open, the last parts first. -/
inductive Frame where
  | list (items : List Draft)
  | record (members : List (Except SyntaxError String × Draft))
  /-- A record with a name whose value is still to come. -/
  | member (members : List (Except SyntaxError String × Draft))
      (name : Except SyntaxError String)

/-- What may come next. -/
inductive Place where
  /-- A value. -/
  | value
  /-- The first item of a list, or its end. -/
  | firstItem
  /-- Another item, after a comma. -/
  | nextItem
  /-- A comma or the end, after an item. -/
  | afterItem
  /-- The first name of a record, or its end. -/
  | firstName
  /-- Another name, after a comma. -/
  | nextName
  /-- The colon after a name. -/
  | colon
  /-- A comma or the end, after a member. -/
  | afterMember
deriving DecidableEq

/-- A document while it is read. -/
inductive Reading where
  | going (stack : List Frame) (place : Place)
  | whole (root : Draft)
  | ended (root : Draft) (trailing : Bool)

/-- A document: its root, and whether anything but blanks follows it. -/
structure Document where
  root : Draft
  trailing : Bool

/-- The whole document around a draft in the open frames, all closed as they are. -/
def enclose (inner : Draft) : List Frame → Draft
  | [] => inner
  | .list items :: up => enclose (.array (inner :: items).reverse none) up
  | .record members :: up => enclose (.object members.reverse none) up
  | .member members name :: up => enclose (.object ((name, inner) :: members).reverse none) up

/-- The reading after a complete value. -/
def Reading.attach (value : Draft) : List Frame → Reading
  | [] => .whole value
  | .list items :: up => .going (.list (value :: items) :: up) .afterItem
  | .record members :: up => .going (.record members :: up) .afterMember
  | .member members name :: up => .going (.record ((name, value) :: members) :: up) .afterMember

/-- The reading that ends with damage where a value should be. -/
def Reading.breakValue (breach : Breach) (stack : List Frame) : Reading :=
  .ended (enclose (.broken breach) stack) false

/-- The reading that ends with damage inside the innermost open list or record. -/
def Reading.breakInner (breach : Breach) : List Frame → Reading
  | [] => .ended (.broken breach) false
  | .list items :: up => .ended (enclose (.array items.reverse (some breach)) up) false
  | .record members :: up =>
      .ended (enclose (.object members.reverse (some breach)) up) false
  | .member members name :: up =>
      .ended (enclose (.broken breach) (.member members name :: up)) false

/-- The reading after a word where a value should be. -/
def Reading.takeValue (stack : List Frame) : Token → Reading
  | .openList => .going (.list [] :: stack) .firstItem
  | .openRecord => .going (.record [] :: stack) .firstName
  | .null => attach .null stack
  | .bool b => attach (.bool b) stack
  | .number n => attach (.number n) stack
  | .string s => attach (.string s) stack
  | .badString breach => breakValue breach stack
  | .badValue breach => breakValue breach stack
  | _ => breakValue (.both .expectedValue) stack

/-- The reading after a word where a name should be; `otherwise` is the damage of a word
that is none.
-/
def Reading.takeName (otherwise : Breach) (stack : List Frame) : Token → Reading
  | .string name =>
      match stack with
      | .record members :: up => .going (.member members name :: up) .colon
      | stack => breakInner otherwise stack
  | .badString breach => breakInner breach stack
  | _ => breakInner otherwise stack

/-- The reading after the end of the innermost list or record. -/
def Reading.close : List Frame → Reading
  | .list items :: up => attach (.array items.reverse none) up
  | .record members :: up => attach (.object members.reverse none) up
  | stack => breakValue (.both .expectedValue) stack

/-- The reading after one more word. -/
def Reading.next (reading : Reading) (token : Token) : Reading :=
  match reading with
  | .ended root trailing => .ended root trailing
  | .whole root => .ended root true
  | .going stack place =>
      match place, token with
      | .value, token => takeValue stack token
      | .firstItem, .closeList => close stack
      | .firstItem, token => takeValue stack token
      | .nextItem, .closeList => breakInner ⟨.trailingComma, .expectedValue⟩ stack
      | .nextItem, token => takeValue stack token
      | .afterItem, .comma => .going stack .nextItem
      | .afterItem, .closeList => close stack
      | .afterItem, _ => breakInner (.both .expectedCommaOrBracket) stack
      | .firstName, .closeRecord => close stack
      | .firstName, token => takeName (.both .nameNotString) stack token
      | .nextName, .closeRecord => breakInner ⟨.trailingComma, .nameNotString⟩ stack
      | .nextName, token => takeName (.both .nameNotString) stack token
      | .colon, .colon => .going stack .value
      | .colon, _ => breakInner (.both .expectedColon) stack
      | .afterMember, .comma => .going stack .nextName
      | .afterMember, .closeRecord => close stack
      | .afterMember, _ => breakInner (.both .expectedCommaOrBrace) stack

/-- The damage of a text that ends at a place. -/
def Place.cut : Place → Breach
  | .value => .both .valueCut
  | .firstItem => .both .listCut
  | .nextItem => .both .valueCut
  | .afterItem => .both .listCut
  | .firstName => .both .objectCut
  | .nextName => ⟨.valueCut, .objectCut⟩
  | .colon => .both .objectCut
  | .afterMember => .both .objectCut

/-- The document where the words end. -/
def Reading.finish : Reading → Document
  | .ended root trailing => ⟨root, trailing⟩
  | .whole root => ⟨root, false⟩
  | .going stack place =>
      let reading := match place with
        | .value => breakValue place.cut stack
        | _ => breakInner place.cut stack
      match reading with
      | .ended root trailing => ⟨root, trailing⟩
      | _ => ⟨.broken place.cut, false⟩

/-- What a text says. -/
def document (text : String) : Document :=
  ((tokens text).foldl Reading.next (.going [] .value)).finish

/-- The value that a text holds. -/
def parse (text : String) : Except SyntaxError Json := do
  let doc := document text
  let value ← doc.root.value depthLimit
  if doc.trailing then throw .trailingCharacters
  return value

/-- The value that a text holds, if it is a document. -/
def parse? (text : String) : Option Json :=
  (parse text).toOption

end Harvest.Json
