import Harvest.Markup.Document
import Harvest.Markup.Token.Basic

/-! The tree under construction: the open elements, the formatting elements that still count, and
where the next node goes.
-/

namespace Harvest.Markup

/-- What part of a page is being read. -/
inductive Mode where
  | initial
  | beforeHtml
  | beforeHead
  | inHead
  | afterHead
  | inBody
  | text
  | inTable
  | inTableText
  | inCaption
  | inColumnGroup
  | inTableBody
  | inRow
  | inCell
  | inSelect
  | inSelectInTable
  | inTemplate
  | afterBody
  | inFrameset
  | afterFrameset
  | afterAfterBody
  | afterAfterFrameset
deriving DecidableEq, Repr

/-- An entry among the formatting elements. -/
inductive Formatting where
  | marker
  | element (n : NodeId) (tag : Tag)
deriving DecidableEq, Repr

/-- The entry of an element. -/
def Formatting.concerns (n : NodeId) : Formatting → Bool
  | .marker => false
  | .element m _ => m == n

/-- A tree under construction. The open elements are listed from the innermost one, the formatting
elements from the latest one.
-/
structure Builder where
  document : Document := .empty
  mode : Mode := .initial
  /-- The mode to return to after the text of an element or of a table. -/
  returnMode : Mode := .initial
  templateModes : List Mode := []
  stack : List NodeId := []
  formatting : List Formatting := []
  headElement : Option NodeId := none
  formElement : Option NodeId := none
  framesetAllowed : Bool := true
  /-- A table may stand in a paragraph. -/
  oldLayout : Bool := false
  /-- What does not belong into a table goes before it. -/
  fostering : Bool := false
  /-- A line feed that comes next is dropped. -/
  skipsNewline : Bool := false
  /-- The text of a table so far, from its end. -/
  tableText : List Char := []
  reading : Reading := .markup

/-- A change of a tree under construction. -/
abbrev Build := StateM Builder

/-- Whether a token has been used up or is to be looked at again in the present mode. -/
inductive Progress where
  | done
  | again (token : Token)

/-- Where a node goes. -/
inductive Place where
  | lastIn (parent : NodeId)
  /-- Before a table, or at the end of another node when the table stands nowhere. -/
  | beforeTable (table outer : NodeId)

namespace Builder

/-- The element at a node belongs to HTML and has one of some names. -/
def isOneOf (b : Builder) (names : List String) (n : NodeId) : Bool :=
  match b.document.element? n with
  | some e => e.space == .html && names.contains e.name
  | none => false

/-- The element at a node belongs to HTML and has a name. -/
def isNamed (b : Builder) (name : String) (n : NodeId) : Bool := b.isOneOf [name] n

/-- The innermost open element is one of HTML with one of some names. -/
def currentIn (b : Builder) (names : List String) : Bool := b.stack.head?.any (b.isOneOf names)

/-- The innermost open element is one of HTML with a name. -/
def currentIs (b : Builder) (name : String) : Bool := b.currentIn [name]

/-- An element of HTML with a name is open. -/
def hasOpen (b : Builder) (name : String) : Bool := b.stack.any (b.isNamed name)

/-- An element of formulas or drawings that holds text. -/
def holdsText (e : Element) : Bool :=
  match e.space with
  | .math => ["mi", "mo", "mn", "ms", "mtext"].contains e.name
  | _ => false

/-- An element of drawings that holds elements of HTML. -/
def holdsHtml (e : Element) : Bool :=
  e.space == .svg && ["foreignObject", "desc", "title"].contains e.name

/-- The elements that bound what an end tag may close, together with more of HTML. -/
def bounds (more : List String) (e : Element) : Bool :=
  match e.space with
  | .html =>
      ["applet", "caption", "html", "table", "td", "th", "marquee", "object", "template"].contains
        e.name || more.contains e.name
  | _ => holdsText e || holdsHtml e

/-- The elements that bound what a tag of a table may close. -/
def tableBounds (e : Element) : Bool :=
  e.space == .html && ["html", "table", "template"].contains e.name

/-- The elements that bound what a tag in a selection list may close. -/
def selectBounds (e : Element) : Bool :=
  !(e.space == .html && ["optgroup", "option"].contains e.name)

/-- Among open elements one is found before any that bounds the search. -/
def reaches (b : Builder) (bound : Element → Bool) (target : NodeId → Bool)
    : List NodeId → Bool
  | [] => false
  | n :: rest =>
      target n || (!(b.document.element? n).any bound && b.reaches bound target rest)

/-- An open element of HTML with a name is in reach. -/
def inScope (b : Builder) (bound : Element → Bool) (name : String) : Bool :=
  b.reaches bound (b.isNamed name) b.stack

/-- The elements of HTML that no other end tag closes. -/
def specialNames : List String :=
  ["address", "applet", "area", "article", "aside", "base", "basefont", "bgsound", "blockquote",
    "body", "br", "button", "caption", "center", "col", "colgroup", "dd", "details", "dir", "div",
    "dl", "dt", "embed", "fieldset", "figcaption", "figure", "footer", "form", "frame", "frameset",
    "h1", "h2", "h3", "h4", "h5", "h6", "head", "header", "hgroup", "hr", "html", "iframe", "img",
    "input", "isindex", "li", "link", "listing", "main", "marquee", "menu", "meta", "nav",
    "noembed", "noframes", "noscript", "object", "ol", "p", "param", "plaintext", "pre", "script",
    "section", "select", "source", "style", "summary", "table", "tbody", "td", "template",
    "textarea", "tfoot", "th", "thead", "title", "tr", "track", "ul", "wbr", "xmp"]

/-- No other end tag closes the element at a node. -/
def isSpecial (b : Builder) (n : NodeId) : Bool := b.isOneOf specialNames n

/-! ## Places -/

/-- The place at the end of an element; what a template holds goes into its contents. -/
def endOf (b : Builder) (n : NodeId) : Place :=
  if b.isNamed "template" n then .lastIn (((b.document.children n).head?).getD n)
  else .lastIn n

/-- The place of what does not belong into a table, given the open elements. -/
def fosterPlace (b : Builder) : List NodeId → Place
  | [] => .lastIn Document.root
  | [n] => b.endOf n
  | n :: outer :: rest =>
      if b.isNamed "template" n then b.endOf n
      else if b.isNamed "table" n then .beforeTable n outer
      else b.fosterPlace (outer :: rest)

/-- The place of what goes into an element. -/
def placeIn (b : Builder) (target : NodeId) : Place :=
  if b.fostering && b.isOneOf ["table", "tbody", "tfoot", "thead", "tr"] target then
    b.fosterPlace b.stack
  else b.endOf target

/-- The place of what comes next. -/
def place (b : Builder) : Place := b.placeIn (b.stack.head?.getD Document.root)

end Builder

namespace Build

/-- Changes the document. -/
def onDocument (f : Document → Document) : Build Unit :=
  modify fun b => { b with document := f b.document }

/-- Turns to another mode. -/
def turnTo (mode : Mode) : Build Unit := modify fun b => { b with mode }

/-- Looks at the token again in another mode. -/
def retryIn (mode : Mode) (token : Token) : Build Progress := do
  turnTo mode
  return .again token

/-- A token without any effect. -/
def ignore : Build Progress := return .done

/-- Makes a node that stands nowhere yet. -/
def create (content : Content) : Build NodeId :=
  modifyGet fun b =>
    let (document, n) := b.document.create content
    (n, { b with document })

/-- Makes an element; a template has its contents from the start. -/
def createElement (space : Space) (name : String) (attributes : List Attribute) : Build NodeId := do
  let n ← create (.element ⟨space, name, attributes⟩)
  if space == .html && name == "template" then
    let contents ← create .fragment
    onDocument (·.append n contents)
  return n

/-- Makes the element of a tag of HTML. -/
def createFor (tag : Tag) : Build NodeId :=
  createElement .html tag.name (tag.attributes.map fun (name, value) => ⟨name, value, false⟩)

/-- Puts a node to a place. -/
def putAt (place : Place) (n : NodeId) : Build Unit :=
  onDocument fun d =>
    match place with
    | .lastIn p => d.append p n
    | .beforeTable table outer =>
        if (d.parent? table).isSome then d.insertBefore table n else d.append outer n

/-- Puts a character to the present place. -/
def putChar (c : Char) : Build Unit := do
  let place := (← get).place
  onDocument fun d =>
    match place with
    | .lastIn p => d.appendChar p c
    | .beforeTable table outer =>
        if (d.parent? table).isSome then d.insertCharBefore table c else d.appendChar outer c

/-- Puts a comment to the end of a node. -/
def putComment (text : String) (place : Place) : Build Progress := do
  putAt place (← create (.comment text))
  return .done

/-- Puts a comment to the present place. -/
def commentHere (text : String) : Build Progress := do putComment text (← get).place

/-- Opens an element. -/
def push (n : NodeId) : Build Unit := modify fun b => { b with stack := n :: b.stack }

/-- Closes the innermost element. -/
def pop : Build Unit := modify fun b => { b with stack := b.stack.tail }

/-- Puts the element of a tag to the present place and opens it. -/
def insert (tag : Tag) : Build NodeId := do
  let n ← createFor tag
  putAt (← get).place n
  push n
  return n

/-- Puts an element that the page leaves out. -/
def insertImplied (name : String) : Build NodeId := insert { name }

/-- Puts the element of a tag to the present place, without any content. -/
def insertVoid (tag : Tag) : Build NodeId := do
  let n ← insert tag
  pop
  return n

/-- Puts the element of a tag and is done. -/
def insertDone (tag : Tag) : Build Progress := do
  let _ ← insert tag
  return .done

/-- Puts the element of a tag without any content and is done. -/
def insertVoidDone (tag : Tag) : Build Progress := do
  let _ ← insertVoid tag
  return .done

/-- Puts the element of a tag and reads its text. -/
def insertText (tag : Tag) (reading : Reading) : Build Progress := do
  let _ ← insert tag
  modify fun b => { b with returnMode := b.mode, mode := .text, reading }
  return .done

/-- Closes elements up to one for which a condition holds, and that one too. -/
def popThrough (stop : Builder → NodeId → Bool) : Build Unit :=
  modify fun b => { b with stack := (b.stack.dropWhile fun n => !stop b n).tail }

/-- Closes elements up to one of HTML with a name, and that one too. -/
def popNamed (name : String) : Build Unit := popThrough fun b => b.isNamed name

/-- Closes elements until the innermost one is among some of HTML. -/
def popUntil (names : List String) : Build Unit :=
  modify fun b => { b with stack := b.stack.dropWhile fun n => !b.isOneOf names n }

/-- Takes an element out of the open ones. -/
def removeOpen (n : NodeId) : Build Unit :=
  modify fun b => { b with stack := b.stack.filter (· != n) }

/-- The elements whose end tags the page may leave out. -/
def impliedEnds : List String :=
  ["dd", "dt", "li", "option", "optgroup", "p", "rb", "rp", "rt", "rtc"]

/-- The elements that the end of a template closes. -/
def templateEnds : List String :=
  impliedEnds ++ ["caption", "colgroup", "tbody", "td", "tfoot", "th", "thead", "tr"]

/-- Closes the innermost elements whose end tags may be left out, but for one name. -/
def closeImplied (except : String) : Build Unit :=
  modify fun b =>
    { b with stack := b.stack.dropWhile (b.isOneOf (impliedEnds.filter (· != except))) }

/-- Closes a paragraph. -/
def closeParagraph : Build Unit := do
  closeImplied "p"
  popNamed "p"

/-- Closes a paragraph if one is in reach. -/
def closeOpenParagraph : Build Unit := do
  if (← get).inScope (Builder.bounds ["button"]) "p" then closeParagraph

/-- A frameset can no longer take the place of the body. -/
def forbidFrameset : Build Unit := modify fun b => { b with framesetAllowed := false }

/-- Puts a marker among the formatting elements. -/
def pushMarker : Build Unit := modify fun b => { b with formatting := .marker :: b.formatting }

/-- Forgets the formatting elements from the last marker on. -/
def clearToMarker : Build Unit :=
  modify fun b => { b with formatting := (b.formatting.dropWhile (· != .marker)).tail }

end Build

/-- The mode in which the innermost open elements are read, the innermost first. -/
def Builder.modeFor (b : Builder) : List NodeId → Mode
  | [] => .inBody
  | n :: outer =>
      match (b.document.element? n).filter (·.space == .html) with
      | none => b.modeFor outer
      | some e =>
          match e.name with
          | "select" =>
              match outer.find? (b.isOneOf ["template", "table"]) with
              | some m => if b.isNamed "table" m then .inSelectInTable else .inSelect
              | none => .inSelect
          | "td" | "th" => if outer.isEmpty then b.modeFor outer else .inCell
          | "tr" => .inRow
          | "tbody" | "thead" | "tfoot" => .inTableBody
          | "caption" => .inCaption
          | "colgroup" => .inColumnGroup
          | "table" => .inTable
          | "template" => b.templateModes.head?.getD .inBody
          | "head" => if outer.isEmpty then b.modeFor outer else .inHead
          | "body" => .inBody
          | "frameset" => .inFrameset
          | "html" => if b.headElement.isSome then .afterHead else .beforeHead
          | _ => b.modeFor outer

/-- Turns to the mode of the open elements. -/
def Build.resetMode : Build Unit := modify fun b => { b with mode := b.modeFor b.stack }

end Harvest.Markup
