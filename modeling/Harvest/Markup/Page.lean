import Harvest.Markup.Builder.Table
import Harvest.Markup.Token.Reader

/-! Documents from the text of a page. Every text is a page: whatever is wrong with it has a place
in the document all the same.
-/

namespace Harvest.Markup

namespace Build

/-- Looks at a token by the rules of HTML, in the present mode. -/
def inMode (token : Token) : Build Progress := do
  match (← get).mode with
  | .initial => initial token
  | .beforeHtml => beforeHtml token
  | .beforeHead => beforeHead token
  | .inHead => inHead token
  | .afterHead => afterHead token
  | .inBody => inBody token
  | .text => inText token
  | .inTable => inTable token
  | .inTableText => inTableText token
  | .inCaption => inCaption token
  | .inColumnGroup => inColumnGroup token
  | .inTableBody => inTableBody token
  | .inRow => inRow token
  | .inCell => inCell token
  | .inSelect => inSelect token
  | .inSelectInTable => inSelectInTable token
  | .inTemplate => inTemplate token
  | .afterBody => afterBody token
  | .inFrameset => inFrameset token
  | .afterFrameset => afterFrameset token
  | .afterAfterBody => afterAfterBody token
  | .afterAfterFrameset => afterAfterFrameset token

/-- The names of the elements of HTML that end formulas and drawings. -/
def breakoutNames : List String :=
  ["b", "big", "blockquote", "body", "br", "center", "code", "dd", "div", "dl", "dt", "em",
    "embed", "h1", "h2", "h3", "h4", "h5", "h6", "head", "hr", "i", "img", "li", "listing",
    "menu", "meta", "nobr", "ol", "p", "pre", "ruby", "s", "small", "span", "strong", "strike",
    "sub", "sup", "table", "tt", "u", "ul", "var"]

/-- Closes formulas and drawings and looks at the token by the rules of HTML. -/
def breakOut (token : Token) : Build Progress := do
  modify fun b =>
    let stays n := (b.document.element? n).any fun e =>
      e.space == .html || Builder.holdsText e || Builder.holdsHtml e
    { b with stack := b.stack.dropWhile fun n => !stays n }
  inMode token

/-- A tag that begins an element within formulas or drawings. -/
def startInForeign (current : Element) (tag : Tag) : Build Progress := do
  let showsFont := tag.name == "font" && tag.attributes.any fun (name, _) =>
    ["color", "face", "size"].contains name
  if breakoutNames.contains tag.name || showsFont then breakOut (.start tag)
  else
    let name := if current.space == .svg then spelledIn drawingNames tag.name else tag.name
    insertForeign current.space name tag

/-- A tag that ends an element within formulas or drawings: the nearest one of its name there, or
what it ends in HTML.
-/
def closeInForeign (name : String) (b : Builder) : (first : Bool) → List NodeId → Build Progress
  | _, [] | _, [_] => ignore
  | first, n :: rest => do
      match b.document.element? n with
      | none => ignore
      | some e =>
          if !first && e.space == .html then inMode (.close name)
          else if Text.lowerAscii e.name == name then
            modify fun b => { b with stack := rest }
            return .done
          else closeInForeign name b false rest

/-- Looks at a token within formulas or drawings. -/
def inForeign (current : Element) (token : Token) : Build Progress := do
  match token with
  | .char c =>
      if !(c == '\x00' || isSpace c) then forbidFrameset
      putChar (visible c)
      return .done
  | .comment text => commentHere text
  | .start tag => startInForeign current tag
  | .close name =>
      let b ← get
      if name == "br" || name == "p" then breakOut token
      else closeInForeign name b true b.stack
  | .documentType _ | .finish => ignore

/-- The token belongs to the formula or drawing that is open. -/
def belongsToForeign (current : Element) : Token → Bool
  | .documentType _ | .finish => false
  | .char _ => !(Builder.holdsText current || Builder.holdsHtml current)
  | .start tag =>
      if Builder.holdsText current then ["mglyph", "malignmark"].contains tag.name
      else if Builder.holdsHtml current then false
      else !(current.space == .math && current.name == "annotation-xml" && tag.name == "svg")
  | _ => true

/-- Looks at a token once. -/
def look (token : Token) : Build Progress := do
  let b ← get
  match (b.stack.head?.bind b.document.element?).filter (·.space != .html) with
  | some current =>
      if belongsToForeign current token then inForeign current token else inMode token
  | none => inMode token

/-- Looks at a token until it is used up, at most a number of times. -/
def lookUpTo : (times : Nat) → Token → Build Unit
  | 0, _ => return ()
  | times + 1, token => do
      match ← look token with
      | .done => return ()
      | .again token => lookUpTo times token

/-- Uses a token up. A token is looked at a few times in each open element at most. -/
def accept (token : Token) : Build Unit := do
  let b ← get
  modify fun b => { b with skipsNewline := false }
  if !(b.skipsNewline && token == .char '\n') then lookUpTo (8 * (b.stack.length + 4)) token

end Build

/-- An element of another vocabulary than HTML is open. -/
def Builder.inForeign (b : Builder) : Bool :=
  (b.stack.head?.bind b.document.element?).any (·.space != .html)

/-- Reads a page to its end; `fuel` bounds the number of readings. -/
def Builder.read : (fuel : Nat) → List Char → Builder → Builder
  | 0, _, b => b
  | fuel + 1, cs, b =>
      if cs.isEmpty then b
      else
        let (tokens, rest) := readTokens b.reading b.inForeign cs
        let b := { b with reading := .markup }
        Builder.read fuel rest ((tokens.forM Build.accept).run b).2

/-- The document of a page. -/
def Document.ofPage (page : String) : Document :=
  let cs := sourceChars page
  let b := Builder.read (2 * cs.length + 1) cs {}
  ((Build.accept .finish).run b).2.document

end Harvest.Markup
