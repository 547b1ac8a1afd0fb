import Harvest.Markup.Builder.Formatting
import Harvest.Markup.Builder.Head

/-! The body of a page. Each tag follows a rule: a block ends an open paragraph, an item ends the
item before it, a formatting element reaches across blocks.
-/

namespace Harvest.Markup

/-- The rules for tags that begin an element in a body. -/
inductive StartRule where
  | root
  | head
  | body
  | frameset
  | block
  | heading
  | preformatted
  | form
  | item
  | plain
  | button
  | link
  | formatting
  | unbroken
  | object
  | table
  | void
  | bareVoid
  | rule
  | image
  | textArea
  | example
  | frame
  | rawText
  | select
  | option
  | ruby
  | rubyText
  | math
  | drawing
  | misplaced
  | other
deriving DecidableEq, Repr

/-- The names under each rule. -/
def startRules : List (StartRule × List String) :=
  [ (.root, ["html"]), (.head, Build.headNames), (.body, ["body"]), (.frameset, ["frameset"]),
    (.block, ["address", "article", "aside", "blockquote", "center", "details", "dialog", "dir",
      "div", "dl", "fieldset", "figcaption", "figure", "footer", "header", "hgroup", "main", "menu",
      "nav", "ol", "p", "section", "summary", "ul"]),
    (.heading, ["h1", "h2", "h3", "h4", "h5", "h6"]), (.preformatted, ["pre", "listing"]),
    (.form, ["form"]), (.item, ["li", "dd", "dt"]), (.plain, ["plaintext"]),
    (.button, ["button"]), (.link, ["a"]),
    (.formatting, ["b", "big", "code", "em", "font", "i", "s", "small", "strike", "strong", "tt",
      "u"]),
    (.unbroken, ["nobr"]), (.object, ["applet", "marquee", "object"]), (.table, ["table"]),
    (.void, ["area", "br", "embed", "img", "keygen", "wbr", "input"]),
    (.bareVoid, ["param", "source", "track"]), (.rule, ["hr"]), (.image, ["image"]),
    (.textArea, ["textarea"]), (.example, ["xmp"]), (.frame, ["iframe"]),
    (.rawText, ["noembed", "noscript"]), (.select, ["select"]),
    (.option, ["optgroup", "option"]), (.ruby, ["rb", "rtc"]), (.rubyText, ["rp", "rt"]),
    (.math, ["math"]), (.drawing, ["svg"]),
    (.misplaced, ["caption", "col", "colgroup", "frame", "head", "tbody", "td", "tfoot", "th",
      "thead", "tr"]) ]

/-- The rule for a name. -/
def StartRule.ofName (name : String) : StartRule :=
  ((startRules.find? fun (_, names) => names.contains name).map Prod.fst).getD .other

/-- The names of headings. -/
def headings : List String := ["h1", "h2", "h3", "h4", "h5", "h6"]

/-- The tag is that of an input that does not show. -/
def Tag.isHidden (tag : Tag) : Bool :=
  tag.attributes.any fun (name, value) => name == "type" && Text.sameIgnoringCase value "hidden"

/-! ## Elements of formulas and drawings -/

/-- The names of attributes of drawings that have capital letters. -/
def drawingAttributes : List String :=
  ["attributeName", "attributeType", "baseFrequency", "baseProfile", "calcMode", "clipPathUnits",
    "diffuseConstant", "edgeMode", "filterUnits", "glyphRef", "gradientTransform",
    "gradientUnits", "kernelMatrix", "kernelUnitLength", "keyPoints", "keySplines", "keyTimes",
    "lengthAdjust", "limitingConeAngle", "markerHeight", "markerUnits", "markerWidth",
    "maskContentUnits", "maskUnits", "numOctaves", "pathLength", "patternContentUnits",
    "patternTransform", "patternUnits", "pointsAtX", "pointsAtY", "pointsAtZ", "preserveAlpha",
    "preserveAspectRatio", "primitiveUnits", "refX", "refY", "repeatCount", "repeatDur",
    "requiredExtensions", "requiredFeatures", "specularConstant", "specularExponent",
    "spreadMethod", "startOffset", "stdDeviation", "stitchTiles", "surfaceScale",
    "systemLanguage", "tableValues", "targetX", "targetY", "textLength", "viewBox",
    "viewTarget", "xChannelSelector", "yChannelSelector", "zoomAndPan"]

/-- The names of elements of drawings that have capital letters. -/
def drawingNames : List String :=
  ["altGlyph", "altGlyphDef", "altGlyphItem", "animateColor", "animateMotion",
    "animateTransform", "clipPath", "feBlend", "feColorMatrix", "feComponentTransfer",
    "feComposite", "feConvolveMatrix", "feDiffuseLighting", "feDisplacementMap",
    "feDistantLight", "feDropShadow", "feFlood", "feFuncA", "feFuncB", "feFuncG", "feFuncR",
    "feGaussianBlur", "feImage", "feMerge", "feMergeNode", "feMorphology", "feOffset",
    "fePointLight", "feSpecularLighting", "feSpotLight", "feTile", "feTurbulence",
    "foreignObject", "glyphRef", "linearGradient", "radialGradient", "textPath"]

/-- The spelling in a list that equals a name but for case, or else the name. -/
def spelledIn (spellings : List String) (name : String) : String :=
  (spellings.find? fun s => Text.lowerAscii s == name).getD name

/-- The attributes that belong to another vocabulary, with their own names. -/
def qualifiedNames : List (String × String) :=
  [("xlink:actuate", "actuate"), ("xlink:arcrole", "arcrole"), ("xlink:href", "href"),
    ("xlink:role", "role"), ("xlink:show", "show"), ("xlink:title", "title"),
    ("xlink:type", "type"), ("xml:lang", "lang"), ("xml:space", "space"), ("xmlns", "xmlns"),
    ("xmlns:xlink", "xlink")]

/-- The attribute of an element of a vocabulary. -/
def foreignAttribute (space : Space) (name value : String) : Attribute :=
  match qualifiedNames.lookup name with
  | some own => ⟨own, value, true⟩
  | none =>
      match space with
      | .svg => ⟨spelledIn drawingAttributes name, value, false⟩
      | .math => ⟨if name == "definitionurl" then "definitionURL" else name, value, false⟩
      | .html => ⟨name, value, false⟩

namespace Build

/-- Puts an element of formulas or drawings, which stays open unless a slash closes it. -/
def insertForeign (space : Space) (name : String) (tag : Tag) : Build Progress := do
  let n ← createElement space name
    (tag.attributes.map fun (name, value) => foreignAttribute space name value)
  putAt (← get).place n
  if !tag.selfClosing then push n
  return .done

/-! ## Tags that begin an element -/

/-- Gives the body the attributes it does not have yet. -/
def mergeBody (tag : Tag) : Build Progress := do
  let b ← get
  match (b.stack.reverse.drop 1).head? with
  | some n =>
      if b.isNamed "body" n && !b.hasOpen "template" then
        forbidFrameset
        onDocument (·.addMissing n (tag.attributes.map fun (k, v) => ⟨k, v, false⟩))
  | none => pure ()
  return .done

/-- Puts frames in the place of the body, as long as it holds nothing that shows. -/
def replaceBody (tag : Tag) : Build Progress := do
  let b ← get
  match b.stack.reverse with
  | html :: body :: _ =>
      if b.framesetAllowed && b.isNamed "body" body then
        onDocument (·.detach body)
        modify fun b => { b with stack := [html], mode := .inFrameset }
        insertDone tag
      else ignore
  | _ => ignore

/-- Puts an item of a list, which ends the item before it. -/
def insertItem (tag : Tag) : Build Progress := do
  forbidFrameset
  let b ← get
  let closes := if tag.name == "li" then ["li"] else ["dd", "dt"]
  let stops n := b.isOneOf closes n
    || (b.isSpecial n && !b.isOneOf ["address", "div", "p"] n)
  match (b.stack.find? stops).filter (b.isOneOf closes) with
  | some n =>
      let name := ((b.document.element? n).map Element.name).getD tag.name
      closeImplied name
      popNamed name
  | none => pure ()
  closeOpenParagraph
  insertDone tag

/-- Puts a form, unless one is open. -/
def insertForm (tag : Tag) : Build Progress := do
  let b ← get
  let inTemplate := b.hasOpen "template"
  if b.formElement.isSome && !inTemplate then ignore
  else
    closeOpenParagraph
    let n ← insert tag
    if !inTemplate then modify fun b => { b with formElement := some n }
    return .done

/-- Puts a selection list. -/
def insertSelect (tag : Tag) : Build Progress := do
  reconstruct
  let _ ← insert tag
  modify fun b =>
    let inTable := [Mode.inTable, .inCaption, .inTableBody, .inRow, .inCell].contains b.mode
    { b with
      framesetAllowed := false
      mode := if inTable then .inSelectInTable else .inSelect }
  return .done

/-- Puts an element without content that shows, such as a picture. -/
def insertShown (tag : Tag) : Build Progress := do
  reconstruct
  if !(tag.name == "input" && tag.isHidden) then forbidFrameset
  insertVoidDone tag

/-- A tag that begins an element in a body. -/
def startInBody (tag : Tag) : Build Progress := do
  match StartRule.ofName tag.name with
  | .root => mergeRoot tag
  | .head => startInHead tag
  | .body => mergeBody tag
  | .frameset => replaceBody tag
  | .block =>
      closeOpenParagraph
      insertDone tag
  | .heading =>
      closeOpenParagraph
      if (← get).currentIn headings then pop
      insertDone tag
  | .preformatted =>
      closeOpenParagraph
      modify fun b => { b with skipsNewline := true, framesetAllowed := false }
      insertDone tag
  | .form => insertForm tag
  | .item => insertItem tag
  | .plain =>
      closeOpenParagraph
      modify fun b => { b with reading := .plain }
      insertDone tag
  | .button =>
      if (← get).inScope (Builder.bounds []) "button" then
        closeImplied ""
        popNamed "button"
      reconstruct
      forbidFrameset
      insertDone tag
  | .link =>
      endOpenLink
      reconstruct
      insertFormatting tag
  | .formatting =>
      reconstruct
      insertFormatting tag
  | .unbroken =>
      reconstruct
      if (← get).inScope (Builder.bounds []) "nobr" then
        let _ ← endFormatting "nobr"
        reconstruct
      insertFormatting tag
  | .object =>
      reconstruct
      let _ ← insert tag
      pushMarker
      forbidFrameset
      return .done
  | .table =>
      if !(← get).oldLayout then closeOpenParagraph
      forbidFrameset
      turnTo .inTable
      insertDone tag
  | .void => insertShown tag
  | .bareVoid => insertVoidDone tag
  | .rule =>
      closeOpenParagraph
      forbidFrameset
      insertVoidDone tag
  | .image => insertShown { tag with name := "img" }
  | .textArea =>
      modify fun b => { b with skipsNewline := true, framesetAllowed := false }
      insertText tag (.text tag.name)
  | .example =>
      closeOpenParagraph
      reconstruct
      forbidFrameset
      insertText tag (.raw tag.name)
  | .frame =>
      forbidFrameset
      insertText tag (.raw tag.name)
  | .rawText => insertText tag (.raw tag.name)
  | .select => insertSelect tag
  | .option =>
      if (← get).currentIs "option" then pop
      reconstruct
      insertDone tag
  | .ruby =>
      if (← get).inScope (Builder.bounds []) "ruby" then closeImplied ""
      insertDone tag
  | .rubyText =>
      if (← get).inScope (Builder.bounds []) "ruby" then closeImplied "rtc"
      insertDone tag
  | .math =>
      reconstruct
      insertForeign .math tag.name tag
  | .drawing =>
      reconstruct
      insertForeign .svg tag.name tag
  | .misplaced => ignore
  | .other =>
      reconstruct
      insertDone tag

/-! ## Tags that end an element -/

/-- The names of the elements that their own end tags end, along with what may be left open. -/
def closedBlocks : List String :=
  ["address", "article", "aside", "blockquote", "button", "center", "details", "dialog", "dir",
    "div", "dl", "fieldset", "figcaption", "figure", "footer", "header", "hgroup", "listing",
    "main", "menu", "nav", "ol", "pre", "section", "summary", "ul"]

/-- Ends a form. -/
def endForm : Build Progress := do
  let b ← get
  if b.hasOpen "template" then
    if b.inScope (Builder.bounds []) "form" then
      closeImplied ""
      popNamed "form"
  else
    modify fun b => { b with formElement := none }
    match b.formElement with
    | some n =>
        if b.reaches (Builder.bounds []) (· == n) b.stack then
          closeImplied ""
          removeOpen n
    | none => pure ()
  return .done

/-- Ends an element in reach, along with what may be left open in it. -/
def endInScope (more : List String) (except name : String) : Build Bool := do
  if (← get).inScope (Builder.bounds more) name then
    closeImplied except
    popNamed name
    return true
  else return false

/-- A tag that ends an element in a body. -/
def closeInBody (name : String) : Build Progress := do
  if name == "template" then endTemplate
  else if name == "body" then
    if (← get).inScope (Builder.bounds []) "body" then turnTo .afterBody
    return .done
  else if name == "html" then
    if (← get).inScope (Builder.bounds []) "body" then retryIn .afterBody (.close name)
    else ignore
  else if closedBlocks.contains name then
    let _ ← endInScope [] "" name
    return .done
  else if name == "form" then endForm
  else if name == "p" then
    if !(← get).inScope (Builder.bounds ["button"]) "p" then
      let _ ← insertImplied "p"
    closeParagraph
    return .done
  else if name == "li" then
    let _ ← endInScope ["ol", "ul"] name name
    return .done
  else if name == "dd" || name == "dt" then
    let _ ← endInScope [] name name
    return .done
  else if headings.contains name then
    let b ← get
    if b.reaches (Builder.bounds []) (b.isOneOf headings) b.stack then
      closeImplied ""
      popThrough fun b => b.isOneOf headings
    return .done
  else if StartRule.ofName name == .link || StartRule.ofName name == .formatting
      || StartRule.ofName name == .unbroken then endFormatting name
  else if StartRule.ofName name == .object then
    if ← endInScope [] "" name then clearToMarker
    return .done
  else if name == "br" then insertShown { name }
  else
    endOther name
    return .done

/-- The end of the page within a template ends the template. -/
def finishInTemplate : Build Progress := do
  if (← get).hasOpen "template" then
    popNamed "template"
    clearToMarker
    modify fun b => { b with templateModes := b.templateModes.tail }
    resetMode
    return .again .finish
  else return .done

/-- In the body. -/
def inBody (token : Token) : Build Progress := do
  match token with
  | .documentType _ => ignore
  | .comment text => commentHere text
  | .char c =>
      if c == '\x00' then ignore
      else
        reconstruct
        if !isSpace c then forbidFrameset
        putChar c
        return .done
  | .start tag => startInBody tag
  | .close name => closeInBody name
  | .finish => if (← get).templateModes.isEmpty then ignore else finishInTemplate

end Build

end Harvest.Markup
