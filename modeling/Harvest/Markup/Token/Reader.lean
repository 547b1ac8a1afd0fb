import Harvest.Markup.Token.Raw
import Harvest.Markup.Token.Tag

/-! The next tokens of a page. How they are read depends on the tree that stands so far: which
element is being filled, and whether it belongs to HTML.
-/

namespace Harvest.Markup

/-- The text before a mark and the text after it; without the mark all of it. -/
def splitAtMark (mark : List Char) : List Char → List Char × List Char
  | [] => ([], [])
  | c :: cs =>
      if (c :: cs).take mark.length == mark then ([], (c :: cs).drop mark.length)
      else
        let (text, rest) := splitAtMark mark cs
        (c :: text, rest)

/-- The text of a comment before its end, and the text after it. -/
def splitComment : List Char → List Char × List Char
  | [] => ([], [])
  | '-' :: '-' :: '>' :: rest => ([], rest)
  | '-' :: '-' :: '!' :: '>' :: rest => ([], rest)
  | c :: cs =>
      let (text, rest) := splitComment cs
      (c :: text, rest)

/-- A comment after its opening mark. -/
def readComment : List Char → List Token × List Char
  | '>' :: rest => ([.comment ""], rest)
  | '-' :: '>' :: rest => ([.comment ""], rest)
  | cs =>
      let (text, rest) := splitComment cs
      ([.comment (String.ofList (text.map visible))], rest)

/-- A comment that ends at the next greater-than sign. -/
def readBogusComment (cs : List Char) : List Token × List Char :=
  let (text, rest) := splitAtMark ['>'] cs
  ([.comment (String.ofList (text.map visible))], rest)

/-- The first quoted text, and the text after it; without a closing quote there is none. -/
def quotedId? (cs : List Char) : Option (String × List Char) :=
  match cs.dropWhile isSpace with
  | c :: rest =>
      if (c == '"' || c == '\'') && rest.contains c then
        let (text, rest) := splitAtMark [c] rest
        some (String.ofList (text.map visible), rest)
      else none
  | [] => none

/-- The document type in the text between its keyword and the greater-than sign. -/
def DocumentType.ofText (closed : Bool) (cs : List Char) : DocumentType :=
  let cs := cs.dropWhile isSpace
  let name := tagName (cs.takeWhile (!isSpace ·))
  let rest := (cs.dropWhile (!isSpace ·)).dropWhile isSpace
  let keyword := tagName (rest.take 6)
  let found : DocumentType :=
    if rest.isEmpty then { name }
    else if keyword == "public" then
      match quotedId? (rest.drop 6) with
      | none => { name, malformed := true }
      | some (publicId, rest) =>
          match quotedId? rest with
          | some (systemId, _) => { name, publicId, systemId }
          | none =>
              { name, publicId, malformed := !(rest.dropWhile isSpace).isEmpty }
    else if keyword == "system" then
      match quotedId? (rest.drop 6) with
      | none => { name, malformed := true }
      | some (systemId, _) => { name, systemId }
    else { name, malformed := true }
  { found with malformed := found.malformed || !closed || name.isEmpty }

/-- What follows an exclamation mark; `foreign` tells that marked sections are text here. -/
def readDeclaration (foreign : Bool) (cs : List Char) : List Token × List Char :=
  if cs.take 2 == ['-', '-'] then readComment (cs.drop 2)
  else if tagName (cs.take 7) == "doctype" then
    let (text, rest) := splitAtMark ['>'] (cs.drop 7)
    ([.documentType (.ofText (cs.contains '>') text)], rest)
  else if foreign && cs.take 7 == "[CDATA[".toList then
    let (text, rest) := splitAtMark "]]>".toList (cs.drop 7)
    (text.map .char, rest)
  else readBogusComment cs

/-- What follows a less-than sign and a slash. -/
def readEndTag : List Char → List Token × List Char
  | [] => ([.char '<', .char '/'], [])
  | '>' :: rest => ([], rest)
  | c :: cs =>
      if c.isAlpha then
        match tag? (c :: cs) with
        | some (tag, rest) => ([.close tag.name], rest)
        | none => ([], [])
      else readBogusComment (c :: cs)

/-- What follows a less-than sign. -/
def readTag (foreign : Bool) : List Char → List Token × List Char
  | '!' :: cs => readDeclaration foreign cs
  | '/' :: cs => readEndTag cs
  | '?' :: cs => readBogusComment ('?' :: cs)
  | c :: cs =>
      if c.isAlpha then
        match tag? (c :: cs) with
        | some (tag, rest) => ([.start tag], rest)
        | none => ([], [])
      else ([.char '<'], c :: cs)
  | [] => ([.char '<'], [])

/-- The tokens at the front of a text, and the rest of it. -/
def readMarkup (foreign : Bool) : List Char → List Token × List Char
  | [] => ([], [])
  | '<' :: cs => readTag foreign cs
  | '&' :: cs =>
      match reference? false cs with
      | some (value, rest) => (value.map .char, rest)
      | none => ([.char '&'], cs)
  | c :: cs => ([.char c], cs)

/-- The tokens at the front of a text in a reading, and the rest of it. After the text of an
element the reading is that of markup again.
-/
def readTokens (reading : Reading) (foreign : Bool) (cs : List Char) : List Token × List Char :=
  match reading with
  | .markup => readMarkup foreign cs
  | .text element =>
      let (text, rest) := splitRaw element cs
      ((resolve false text).map fun c => .char (visible c), rest)
  | .raw element =>
      let (text, rest) := splitRaw element cs
      (text.map fun c => .char (visible c), rest)
  | .script =>
      let (text, rest) := splitScript .code 0 cs
      (text.map fun c => .char (visible c), rest)
  | .plain => (cs.map fun c => .char (visible c), [])

end Harvest.Markup
