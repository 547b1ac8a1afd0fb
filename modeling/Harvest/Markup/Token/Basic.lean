import Harvest.Markup.Reference

/-! The tokens of a page: its tags, its comments, its document type and its characters. -/

namespace Harvest.Markup

/-- A space character of HTML. -/
def isSpace (c : Char) : Bool :=
  c == ' ' || c == '\n' || c == '\t' || c == '\x0c' || c == '\r'

/-- A tag: its name, its attributes in order, and whether a slash closes it. -/
structure Tag where
  name : String
  attributes : List (String × String) := []
  selfClosing : Bool := false
deriving DecidableEq, Repr, Inhabited

/-- A document type: what it names, its identifiers, and whether it is malformed. -/
structure DocumentType where
  name : String
  publicId : Option String := none
  systemId : Option String := none
  malformed : Bool := false
deriving DecidableEq, Repr

/-- A part of a page. -/
inductive Token where
  | char (c : Char)
  | comment (text : String)
  | documentType (d : DocumentType)
  | start (tag : Tag)
  | close (name : String)
  | finish
deriving DecidableEq, Repr

/-- How the text that comes next is read. -/
inductive Reading where
  /-- Tags and references count. -/
  | markup
  /-- Only references and the end tag of the element count. -/
  | text (element : String)
  /-- Only the end tag of the element counts. -/
  | raw (element : String)
  /-- Only the end tag of the script counts, and only outside a commented script. -/
  | script
  /-- Nothing counts any more. -/
  | plain
deriving DecidableEq, Repr

/-- The text of a page: without a byte order mark, every line end as one line feed. -/
def normalizeLines : List Char → List Char
  | [] => []
  | '\r' :: '\n' :: cs => '\n' :: normalizeLines cs
  | '\r' :: cs => '\n' :: normalizeLines cs
  | c :: cs => c :: normalizeLines cs

/-- The characters of a page as they are read. -/
def sourceChars (page : String) : List Char :=
  match page.toList with
  | c :: cs => normalizeLines (if c == Char.ofNat 0xFEFF then cs else c :: cs)
  | [] => []

/-- A null character becomes the replacement character. -/
def visible (c : Char) : Char :=
  if c == '\x00' then replacement else c

/-- A name in a tag: small letters, without null characters. -/
def tagName (cs : List Char) : String :=
  String.ofList (cs.map fun c => visible c.toLower)

end Harvest.Markup
