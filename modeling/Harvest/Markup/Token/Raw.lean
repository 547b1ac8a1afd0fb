import Harvest.Markup.Token.Basic

/-! Text that only the end tag of its element ends. In a script a comment may hold a script of its
own, whose end tag ends nothing else.
-/

namespace Harvest.Markup

/-- A name without regard to case at the front, and a character after it that ends a name. -/
def startsName (name : String) (cs : List Char) : Bool :=
  tagName (cs.take name.length) == name && match cs.drop name.length with
    | c :: _ => isSpace c || c == '/' || c == '>'
    | [] => false

/-- The text before the end tag of an element, and the text from that tag. -/
def splitRaw (element : String) : List Char → List Char × List Char
  | [] => ([], [])
  | '<' :: '/' :: cs =>
      if startsName element cs then ([], '<' :: '/' :: cs)
      else
        let (text, rest) := splitRaw element cs
        ('<' :: '/' :: text, rest)
  | c :: cs =>
      let (text, rest) := splitRaw element cs
      (c :: text, rest)

/-- Where in a script the text stands. -/
inductive ScriptPlace where
  | code
  | comment
  /-- In a script within a comment. -/
  | nested
deriving DecidableEq, Repr

/-- The place after a character, given the number of hyphens just before it. -/
def ScriptPlace.after (place : ScriptPlace) (hyphens : Nat) (c : Char) (rest : List Char)
    : ScriptPlace :=
  match place, c with
  | .code, '<' => if rest.take 3 == ['!', '-', '-'] then .comment else .code
  | .code, _ => .code
  | _, '>' => if 2 ≤ hyphens then .code else place
  | .comment, '<' => if startsName "script" rest then .nested else .comment
  | .nested, '<' =>
      if rest.head? == some '/' && startsName "script" rest.tail then .comment else .nested
  | _, _ => place

/-- The end tag of the script stands at the front of the text after a less-than sign. -/
def ScriptPlace.ends (place : ScriptPlace) (rest : List Char) : Bool :=
  place != .nested && rest.head? == some '/' && startsName "script" rest.tail

/-- The text of a script before its end tag, and the text from that tag. -/
def splitScript (place : ScriptPlace) (hyphens : Nat) : List Char → List Char × List Char
  | [] => ([], [])
  | c :: cs =>
      if c == '<' && place.ends cs then ([], c :: cs)
      else
        let (text, rest) :=
          splitScript (place.after hyphens c cs) (if c == '-' then hyphens + 1 else 0) cs
        (c :: text, rest)

end Harvest.Markup
