import Harvest.Markup.Token.Basic

/-! Tags in the text of a page. Of two attributes with one name the first counts, and a tag that
the page cuts off is none.
-/

namespace Harvest.Markup

/-- A character that ends the name of a tag. -/
def endsName (c : Char) : Bool :=
  isSpace c || c == '/' || c == '>'

/-- Attributes together with one more. -/
def addAttribute (attributes : List (String × String)) (name : List Char) (value : List Char)
    : List (String × String) :=
  let key := tagName name
  if attributes.any (·.1 == key) then attributes
  else attributes ++ [(key, String.ofList ((resolve true value).map visible))]

/-- The value of an attribute after the equals sign, and the rest of the text; a quoted value
that the page cuts off is none.
-/
def attributeValue? (cs : List Char) : Option (List Char × List Char) :=
  match cs.dropWhile isSpace with
  | '"' :: cs => quoted '"' cs
  | '\'' :: cs => quoted '\'' cs
  | cs =>
      let inside := fun c => !(isSpace c || c == '>')
      some (cs.takeWhile inside, cs.dropWhile inside)
where
  quoted (quote : Char) (cs : List Char) : Option (List Char × List Char) :=
    match cs.dropWhile (· != quote) with
    | _ :: rest => some (cs.takeWhile (· != quote), rest)
    | [] => none

/-- The attributes of a tag up to its end, whether a slash closes it, and the rest of the text. -/
def attributes? : (fuel : Nat) → List (String × String) → List Char
    → Option (List (String × String) × Bool × List Char)
  | 0, _, _ => none
  | fuel + 1, found, cs =>
      match cs.dropWhile isSpace with
      | [] => none
      | '>' :: rest => some (found, false, rest)
      | '/' :: '>' :: rest => some (found, true, rest)
      | '/' :: rest => attributes? fuel found rest
      | c :: cs =>
          let inside := fun c => !(endsName c || c == '=')
          let name := c :: cs.takeWhile inside
          match (cs.dropWhile inside).dropWhile isSpace with
          | '=' :: rest => do
              let (value, rest) ← attributeValue? rest
              attributes? fuel (addAttribute found name value) rest
          | rest => attributes? fuel (addAttribute found name []) rest

/-- The tag that begins with a letter at the front, and the rest of the text. -/
def tag? (cs : List Char) : Option (Tag × List Char) := do
  let rest := cs.dropWhile (!endsName ·)
  let (attributes, selfClosing, rest) ← attributes? (rest.length + 1) [] rest
  some (⟨tagName (cs.takeWhile (!endsName ·)), attributes, selfClosing⟩, rest)

end Harvest.Markup
