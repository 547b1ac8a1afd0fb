import Harvest.Markup.Builder.Basic

/-! The part of a page before its body. Elements that the page leaves out are put in, and a missing
or an old document type brings back an old layout.
-/

namespace Harvest.Markup

/-- A document type before the fourth version of HTML, or one of its lenient forms, brings back
the layout in which a table may stand in a paragraph.
-/
def DocumentType.isOld (d : DocumentType) : Bool :=
  d.malformed || d.name != "html" || match d.publicId with
    | none => false
    | some publicId =>
        match (Text.lowerAscii publicId).splitOn "//" with
        | [_, _, form, _] =>
            let lenient := ["frameset", "transitional"].any fun word =>
              (form.splitOn " ").contains word
            match form.splitOn " " with
            | "dtd" :: "html" :: "4.01" :: _ => lenient && d.systemId.isNone
            | "dtd" :: "html" :: "4.0" :: _ => lenient
            | "dtd" :: "xhtml" :: _ => false
            | words => words.contains "html"
        | _ => false

namespace Build

/-- Puts the outermost element. -/
def putRoot (tag : Tag) : Build Unit := do
  let n ← createFor tag
  onDocument (·.append Document.root n)
  push n

/-- Gives the outermost element the attributes it does not have yet. -/
def mergeRoot (tag : Tag) : Build Progress := do
  let b ← get
  if !b.hasOpen "template" then
    match b.stack.getLast? with
    | some n => onDocument (·.addMissing n (tag.attributes.map fun (k, v) => ⟨k, v, false⟩))
    | none => pure ()
  return .done

/-- Before the outermost element. -/
def beforeHtml (token : Token) : Build Progress := do
  match token with
  | .documentType _ => return .done
  | .comment text => putComment text (.lastIn Document.root)
  | .start tag =>
      if tag.name == "html" then
        putRoot tag
        turnTo .beforeHead
        return .done
      else implied
  | .close name => if ["head", "body", "html", "br"].contains name then implied else ignore
  | .char c => if isSpace c then ignore else implied
  | .finish => implied
where
  implied : Build Progress := do
    putRoot { name := "html" }
    retryIn .beforeHead token

/-- At the very beginning. -/
def initial (token : Token) : Build Progress := do
  match token with
  | .documentType d =>
      modify fun b => { b with oldLayout := d.isOld, mode := .beforeHtml }
      return .done
  | .comment text => putComment text (.lastIn Document.root)
  | .char c => if isSpace c then ignore else missing
  | _ => missing
where
  missing : Build Progress := do
    modify fun b => { b with oldLayout := true }
    retryIn .beforeHtml token

/-- The end of a template. -/
def endTemplate : Build Progress := do
  if (← get).hasOpen "template" then
    modify fun b => { b with stack := b.stack.dropWhile (b.isOneOf templateEnds) }
    popNamed "template"
    clearToMarker
    modify fun b => { b with templateModes := b.templateModes.tail }
    resetMode
  return .done

/-- A tag that begins an element of the head. -/
def startInHead (tag : Tag) : Build Progress := do
  match tag.name with
  | "title" => insertText tag (.text tag.name)
  | "noframes" | "style" | "noscript" => insertText tag (.raw tag.name)
  | "script" => insertText tag .script
  | "template" =>
      let _ ← insert tag
      pushMarker
      modify fun b =>
        { b with
          framesetAllowed := false
          mode := .inTemplate
          templateModes := .inTemplate :: b.templateModes }
      return .done
  | _ => insertVoidDone tag

/-- The names of the elements that hold nothing and stand in a head. -/
def headVoids : List String := ["base", "basefont", "bgsound", "link", "meta"]

/-- The names of the elements that a head takes even when it is over. -/
def headNames : List String :=
  headVoids ++ ["noframes", "script", "style", "template", "title"]

/-- In the head. -/
def inHead (token : Token) : Build Progress := do
  match token with
  | .documentType _ => ignore
  | .comment text => commentHere text
  | .char c =>
      if isSpace c then
        putChar c
        return .done
      else leave
  | .start tag =>
      if tag.name == "html" then mergeRoot tag
      else if headNames.contains tag.name || tag.name == "noscript" then startInHead tag
      else if tag.name == "head" then ignore
      else leave
  | .close "head" =>
      pop
      turnTo .afterHead
      return .done
  | .close "template" => endTemplate
  | .close name => if ["body", "html", "br"].contains name then leave else ignore
  | .finish => leave
where
  leave : Build Progress := do
    pop
    retryIn .afterHead token

/-- Before the head. -/
def beforeHead (token : Token) : Build Progress := do
  match token with
  | .documentType _ => ignore
  | .comment text => commentHere text
  | .char c => if isSpace c then ignore else implied
  | .start tag =>
      if tag.name == "html" then mergeRoot tag
      else if tag.name == "head" then
        let n ← insert tag
        modify fun b => { b with headElement := some n, mode := .inHead }
        return .done
      else implied
  | .close name => if ["head", "body", "html", "br"].contains name then implied else ignore
  | .finish => implied
where
  implied : Build Progress := do
    let n ← insertImplied "head"
    modify fun b => { b with headElement := some n }
    retryIn .inHead token

/-- After the head. -/
def afterHead (token : Token) : Build Progress := do
  match token with
  | .documentType _ => ignore
  | .comment text => commentHere text
  | .char c =>
      if isSpace c then
        putChar c
        return .done
      else implied
  | .start tag =>
      if tag.name == "html" then mergeRoot tag
      else if tag.name == "body" then
        let _ ← insert tag
        forbidFrameset
        turnTo .inBody
        return .done
      else if tag.name == "frameset" then
        turnTo .inFrameset
        insertDone tag
      else if headNames.contains tag.name then
        match (← get).headElement with
        | some head =>
            push head
            let progress ← startInHead tag
            removeOpen head
            return progress
        | none => ignore
      else if tag.name == "head" then ignore
      else implied
  | .close "template" => endTemplate
  | .close name => if ["body", "html", "br"].contains name then implied else ignore
  | .finish => implied
where
  implied : Build Progress := do
    let _ ← insertImplied "body"
    retryIn .inBody token

end Build

end Harvest.Markup
