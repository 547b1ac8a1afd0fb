import Harvest.Markup.Builder.Body

/-! Tables, selection lists, templates and frames. What a table cannot hold goes before it, and
text in a table counts as such only when it is not blank.
-/

namespace Harvest.Markup.Build

/-- Treats a token as in a body, with what does not belong into a table going before it. -/
def foster (token : Token) : Build Progress := do
  modify fun b => { b with fostering := true }
  let progress ← inBody token
  modify fun b => { b with fostering := false }
  return progress

/-- Closes elements up to the table, its section or its row. -/
def clearToTable : Build Unit := popUntil ["table", "template", "html"]

/-- Closes elements up to the section of a table. -/
def clearToSection : Build Unit := popUntil ["tbody", "tfoot", "thead", "template", "html"]

/-- Closes elements up to the row of a table. -/
def clearToRow : Build Unit := popUntil ["tr", "template", "html"]

/-- An element of a table is in reach. -/
def inTableScope (names : List String) : Build Bool := do
  let b ← get
  return b.reaches Builder.tableBounds (b.isOneOf names) b.stack

/-- A tag that begins an element in a table. -/
def startInTable (tag : Tag) : Build Progress := do
  match tag.name with
  | "caption" =>
      clearToTable
      pushMarker
      turnTo .inCaption
      insertDone tag
  | "colgroup" =>
      clearToTable
      turnTo .inColumnGroup
      insertDone tag
  | "col" =>
      clearToTable
      let _ ← insertImplied "colgroup"
      retryIn .inColumnGroup (.start tag)
  | "tbody" | "tfoot" | "thead" =>
      clearToTable
      turnTo .inTableBody
      insertDone tag
  | "td" | "th" | "tr" =>
      clearToTable
      let _ ← insertImplied "tbody"
      retryIn .inTableBody (.start tag)
  | "table" =>
      if ← inTableScope ["table"] then
        popNamed "table"
        resetMode
        return .again (.start tag)
      else ignore
  | "style" | "script" | "template" => startInHead tag
  | "input" => if tag.isHidden then insertVoidDone tag else foster (.start tag)
  | "form" =>
      let b ← get
      if !b.hasOpen "template" && b.formElement.isNone then
        let n ← insertVoid tag
        modify fun b => { b with formElement := some n }
      return .done
  | _ => foster (.start tag)

/-- In a table. -/
def inTable (token : Token) : Build Progress := do
  match token with
  | .documentType _ => ignore
  | .comment text => commentHere text
  | .char _ =>
      let b ← get
      if b.currentIn ["table", "tbody", "tfoot", "thead", "tr"] then
        modify fun b => { b with returnMode := b.mode }
        retryIn .inTableText token
      else foster token
  | .start tag => startInTable tag
  | .close "table" =>
      if ← inTableScope ["table"] then
        popNamed "table"
        resetMode
      return .done
  | .close "template" => endTemplate
  | .close name =>
      if ["body", "caption", "col", "colgroup", "html", "tbody", "td", "tfoot", "th", "thead",
        "tr"].contains name then ignore
      else foster token
  | .finish => inBody token

/-- In the text of a table. -/
def inTableText (token : Token) : Build Progress := do
  match token with
  | .char c =>
      if c != '\x00' then modify fun b => { b with tableText := c :: b.tableText }
      return .done
  | .documentType _ => ignore
  | _ =>
      let b ← get
      let text := b.tableText.reverse
      modify fun b => { b with tableText := [] }
      if text.all isSpace then text.forM putChar
      else text.forM fun c => do let _ ← foster (.char c)
      retryIn b.returnMode token

/-- In the caption of a table. -/
def inCaption (token : Token) : Build Progress := do
  match token with
  | .start tag =>
      if ["caption", "col", "colgroup", "tbody", "td", "tfoot", "th", "thead", "tr"].contains
        tag.name then leave else inBody token
  | .close name =>
      if name == "table" || name == "caption" then leave
      else if ["body", "col", "colgroup", "html", "tbody", "td", "tfoot", "th", "thead",
        "tr"].contains name then ignore
      else inBody token
  | _ => inBody token
where
  leave : Build Progress := do
    if ← inTableScope ["caption"] then
      closeImplied ""
      popNamed "caption"
      clearToMarker
      turnTo .inTable
      return if token == .close "caption" then .done else .again token
    else ignore

/-- In a group of columns. -/
def inColumnGroup (token : Token) : Build Progress := do
  match token with
  | .documentType _ => ignore
  | .comment text => commentHere text
  | .char c =>
      if isSpace c then
        putChar c
        return .done
      else leave
  | .start tag =>
      match tag.name with
      | "html" => mergeRoot tag
      | "col" => insertVoidDone tag
      | "template" => startInHead tag
      | _ => leave
  | .close "colgroup" =>
      if (← get).currentIs "colgroup" then
        pop
        turnTo .inTable
      return .done
  | .close "col" => ignore
  | .close "template" => endTemplate
  | .close _ => leave
  | .finish => inBody token
where
  leave : Build Progress := do
    if (← get).currentIs "colgroup" then
      pop
      retryIn .inTable token
    else ignore

/-- In a section of a table. -/
def inTableBody (token : Token) : Build Progress := do
  match token with
  | .start tag =>
      match tag.name with
      | "tr" =>
          clearToSection
          turnTo .inRow
          insertDone tag
      | "th" | "td" =>
          clearToSection
          let _ ← insertImplied "tr"
          retryIn .inRow token
      | "caption" | "col" | "colgroup" | "tbody" | "tfoot" | "thead" => leave
      | _ => inTable token
  | .close name =>
      match name with
      | "tbody" | "tfoot" | "thead" =>
          if ← inTableScope [name] then
            clearToSection
            pop
            turnTo .inTable
          return .done
      | "table" => leave
      | "body" | "caption" | "col" | "colgroup" | "html" | "td" | "th" | "tr" => ignore
      | _ => inTable token
  | _ => inTable token
where
  leave : Build Progress := do
    if ← inTableScope ["table", "tbody", "tfoot"] then
      clearToSection
      pop
      retryIn .inTable token
    else ignore

/-- In a row of a table. -/
def inRow (token : Token) : Build Progress := do
  match token with
  | .start tag =>
      match tag.name with
      | "th" | "td" =>
          clearToRow
          turnTo .inCell
          let _ ← insert tag
          pushMarker
          return .done
      | "caption" | "col" | "colgroup" | "tbody" | "tfoot" | "thead" | "tr" => leave
      | _ => inTable token
  | .close name =>
      match name with
      | "tr" =>
          if ← inTableScope ["tr"] then
            clearToRow
            pop
            turnTo .inTableBody
          return .done
      | "table" => leave
      | "tbody" | "tfoot" | "thead" =>
          if ← inTableScope [name] then
            if ← inTableScope ["tr"] then
              clearToRow
              pop
            retryIn .inTableBody token
          else ignore
      | "body" | "caption" | "col" | "colgroup" | "html" | "td" | "th" => ignore
      | _ => inTable token
  | _ => inTable token
where
  leave : Build Progress := do
    if ← inTableScope ["tr"] then
      clearToRow
      pop
      retryIn .inTableBody token
    else ignore

/-- In a cell of a table. -/
def inCell (token : Token) : Build Progress := do
  match token with
  | .start tag =>
      if ["caption", "col", "colgroup", "tbody", "td", "tfoot", "th", "thead", "tr"].contains
        tag.name then
        if ← inTableScope ["td", "th"] then leave else ignore
      else inBody token
  | .close name =>
      match name with
      | "td" | "th" =>
          if ← inTableScope [name] then
            closeImplied ""
            popNamed name
            clearToMarker
            turnTo .inRow
          return .done
      | "body" | "caption" | "col" | "colgroup" | "html" => ignore
      | "table" | "tbody" | "tfoot" | "thead" | "tr" =>
          if ← inTableScope [name] then leave else ignore
      | _ => inBody token
  | _ => inBody token
where
  leave : Build Progress := do
    closeImplied ""
    popThrough fun b => b.isOneOf ["td", "th"]
    clearToMarker
    retryIn .inRow token

/-! ## Selection lists -/

/-- A selection list is in reach. -/
def inSelectScope : Build Bool := do
  return (← get).inScope Builder.selectBounds "select"

/-- Closes a selection list. -/
def closeSelect : Build Unit := do
  popNamed "select"
  resetMode

/-- In a selection list. -/
def inSelect (token : Token) : Build Progress := do
  match token with
  | .documentType _ => ignore
  | .comment text => commentHere text
  | .char c =>
      if c != '\x00' then putChar c
      return .done
  | .start tag =>
      match tag.name with
      | "html" => mergeRoot tag
      | "option" =>
          if (← get).currentIs "option" then pop
          insertDone tag
      | "optgroup" =>
          if (← get).currentIs "option" then pop
          if (← get).currentIs "optgroup" then pop
          insertDone tag
      | "select" =>
          if ← inSelectScope then closeSelect
          return .done
      | "input" | "keygen" | "textarea" =>
          if ← inSelectScope then
            closeSelect
            return .again token
          else ignore
      | "script" | "template" => startInHead tag
      | _ => ignore
  | .close name =>
      match name with
      | "optgroup" =>
          let b ← get
          if b.currentIs "option" && (b.stack.tail.head?).any (b.isNamed "optgroup") then pop
          if (← get).currentIs "optgroup" then pop
          return .done
      | "option" =>
          if (← get).currentIs "option" then pop
          return .done
      | "select" =>
          if ← inSelectScope then closeSelect
          return .done
      | "template" => endTemplate
      | _ => ignore
  | .finish => inBody token

/-- In a selection list within a table. -/
def inSelectInTable (token : Token) : Build Progress := do
  let tableNames := ["caption", "table", "tbody", "tfoot", "thead", "tr", "td", "th"]
  match token with
  | .start tag =>
      if tableNames.contains tag.name then
        closeSelect
        return .again token
      else inSelect token
  | .close name =>
      if tableNames.contains name then
        if ← inTableScope [name] then
          closeSelect
          return .again token
        else ignore
      else inSelect token
  | _ => inSelect token

/-! ## Templates, frames and the end of the page -/

/-- Reads what a template holds in another mode from now on. -/
def templateAs (mode : Mode) (token : Token) : Build Progress := do
  modify fun b => { b with templateModes := mode :: b.templateModes.tail }
  retryIn mode token

/-- In a template whose kind of content is not known yet. -/
def inTemplate (token : Token) : Build Progress := do
  match token with
  | .documentType _ => ignore
  | .comment _ | .char _ => inBody token
  | .start tag =>
      if headNames.contains tag.name then startInHead tag
      else
        match tag.name with
        | "caption" | "colgroup" | "tbody" | "tfoot" | "thead" => templateAs .inTable token
        | "col" => templateAs .inColumnGroup token
        | "tr" => templateAs .inTableBody token
        | "td" | "th" => templateAs .inRow token
        | _ => templateAs .inBody token
  | .close "template" => endTemplate
  | .close _ => ignore
  | .finish => finishInTemplate

/-- In the text of an element. -/
def inText (token : Token) : Build Progress := do
  match token with
  | .char c =>
      putChar c
      return .done
  | .close _ =>
      pop
      modify fun b => { b with mode := b.returnMode }
      return .done
  | .finish =>
      pop
      modify fun b => { b with mode := b.returnMode }
      return .again token
  | _ => ignore

/-- After the body. -/
def afterBody (token : Token) : Build Progress := do
  match token with
  | .documentType _ => ignore
  | .comment text => putComment text (.lastIn ((← get).stack.getLast?.getD Document.root))
  | .char c => if isSpace c then inBody token else retryIn .inBody token
  | .start tag => if tag.name == "html" then mergeRoot tag else retryIn .inBody token
  | .close "html" =>
      turnTo .afterAfterBody
      return .done
  | .close _ => retryIn .inBody token
  | .finish => ignore

/-- After the outermost element. -/
def afterAfterBody (token : Token) : Build Progress := do
  match token with
  | .documentType _ | .finish => ignore
  | .comment text => putComment text (.lastIn Document.root)
  | .char c => if isSpace c then inBody token else retryIn .inBody token
  | .start tag => if tag.name == "html" then mergeRoot tag else retryIn .inBody token
  | .close _ => retryIn .inBody token

/-- Among frames. -/
def inFrameset (token : Token) : Build Progress := do
  match token with
  | .documentType _ | .finish => ignore
  | .comment text => commentHere text
  | .char c =>
      if isSpace c then putChar c
      return .done
  | .start tag =>
      match tag.name with
      | "html" => mergeRoot tag
      | "frameset" => insertDone tag
      | "frame" => insertVoidDone tag
      | "noframes" => startInHead tag
      | _ => ignore
  | .close "frameset" =>
      if (← get).stack.length != 1 then
        pop
        if !(← get).currentIs "frameset" then turnTo .afterFrameset
      return .done
  | .close _ => ignore

/-- After the frames. -/
def afterFrameset (token : Token) : Build Progress := do
  match token with
  | .documentType _ | .finish => ignore
  | .comment text => commentHere text
  | .char c =>
      if isSpace c then putChar c
      return .done
  | .start tag =>
      match tag.name with
      | "html" => mergeRoot tag
      | "noframes" => startInHead tag
      | _ => ignore
  | .close "html" =>
      turnTo .afterAfterFrameset
      return .done
  | .close _ => ignore

/-- After the outermost element of a page of frames. -/
def afterAfterFrameset (token : Token) : Build Progress := do
  match token with
  | .comment text => putComment text (.lastIn Document.root)
  | .char c => if isSpace c then inBody token else ignore
  | .start tag =>
      match tag.name with
      | "html" => mergeRoot tag
      | "noframes" => startInHead tag
      | _ => ignore
  | _ => ignore

end Harvest.Markup.Build
