import Harvest.Markup.Builder.Basic

/-! Formatting elements across the borders of blocks. An element that a block closed too early is
opened again, and a formatting element that ends within a block is divided between the two.
-/

namespace Harvest.Markup

namespace Builder

/-- The formatting elements since the last marker, the latest first. -/
def recentFormatting (b : Builder) : List (NodeId × Tag) :=
  (b.formatting.takeWhile (· != .marker)).filterMap fun
    | .element n tag => some (n, tag)
    | .marker => none

/-- The element counts among the formatting elements. -/
def isFormatting (b : Builder) (n : NodeId) : Bool := b.formatting.any (·.concerns n)

/-- The tag of a formatting element. -/
def formattingTag? (b : Builder) (n : NodeId) : Option Tag :=
  b.formatting.findSome? fun
    | .element m tag => if m == n then some tag else none
    | .marker => none

end Builder

namespace Build

/-- Forgets a formatting element. -/
def forget (n : NodeId) : Build Unit :=
  modify fun b => { b with formatting := b.formatting.filter (!·.concerns n) }

/-- Opens the formatting elements again that were closed since the last marker or open one. -/
def reconstruct : Build Unit := do
  let b ← get
  let isClosed : Formatting → Bool
    | .marker => false
    | .element n _ => !b.stack.contains n
  let closed := b.formatting.takeWhile isClosed
  let opened ← closed.reverse.mapM fun
    | .element _ tag => return .element (← insert tag) tag
    | .marker => return .marker
  modify fun b => { b with formatting := opened.reverse ++ b.formatting.dropWhile isClosed }

/-- The two tags have one name and the same attributes in any order. -/
def sameTag (a b : Tag) : Bool :=
  a.name == b.name && a.attributes.length == b.attributes.length
    && a.attributes.all b.attributes.contains

/-- Puts a formatting element. At most three of the same kind count since the last marker. -/
def insertFormatting (tag : Tag) : Build Progress := do
  let same := (← get).recentFormatting.filter fun (_, other) => sameTag tag other
  if 3 ≤ same.length then
    match same.getLast? with
    | some (n, _) => forget n
    | none => pure ()
  let n ← insert tag
  modify fun b => { b with formatting := .element n tag :: b.formatting }
  return .done

/-- Ends an element that has no rule of its own, unless a special one stands before it. -/
def endOther (name : String) : Build Unit := do
  let b ← get
  match b.stack.find? fun n => b.isNamed name n || b.isSpecial n with
  | some n =>
      if b.isNamed name n then
        closeImplied name
        modify fun b => { b with stack := (b.stack.dropWhile (· != n)).tail }
  | none => pure ()

/-- The state of a division: the node that was moved last, the formatting elements kept on the
way out, and the one after which the new part counts.
-/
structure Division where
  last : NodeId
  kept : List NodeId := []
  after : Option NodeId := none

/-- Takes an element between the block and the formatting element along; the first three that
format are divided as well, the others are closed.
-/
def divide (block : NodeId) (division : Division) (n : NodeId) (count : Nat) : Build Division := do
  match (← get).formattingTag? n with
  | none => return division
  | some tag =>
      if 3 < count then
        forget n
        return division
      else
        let fresh ← createFor tag
        modify fun b =>
          { b with
            formatting := b.formatting.map fun e =>
              if e.concerns n then .element fresh tag else e }
        onDocument (·.append fresh division.last)
        let after := if division.last == block then some fresh else division.after
        return ⟨fresh, division.kept ++ [fresh], after⟩

/-- Takes all elements between the block and the formatting element along. -/
def divideAll (block : NodeId) : (count : Nat) → Division → List NodeId → Build Division
  | _, division, [] => return division
  | count, division, n :: rest => do
      divideAll block (count + 1) (← divide block division n count) rest

/-- The formatting elements with the new part of a divided one in its place, or after another. -/
def placeNew (old : NodeId) (fresh : Formatting) (after : Option NodeId)
    (formatting : List Formatting) : List Formatting :=
  match after with
  | none => formatting.map fun e => if e.concerns old then fresh else e
  | some m =>
      (formatting.flatMap fun e => if e.concerns m then [fresh, e] else [e]).filter
        (!·.concerns old)

/-- Divides a formatting element at the outermost block in it; tells whether to look for another
one of the same name.
-/
def divideOnce (name : String) : Build Bool := do
  let b ← get
  match b.recentFormatting.find? fun (_, tag) => tag.name == name with
  | none =>
      endOther name
      return false
  | some (n, tag) =>
      if !b.stack.contains n then
        forget n
        return false
      else if !b.reaches (Builder.bounds []) (· == n) b.stack then return false
      else
        let within := b.stack.takeWhile (· != n)
        let outer := (b.stack.dropWhile (· != n)).tail
        match within.reverse.find? b.isSpecial with
        | none =>
            modify fun b => { b with stack := outer }
            forget n
            return false
        | some block =>
            let division ← divideAll block 1 { last := block }
              (within.dropWhile (· != block)).tail
            let place := (← get).placeIn (outer.head?.getD Document.root)
            putAt place division.last
            let fresh ← createFor tag
            onDocument fun d => (d.moveChildren block fresh).append block fresh
            modify fun b =>
              { b with
                formatting := placeNew n (.element fresh tag) division.after b.formatting
                stack := within.takeWhile (· != block) ++ fresh :: block :: division.kept
                  ++ outer }
            return true

/-- Divides formatting elements, at most a number of times. -/
def divideUpTo (name : String) : (times : Nat) → Build Unit
  | 0 => return ()
  | times + 1 => do if ← divideOnce name then divideUpTo name times

/-- Ends a formatting element, which is divided where it is interleaved with blocks. -/
def endFormatting (name : String) : Build Progress := do
  let b ← get
  match b.stack with
  | n :: _ =>
      if b.isNamed name n && !b.isFormatting n then pop else divideUpTo name 8
  | [] => pure ()
  return .done

/-- Ends a link that is still open when another one begins. -/
def endOpenLink : Build Unit := do
  match (← get).recentFormatting.find? fun (_, tag) => tag.name == "a" with
  | some (n, _) =>
      let _ ← endFormatting "a"
      forget n
      removeOpen n
  | none => pure ()

end Build

end Harvest.Markup
