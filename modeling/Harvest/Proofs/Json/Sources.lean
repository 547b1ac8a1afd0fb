import Harvest.Proofs.Json.Proper

/-! Where values come from. The words of a text hold proper numbers only, so a draft that is put
together from them does, and so does every value that is read from such a draft.
-/

namespace Harvest.Json

-----------------------------------------------------------------------------------------
-- Words
-----------------------------------------------------------------------------------------

/-- A number in a word is proper. -/
def Token.Proper : Token → Prop
  | .number (some n) => n.Proper
  | _ => True

/-- A word that the scanner is in the middle of is proper. -/
def Scan.Proper : Scan → Prop
  | .word _ token => token.Proper
  | _ => True

/-- The scanner gives out proper words, and goes on inside one. -/
structure Scanned.Proper (scanned : Scanned) : Prop where
  tokens : ∀ token ∈ scanned.tokens, token.Proper
  next : ∀ after ∈ scanned.next, after.Proper

namespace Scanned

/-- Nothing is given out, and the scanner goes on. -/
theorem proper_going {after : Scan} (proper : after.Proper) : Proper ⟨[], some after⟩ :=
  ⟨nofun, by simpa using proper⟩

/-- A word is given out, and the scanner goes on behind it. -/
theorem proper_between {token : Token} (proper : token.Proper) : Proper ⟨[token], some .between⟩ :=
  ⟨by simpa using proper, by simp [Scan.Proper]⟩

/-- A word is given out, and the scanner stops. -/
theorem proper_last {token : Token} (proper : token.Proper) : Proper ⟨[token], none⟩ :=
  ⟨by simpa using proper, nofun⟩

/-- A word is given out before what comes after it. -/
theorem proper_cons {token : Token} (first : token.Proper) {after : Scanned}
    (proper : after.Proper)
    : Proper ⟨token :: after.tokens, after.next⟩ :=
  ⟨List.forall_mem_cons.mpr ⟨first, proper.tokens⟩, proper.next⟩

/-- Either of two steps is proper. -/
theorem proper_ite {condition : Prop} [Decidable condition] {a b : Scanned} (left : a.Proper)
    (right : b.Proper)
    : Proper (if condition then a else b) := by
  split_ifs
  · exact left
  · exact right

end Scanned

open Scanned

/-- The token of a string is proper. -/
theorem proper_stringToken (pieces : List Piece) (ending : StringEnd)
    : (stringToken pieces ending).Proper := by
  cases ending <;> trivial

/-- A number as it is read is a proper word. -/
theorem proper_value (t : NumberText) : (Token.number t.value).Proper := by
  cases found : t.value with
  | none => trivial
  | some n => exact Number.proper_of_value found

/-- The token of a number is proper. -/
theorem proper_token (t : NumberText) (next : Option Char) : (t.token next).Proper := by
  unfold NumberText.token
  cases t.part with
  | zero =>
      simp only
      split_ifs
      · trivial
      · exact proper_value t
  | sign | point | mark | markSign => trivial
  | whole | fraction | exponent => exact proper_value t

/-- What a character starts is proper. -/
theorem proper_start (c : Char) : (Scan.start c).Proper := by
  unfold Scan.start
  repeat' refine proper_ite ?_ ?_
  all_goals first
    | exact proper_going trivial
    | exact proper_between trivial
    | exact proper_last trivial

/-- One step of the scanner gives out proper words. -/
theorem proper_step (c : Char) (rest : List Char) {here : Scan} (proper : here.Proper)
    : (here.step c rest).Proper := by
  cases here with
  | between => exact proper_start c
  | word expected token =>
      cases expected with
      | nil => exact proper_cons proper (proper_start c)
      | cons x xs =>
          exact proper_ite (proper_last trivial)
            (proper_ite (proper_between proper) (proper_going proper))
  | number text =>
      have last := proper_token text (some c)
      simp only [Scan.step]
      split
      · exact proper_going trivial
      · split
        · rename_i token
          exact proper_cons (token ▸ last) (proper_start c)
        · exact proper_last last
  | string pieces =>
      exact proper_ite (proper_between (proper_stringToken _ _))
        (proper_ite (proper_going trivial)
          (proper_ite (proper_last (proper_stringToken _ _)) (proper_going trivial)))
  | escape pieces =>
      refine proper_ite
        (proper_ite (proper_last (proper_stringToken _ _)) (proper_going trivial)) ?_
      cases Scan.simpleEscape? c with
      | some value => exact proper_going trivial
      | none => exact proper_last (proper_stringToken _ _)
  | hex pieces digits =>
      simp only [Scan.step]
      split
      · exact proper_last (proper_stringToken _ _)
      · exact proper_ite (proper_going trivial) (proper_going trivial)

/-- Where the text ends the scanner gives out proper words. -/
theorem proper_finish {here : Scan} (proper : here.Proper)
    : ∀ token ∈ here.finish, token.Proper := by
  cases here with
  | between => exact nofun
  | word expected token =>
      cases expected with
      | nil => exact List.forall_mem_singleton.mpr proper
      | cons x xs => simp [Scan.finish, Token.Proper]
  | number text => simpa [Scan.finish] using proper_token text none
  | string pieces => simpa [Scan.finish] using proper_stringToken pieces .cut
  | escape pieces => simpa [Scan.finish] using proper_stringToken pieces .cut
  | hex pieces _ => simpa [Scan.finish] using proper_stringToken pieces .cut

/-- All words of a text are proper, by induction over its characters. -/
theorem proper_scan {here : Scan} (proper : here.Proper) (cs : List Char)
    : ∀ token ∈ scan here cs, token.Proper := by
  induction cs generalizing here with
  | nil => exact proper_finish proper
  | cons c cs ih =>
      have step := proper_step c cs proper
      unfold scan
      cases next : (here.step c cs).next with
      | none =>
          simp only [next]
          exact step.tokens
      | some after =>
          simp only [next]
          intro token member
          rcases List.mem_append.mp member with here' | later
          · exact step.tokens token here'
          · exact ih (step.next after next) token later

-----------------------------------------------------------------------------------------
-- Drafts
-----------------------------------------------------------------------------------------

mutual

/-- The numbers of a draft are proper. -/
def Draft.Proper : Draft → Prop
  | .number (some n) => n.Proper
  | .array items _ => Draft.ProperItems items
  | .object members _ => Draft.ProperMembers members
  | _ => True

/-- The numbers of items are proper. -/
def Draft.ProperItems : List Draft → Prop
  | [] => True
  | item :: items => item.Proper ∧ Draft.ProperItems items

/-- The numbers of members are proper. -/
def Draft.ProperMembers : List (Except SyntaxError String × Draft) → Prop
  | [] => True
  | (_, item) :: members => item.Proper ∧ Draft.ProperMembers members

end

/-- The numbers of items are proper when those of each item are. -/
theorem Draft.properItems_iff {items : List Draft}
    : Draft.ProperItems items ↔ ∀ item ∈ items, item.Proper := by
  induction items with
  | nil => simp [Draft.ProperItems]
  | cons item items ih => simp [Draft.ProperItems, ih]

/-- The numbers of members are proper when those of each value are. -/
theorem Draft.properMembers_iff {members : List (Except SyntaxError String × Draft)}
    : Draft.ProperMembers members ↔ ∀ member ∈ members, member.2.Proper := by
  induction members with
  | nil => simp [Draft.ProperMembers]
  | cons member members ih => simp [Draft.ProperMembers, ih]

/-- The parts of an open list or record are proper. -/
def Frame.Proper : Frame → Prop
  | .list items => Draft.ProperItems items
  | .record members => Draft.ProperMembers members
  | .member members _ => Draft.ProperMembers members

/-- The parts of a document that have been read are proper. -/
def Reading.Proper : Reading → Prop
  | .going stack _ => ∀ frame ∈ stack, frame.Proper
  | .whole root => root.Proper
  | .ended root _ => root.Proper

section

variable {stack : List Frame}

/-- Proper items make a proper list. -/
theorem Draft.proper_list {items : List Draft} (proper : Draft.ProperItems items)
    (closing : Option Breach)
    : (Draft.array items.reverse closing).Proper :=
  properItems_iff.mpr fun item member =>
    properItems_iff.mp proper item (List.mem_reverse.mp member)

/-- Proper members make a proper record. -/
theorem Draft.proper_record {members : List (Except SyntaxError String × Draft)}
    (proper : Draft.ProperMembers members) (closing : Option Breach)
    : (Draft.object members.reverse closing).Proper :=
  properMembers_iff.mpr fun member here =>
    properMembers_iff.mp proper member (List.mem_reverse.mp here)

/-- A proper draft in proper frames makes a proper document, by induction over the frames. -/
theorem proper_enclose {inner : Draft} (proper : inner.Proper)
    (open' : ∀ frame ∈ stack, frame.Proper)
    : (enclose inner stack).Proper := by
  induction stack generalizing inner with
  | nil => exact proper
  | cons frame stack ih =>
      obtain ⟨first, others⟩ := List.forall_mem_cons.mp open'
      cases frame with
      | list items =>
          have parts : Draft.ProperItems (inner :: items) := ⟨proper, first⟩
          exact ih (Draft.proper_list parts none) others
      | record members => exact ih (Draft.proper_record first none) others
      | member members name =>
          have parts : Draft.ProperMembers ((name, inner) :: members) := ⟨proper, first⟩
          exact ih (Draft.proper_record parts none) others

/-- A proper value is attached to proper frames. -/
theorem proper_attach {value : Draft} (proper : value.Proper)
    (open' : ∀ frame ∈ stack, frame.Proper)
    : (Reading.attach value stack).Proper := by
  cases stack with
  | nil => exact proper
  | cons frame stack =>
      obtain ⟨first, others⟩ := List.forall_mem_cons.mp open'
      cases frame with
      | list items => exact List.forall_mem_cons.mpr ⟨⟨proper, first⟩, others⟩
      | record members => exact open'
      | member members name => exact List.forall_mem_cons.mpr ⟨⟨proper, first⟩, others⟩

/-- Damage where a value should be leaves what was read proper. -/
theorem proper_breakValue (breach : Breach) (open' : ∀ frame ∈ stack, frame.Proper)
    : (Reading.breakValue breach stack).Proper :=
  proper_enclose trivial open'

/-- Damage inside a list or record leaves what was read proper. -/
theorem proper_breakInner (breach : Breach) (open' : ∀ frame ∈ stack, frame.Proper)
    : (Reading.breakInner breach stack).Proper := by
  cases stack with
  | nil => trivial
  | cons frame stack =>
      obtain ⟨first, others⟩ := List.forall_mem_cons.mp open'
      cases frame with
      | list items => exact proper_enclose (Draft.proper_list first (some breach)) others
      | record members => exact proper_enclose (Draft.proper_record first (some breach)) others
      | member members name => exact proper_enclose trivial open'

/-- A proper word is taken as a value. -/
theorem proper_takeValue {token : Token} (proper : token.Proper)
    (open' : ∀ frame ∈ stack, frame.Proper)
    : (Reading.takeValue stack token).Proper := by
  cases token with
  | openList => exact List.forall_mem_cons.mpr ⟨trivial, open'⟩
  | openRecord => exact List.forall_mem_cons.mpr ⟨trivial, open'⟩
  | null => exact proper_attach trivial open'
  | bool b => exact proper_attach trivial open'
  | number value =>
      cases value with
      | none => exact proper_attach trivial open'
      | some n => exact proper_attach proper open'
  | string s => exact proper_attach trivial open'
  | _ => exact proper_breakValue _ open'

/-- A word is taken as a name. -/
theorem proper_takeName (otherwise : Breach) (token : Token)
    (open' : ∀ frame ∈ stack, frame.Proper)
    : (Reading.takeName otherwise stack token).Proper := by
  cases token with
  | string name =>
      cases stack with
      | nil => exact proper_breakInner otherwise open'
      | cons frame stack =>
          obtain ⟨first, others⟩ := List.forall_mem_cons.mp open'
          cases frame with
          | record members => exact List.forall_mem_cons.mpr ⟨first, others⟩
          | _ => exact proper_breakInner otherwise open'
  | _ => exact proper_breakInner _ open'

/-- The end of a list or record leaves what was read proper. -/
theorem proper_close (open' : ∀ frame ∈ stack, frame.Proper) : (Reading.close stack).Proper := by
  cases stack with
  | nil => exact proper_breakValue _ open'
  | cons frame stack =>
      obtain ⟨first, others⟩ := List.forall_mem_cons.mp open'
      cases frame with
      | list items => exact proper_attach (Draft.proper_list first none) others
      | record members => exact proper_attach (Draft.proper_record first none) others
      | member members name => exact proper_breakValue _ open'

end

/-- One more proper word leaves what was read proper. -/
theorem proper_next {reading : Reading} (proper : reading.Proper) {token : Token}
    (word : token.Proper)
    : (reading.next token).Proper := by
  cases reading with
  | ended root trailing => exact proper
  | whole root => exact proper
  | going stack place =>
      unfold Reading.next
      simp only
      split
      all_goals first
        | exact proper
        | exact proper_takeValue word proper
        | exact proper_takeName _ _ proper
        | exact proper_close proper
        | exact proper_breakInner _ proper

/-- What is kept of a document that breaks off is proper. -/
theorem proper_cut (breach : Breach) {reading : Reading} (proper : reading.Proper)
    : (match reading with
        | .ended root trailing => (⟨root, trailing⟩ : Document)
        | _ => ⟨.broken breach, false⟩).root.Proper := by
  cases reading with
  | ended root trailing => exact proper
  | _ => trivial

/-- What a text says has proper numbers. -/
theorem proper_document (text : String) : (document text).root.Proper := by
  have words : ∀ token ∈ tokens text, token.Proper :=
    proper_scan (show Scan.between.Proper from trivial) _
  have read : ((tokens text).foldl Reading.next (.going [] .value)).Proper := by
    generalize tokens text = ts at words
    suffices ∀ reading : Reading, reading.Proper → (ts.foldl Reading.next reading).Proper from
      this _ nofun
    induction ts with
    | nil => exact fun reading proper => proper
    | cons token ts ih =>
        obtain ⟨first, others⟩ := List.forall_mem_cons.mp words
        exact fun reading proper => ih others _ (proper_next proper first)
  unfold document
  cases reading : (tokens text).foldl Reading.next (.going [] .value) with
  | ended root trailing =>
      rw [reading] at read
      exact read
  | whole root =>
      rw [reading] at read
      exact read
  | going stack place =>
      rw [reading] at read
      have cut {reading : Reading} (proper : reading.Proper) := proper_cut place.cut proper
      cases place with
      | value => exact cut (proper_breakValue _ read)
      | _ => exact cut (proper_breakInner _ read)

end Harvest.Json
