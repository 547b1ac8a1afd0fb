import Harvest.Json.Basic

/-! Lenient look-ups in objects. A member that is absent, or of another kind than wanted, counts
as empty.
-/

namespace Harvest.Json

/-- A member, `null` when it is absent. -/
def valueAt (value : Json) (name : String) : Json := (value.member? name).getD .null

/-- A member, unless it is absent or `null`. -/
def given? (value : Json) (name : String) : Option Json :=
  (value.member? name).filter (!·.isNull)

/-- The text of a member, if it is a string. -/
def textAt? (value : Json) (name : String) : Option String := (value.member? name).bind asString?

/-- The text of a member. -/
def textAt (value : Json) (name : String) : String := (value.textAt? name).getD ""

/-- The items of a member. -/
def itemsAt (value : Json) (name : String) : List Json :=
  ((value.member? name).bind asArray?).getD []

/-- The texts among the items of a member. -/
def textsAt (value : Json) (name : String) : List String :=
  (value.itemsAt name).filterMap asString?

/-- The members of a member. -/
def membersAt (value : Json) (name : String) : Members :=
  ((value.member? name).bind asObject?).getD []

/-- The natural number of a member. -/
def natAt? (value : Json) (name : String) : Option Nat :=
  match value.member? name with
  | some (.number (.whole n)) => some n.toNat
  | _ => none

/-- The natural number of a member, zero when there is none. -/
def natAt (value : Json) (name : String) : Nat := (value.natAt? name).getD 0

/-- The boolean of a member, with the value for its absence. -/
def flagAt (value : Json) (name : String) (absent : Bool) : Bool :=
  match value.member? name with
  | some (.bool b) => b
  | _ => absent

/-- The two texts of a pair. -/
def textPair (value : Json) : String × String :=
  match (value.asArray?).getD [] with
  | a :: b :: _ => ((a.asString?).getD "", (b.asString?).getD "")
  | _ => ("", "")

end Harvest.Json
