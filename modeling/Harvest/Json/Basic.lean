import Harvest.Decimal.Binary64
import Harvest.Named

/-! JSON values. The members of an object keep the order in which their names first came, and
a name that comes again replaces the value in place.
-/

namespace Harvest

open Decimal

/-- A JSON number: a whole number of 64 bits, signed or not, or a floating-point number. -/
inductive Json.Number where
  | whole (value : Int)
  | real (value : Binary64)
deriving DecidableEq, Repr, Inhabited

/-- A JSON value. -/
inductive Json where
  | null
  | bool (value : Bool)
  | number (value : Json.Number)
  | string (value : String)
  | array (items : List Json)
  | object (members : List (String × Json))
deriving Repr, Inhabited

namespace Json

/-- Named values in the order of their first appearance. -/
abbrev Members := List (String × Json)

/-- A whole number as a value. -/
def whole (n : Int) : Json := .number (.whole n)

/-- A natural number as a value. -/
def nat (n : Nat) : Json := whole n

/-- A value that may be absent, written as `null` when it is. -/
def orNull {α : Type} (write : α → Json) : Option α → Json
  | none => .null
  | some value => write value

/-- The text of a string value. -/
def asString? : Json → Option String
  | .string s => some s
  | _ => none

/-- The items of an array. -/
def asArray? : Json → Option (List Json)
  | .array items => some items
  | _ => none

/-- The members of an object. -/
def asObject? : Json → Option Members
  | .object members => some members
  | _ => none

/-- The value is `null`. -/
def isNull : Json → Bool
  | .null => true
  | _ => false

/-- The value is a string. -/
def isString : Json → Bool
  | .string _ => true
  | _ => false

/-- A member of an object by its name; other values have none. -/
def member? (name : String) : Json → Option Json
  | .object members => Named.get? name members
  | _ => none

mutual

/-- The value with every text and every list of members changed, the innermost first. -/
def mapWith (onText : String → String) (onMembers : Members → Members) : Json → Json
  | .string s => .string (onText s)
  | .array items => .array (mapItems onText onMembers items)
  | .object members => .object (onMembers (mapMembers onText onMembers members))
  | other => other

/-- The items with every text and every list of members changed. -/
def mapItems (onText : String → String) (onMembers : Members → Members)
    : List Json → List Json
  | [] => []
  | item :: items => mapWith onText onMembers item :: mapItems onText onMembers items

/-- The members with every text and every list of members in their values changed. -/
def mapMembers (onText : String → String) (onMembers : Members → Members)
    : List (String × Json) → List (String × Json)
  | [] => []
  | (name, value) :: members =>
      (name, mapWith onText onMembers value) :: mapMembers onText onMembers members

end

mutual

/-- Whether two values are the same. -/
def decEq : (a b : Json) → Decidable (a = b)
  | .null, .null => isTrue rfl
  | .bool a, .bool b => decidable_of_iff (a = b) (by simp)
  | .number a, .number b => decidable_of_iff (a = b) (by simp)
  | .string a, .string b => decidable_of_iff (a = b) (by simp)
  | .array a, .array b =>
      match decEqItems a b with
      | isTrue same => isTrue (by rw [same])
      | isFalse other => isFalse (by simpa using other)
  | .object a, .object b =>
      match decEqMembers a b with
      | isTrue same => isTrue (by rw [same])
      | isFalse other => isFalse (by simpa using other)
  | .null, .bool _ | .null, .number _ | .null, .string _ | .null, .array _ | .null, .object _
  | .bool _, .null | .bool _, .number _ | .bool _, .string _ | .bool _, .array _
  | .bool _, .object _ | .number _, .null | .number _, .bool _ | .number _, .string _
  | .number _, .array _ | .number _, .object _ | .string _, .null | .string _, .bool _
  | .string _, .number _ | .string _, .array _ | .string _, .object _ | .array _, .null
  | .array _, .bool _ | .array _, .number _ | .array _, .string _ | .array _, .object _
  | .object _, .null | .object _, .bool _ | .object _, .number _ | .object _, .string _
  | .object _, .array _ => isFalse nofun

/-- Whether two lists of items are the same. -/
def decEqItems : (a b : List Json) → Decidable (a = b)
  | [], [] => isTrue rfl
  | [], _ :: _ | _ :: _, [] => isFalse nofun
  | a :: as, b :: bs =>
      match decEq a b, decEqItems as bs with
      | isTrue same, isTrue alike => isTrue (by rw [same, alike])
      | isFalse other, _ => isFalse (by simp [other])
      | _, isFalse other => isFalse (by simp [other])

/-- Whether two lists of members are the same, in order. -/
def decEqMembers : (a b : List (String × Json)) → Decidable (a = b)
  | [], [] => isTrue rfl
  | [], _ :: _ | _ :: _, [] => isFalse nofun
  | (key, a) :: as, (name, b) :: bs =>
      match decEq a b, decEqMembers as bs with
      | isTrue same, isTrue alike =>
          decidable_of_iff (key = name) (by simp [same, alike])
      | isFalse other, _ => isFalse (by simp [other])
      | _, isFalse other => isFalse (by simp [other])

end

instance : DecidableEq Json := decEq

end Json

end Harvest
