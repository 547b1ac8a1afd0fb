import Harvest.Proofs.Text.Digits
import Mathlib.Data.List.Induction
import Mathlib.Data.List.TakeWhile
import Mathlib.Data.Nat.Digits.Defs
import Mathlib.Data.Set.List

/-! Decimal literals. A text spells an integer when a literal of it stands between blank margins.
Trimming such a text leaves the literal, and the literal is read as its integer.
-/

namespace Harvest.Text

-----------------------------------------------------------------------------------------
-- Margins
-----------------------------------------------------------------------------------------

section

variable {left chars right : List Char}

/-- A blank margin on the left is dropped. -/
theorem trimLeft_append (blank : ∀ c ∈ left, isBlank c)
    : trimLeft (left ++ chars) = trimLeft chars :=
  List.dropWhile_append_of_pos blank

/-- A blank margin on the right is dropped. -/
theorem trimRight_append (blank : ∀ c ∈ right, isBlank c)
    : trimRight (chars ++ right) = trimRight chars := by
  unfold trimRight
  rw [List.reverse_append, List.dropWhile_append_of_pos (by simpa using blank)]

/-- Characters that are not blank are left as they are. -/
theorem trimLeft_of_bare (bare : ∀ c ∈ chars, isBlank c = false)
    : trimLeft chars = chars := by
  cases chars with
  | nil => rfl
  | cons c chars => simp [trimLeft, bare c List.mem_cons_self]

/-- Characters that are not blank are left as they are. -/
theorem trimRight_of_bare (bare : ∀ c ∈ chars, isBlank c = false)
    : trimRight chars = chars := by
  have reversed : trimLeft chars.reverse = chars.reverse :=
    trimLeft_of_bare (by simpa using bare)
  unfold trimLeft at reversed
  rw [trimRight, reversed, List.reverse_reverse]

/-- Trimming leaves what stands between blank margins, when nothing in it is blank. -/
theorem toList_trim {text : String} (margins : text.toList = left ++ chars ++ right)
    (blankLeft : ∀ c ∈ left, isBlank c) (blankRight : ∀ c ∈ right, isBlank c)
    (bare : ∀ c ∈ chars, isBlank c = false)
    : (trim text).toList = chars := by
  rw [trim, String.toList_ofList, margins, List.append_assoc, trimLeft_append blankLeft]
  cases chars with
  | nil =>
      have none : trimLeft ([] ++ right) = [] := by
        rw [List.nil_append, ← List.append_nil right, trimLeft_append blankRight]
        rfl
      rw [none]
      rfl
  | cons c chars =>
      have kept : trimLeft (c :: chars ++ right) = c :: chars ++ right := by
        simp [trimLeft, bare c List.mem_cons_self]
      rw [kept, trimRight_append blankRight, trimRight_of_bare bare]

end

/-- What trimming leaves stands between blank margins. -/
theorem exists_margins (text : String)
    : ∃ left right : List Char,
        text.toList = left ++ (trim text).toList ++ right
        ∧ (∀ c ∈ left, isBlank c)
        ∧ ∀ c ∈ right, isBlank c := by
  let rest := trimLeft text.toList
  refine ⟨text.toList.takeWhile isBlank, (rest.reverse.takeWhile isBlank).reverse, ?_,
    fun c => List.mem_takeWhile_imp, fun c member => ?_⟩
  · have behind : trimRight rest ++ (rest.reverse.takeWhile isBlank).reverse = rest := by
      rw [trimRight, ← List.reverse_append, List.takeWhile_append_dropWhile,
        List.reverse_reverse]
    rw [trim, String.toList_ofList, List.append_assoc, behind]
    exact List.takeWhile_append_dropWhile.symm
  · exact List.mem_takeWhile_imp (List.mem_reverse.mp member)

-----------------------------------------------------------------------------------------
-- Digits
-----------------------------------------------------------------------------------------

/-- The characters of digits. -/
def digitChars (digits : List (Fin 10)) : List Char := digits.map fun d : Fin 10 => Nat.digitChar d

/-- The number of digits, the most significant first. -/
def digitsValue (digits : List (Fin 10)) : Nat := Nat.ofDigits 10 (digits.reverse.map Fin.val)

/-- An ASCII digit is the character of a digit, by cases on its code. -/
theorem exists_digit {c : Char} (digit : isDigit c) : ∃ d : Fin 10, Nat.digitChar d = c := by
  simp only [isDigit, Bool.and_eq_true, decide_eq_true_eq] at digit
  have low : 48 ≤ c.toNat := digit.1
  have high : c.toNat ≤ 57 := digit.2
  have chars : ∀ d : Fin 10, Nat.digitChar d = Char.ofNat (48 + d) := by decide
  refine ⟨⟨c.toNat - 48, by omega⟩, ?_⟩
  rw [chars, Nat.add_sub_cancel' low, Char.ofNat_toNat]

/-- ASCII digits are the characters of digits. -/
theorem exists_digits {cs : List Char} (all : ∀ c ∈ cs, isDigit c)
    : ∃ digits, digitChars digits = cs := by
  have range : cs ∈ Set.range (List.map fun d : Fin 10 => Nat.digitChar d) := by
    rw [Set.range_list_map]
    exact fun c member => exists_digit (all c member)
  exact range

theorem isDigit_of_mem_digitChars {digits : List (Fin 10)} {c : Char}
    (member : c ∈ digitChars digits)
    : isDigit c := by
  obtain ⟨d, _, rfl⟩ := List.mem_map.mp member
  exact isDigit_digitChar d.isLt

/-- Digits are read as their number, by induction from the last digit. -/
theorem decimal_digitChars (digits : List (Fin 10))
    : decimal (digitChars digits) = digitsValue digits := by
  induction digits using List.reverseRecOn with
  | nil => rfl
  | append_singleton digits d ih =>
      unfold decimal digitChars digitsValue at ih ⊢
      rw [List.map_append, List.foldl_append, ih, List.reverse_append, List.reverse_singleton,
        List.singleton_append]
      simp only [List.map_cons, List.map_nil, List.foldl_cons, List.foldl_nil,
        toNat_digitChar d.isLt, Nat.ofDigits_cons]
      omega

/-- A natural number is read from one digit or more, and it is their number. -/
theorem natural?_eq_some_iff {cs : List Char} {n : Nat}
    : natural? cs = some n
      ↔ ∃ digits, digits ≠ [] ∧ digitChars digits = cs ∧ digitsValue digits = n := by
  unfold natural?
  constructor
  · intro read
    split at read
    · cases read
    · rename_i well
      simp only [Bool.or_eq_true, List.isEmpty_iff, Bool.not_eq_true', not_or,
        Bool.not_eq_false, List.all_eq_true] at well
      obtain ⟨digits, rfl⟩ := exists_digits well.2
      refine ⟨digits, fun none => well.1 (by rw [none]; rfl), rfl, ?_⟩
      rw [← decimal_digitChars, Option.some.inj read]
  · rintro ⟨digits, some, rfl, rfl⟩
    have filled : (digitChars digits).isEmpty = false := by
      simpa [digitChars, List.isEmpty_eq_false_iff] using some
    have all : (digitChars digits).all isDigit := by
      rw [List.all_eq_true]
      exact fun c => isDigit_of_mem_digitChars
    rw [filled, all, decimal_digitChars]
    rfl

-----------------------------------------------------------------------------------------
-- Literals
-----------------------------------------------------------------------------------------

/-- What may stand before the digits of a literal. -/
inductive Sign where
  | none
  | plus
  | minus
deriving DecidableEq

namespace Sign

/-- A sign in writing. -/
def chars : Sign → List Char
  | none => []
  | plus => ['+']
  | minus => ['-']

/-- A number with a sign. -/
def apply : Sign → Nat → Int
  | minus, n => -n
  | _, n => n

theorem not_isBlank (sign : Sign) : ∀ c ∈ sign.chars, isBlank c = false := by
  cases sign with
  | none => exact List.forall_mem_nil _
  | plus => exact List.forall_mem_singleton.mpr (by decide)
  | minus => exact List.forall_mem_singleton.mpr (by decide)

end Sign

/-- A decimal literal: one digit or more, the most significant first, perhaps after a sign. -/
structure Literal where
  sign : Sign
  digits : List (Fin 10)
  filled : digits ≠ []

namespace Literal

/-- A literal in writing. -/
def chars (literal : Literal) : List Char := literal.sign.chars ++ digitChars literal.digits

/-- The integer of a literal. -/
def value (literal : Literal) : Int := literal.sign.apply (digitsValue literal.digits)

/-- Nothing in a literal is blank. -/
theorem not_isBlank (literal : Literal) : ∀ c ∈ literal.chars, isBlank c = false := by
  intro c member
  rcases List.mem_append.mp member with sign | digit
  · exact literal.sign.not_isBlank c sign
  · exact not_isBlank_of_isDigit (isDigit_of_mem_digitChars digit)

end Literal

/-- An integer is read from a literal, and it is the integer of the literal. -/
theorem integer?_eq_some_iff {cs : List Char} {n : Int}
    : integer? cs = some n ↔ ∃ literal : Literal, literal.chars = cs ∧ literal.value = n := by
  constructor
  · intro read
    unfold integer? at read
    split at read
    all_goals
      simp only [bind_pure_comp, Option.map_eq_map, Option.map_map] at read
      obtain ⟨magnitude, found, rfl⟩ := Option.map_eq_some_iff.mp read
      obtain ⟨digits, some, rfl, rfl⟩ := natural?_eq_some_iff.mp found
    · exact ⟨⟨.minus, digits, some⟩, rfl, rfl⟩
    · exact ⟨⟨.plus, digits, some⟩, rfl, rfl⟩
    · exact ⟨⟨.none, digits, some⟩, rfl, rfl⟩
  · rintro ⟨⟨sign, digits, some⟩, rfl, rfl⟩
    have found : natural? (digitChars digits) = Option.some (digitsValue digits) :=
      natural?_eq_some_iff.mpr ⟨digits, some, rfl, rfl⟩
    cases sign with
    | plus | minus => simp [Literal.chars, Sign.chars, integer?, found, Literal.value, Sign.apply]
    | none =>
        have unsigned (c : Char) (cs : List Char) (other : isDigit c = false)
            : digitChars digits ≠ c :: cs := by
          intro here
          have digit : isDigit c := isDigit_of_mem_digitChars (here ▸ List.mem_cons_self)
          simp [digit] at other
        change integer? (digitChars digits) = _
        unfold integer?
        split
        case h_1 cs here => exact absurd here (unsigned '-' cs (by decide))
        case h_2 cs here => exact absurd here (unsigned '+' cs (by decide))
        case h_3 => simp [found, Literal.value, Sign.apply]

/-- A text spells an integer: between blank margins stands a literal of it. -/
def Spells (text : String) (n : Int) : Prop :=
  ∃ left right : List Char, ∃ literal : Literal,
    text.toList = left ++ literal.chars ++ right
    ∧ (∀ c ∈ left, isBlank c)
    ∧ (∀ c ∈ right, isBlank c)
    ∧ literal.value = n

/-- The integer that a text spells is read from it once it is trimmed. -/
theorem integer?_trim_eq_some_iff {text : String} {n : Int}
    : integer? (trim text).toList = some n ↔ Spells text n := by
  rw [integer?_eq_some_iff]
  constructor
  · rintro ⟨literal, chars, value⟩
    obtain ⟨left, right, margins, blankLeft, blankRight⟩ := exists_margins text
    rw [← chars] at margins
    exact ⟨left, right, literal, margins, blankLeft, blankRight, value⟩
  · rintro ⟨left, right, literal, margins, blankLeft, blankRight, value⟩
    exact ⟨literal, (toList_trim margins blankLeft blankRight literal.not_isBlank).symm, value⟩

end Harvest.Text
