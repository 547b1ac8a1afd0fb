import Harvest.Proofs.Text.Digits
import Harvest.Uuid

/-! Identifiers and their texts. An identifier is read back from its own text, so two identifiers
with one text are the same.
-/

namespace Harvest

namespace Text

/-- A hexadecimal digit is read as its value, by cases on the sixteen digits. -/
theorem hexValue?_hexDigit {n : Nat} (small : n < 16) : hexValue? (hexDigit n) = some n := by
  revert n
  decide

theorem hexDigit_ne_hyphen {n : Nat} (small : n < 16) : hexDigit n ≠ '-' := by
  revert n
  decide

/-- A padded number is written in digits of base sixteen, by induction over the width. -/
theorem hexPadded_eq (width n : Nat) : hexPadded width n = inDigits 16 hexDigit width n := by
  induction width generalizing n with
  | zero => rfl
  | succ width ih => rw [hexPadded, inDigits, ih]

/-- A padded number has as many digits as asked for. -/
@[simp] theorem length_hexPadded (width n : Nat) : (hexPadded width n).length = width := by
  rw [hexPadded_eq, length_inDigits]

/-- The digits of a padded number are hexadecimal. -/
theorem hyphen_notMem_hexPadded (width n : Nat) : '-' ∉ hexPadded width n := by
  intro member
  rw [hexPadded_eq] at member
  obtain ⟨d, small, same⟩ := mem_inDigits (by decide) member
  exact hexDigit_ne_hyphen small same.symm

/-- A padded number is read back when its digits suffice, by induction over the width. -/
theorem hexNumber?_hexPadded {width n : Nat} (fits : n < 16 ^ width)
    : hexNumber? (hexPadded width n) = some n := by
  induction width generalizing n with
  | zero =>
      rw [Nat.pow_zero, Nat.lt_one_iff] at fits
      subst fits
      rfl
  | succ width ih =>
      have high : n / 16 < 16 ^ width := by
        rw [Nat.pow_succ] at fits
        exact Nat.div_lt_of_lt_mul (by omega)
      have digits : hexNumber? (hexPadded width (n / 16)) = some (n / 16) := ih high
      have low := hexValue?_hexDigit (Nat.mod_lt n (by decide : 0 < 16))
      unfold hexNumber? at digits ⊢
      rw [hexPadded, List.foldl_append, digits]
      simp only [List.foldl_cons, List.foldl_nil, low, bind, Option.bind, pure, Option.some.injEq]
      omega

/-- A smaller value has a smaller hexadecimal digit, by cases on the sixteen digits. -/
theorem hexDigit_lt {a b : Nat} (less : a < b) (small : b < 16)
    : (hexDigit a).toNat < (hexDigit b).toNat := by
  revert a
  revert b
  decide

/-- A smaller number is padded to a smaller text when the digits suffice. -/
theorem codes_hexPadded_lt {width a b : Nat} (less : a < b) (fits : b < 16 ^ width)
    : codes (hexPadded width a) < codes (hexPadded width b) := by
  rw [hexPadded_eq, hexPadded_eq]
  exact codes_inDigits_lt hexDigit_lt less fits

/-- A separator between parts of the same lengths leaves their order, by induction over the
parts.
-/
theorem intercalate_lt_of_flatten_lt {separator : List Nat} {first second : List (List Nat)}
    (lengths : List.Forall₂ (fun one two => one.length = two.length) first second)
    (less : first.flatten < second.flatten)
    : separator.intercalate first < separator.intercalate second := by
  induction lengths with
  | nil => exact less
  | @cons one two first second length lengths ih =>
      cases lengths with
      | nil => simpa [List.intercalate] using less
      | @cons next other first second length' lengths =>
          change one ++ (next :: first).flatten < two ++ (other :: second).flatten at less
          rw [append_lt_append_iff length] at less
          have unfolds (part next : List Nat) (rest : List (List Nat))
              : separator.intercalate (part :: next :: rest)
                = part ++ (separator ++ separator.intercalate (next :: rest)) := by
            simp [List.intercalate]
          rw [unfolds, unfolds, append_lt_append_iff length]
          rcases less with before | ⟨same, rest⟩
          · exact Or.inl before
          · exact Or.inr ⟨same, (append_lt_append_iff rfl _ _).mpr (Or.inr ⟨rfl, ih rest⟩)⟩

end Text

namespace Uuid

open Text

theorem fits (id : Uuid) : id.bits.toNat < 16 ^ 32 := id.bits.isLt

/-- The five groups of digits in which an identifier is written. -/
def groups (id : Uuid) : List (List Char) :=
  let ds := hexPadded 32 id.bits.toNat
  [(ds.drop 0).take 8, (ds.drop 8).take 4, (ds.drop 12).take 4, (ds.drop 16).take 4,
    (ds.drop 20).take 12]

/-- The text of an identifier is its groups with hyphens between them. -/
theorem toList_text (id : Uuid) : id.text.toList = ['-'].intercalate id.groups := by
  have hyphen : "-".toList = ['-'] := rfl
  simp only [text, String.toList_intercalate, List.map_cons, List.map_nil, String.toList_ofList,
    hyphen, groups]

theorem flatten_groups (id : Uuid) : id.groups.flatten = hexPadded 32 id.bits.toNat := by
  have last : ((hexPadded 32 id.bits.toNat).drop 20).take 12
      = (hexPadded 32 id.bits.toNat).drop 20 :=
    List.take_of_length_le (by simp)
  rw [groups, last]
  generalize hexPadded 32 id.bits.toNat = ds
  have joined (start count : Nat) (rest : List Char) (follows : rest = ds.drop (start + count))
      : (ds.drop start).take count ++ rest = ds.drop start := by
    rw [follows, ← List.drop_drop]
    exact List.take_append_drop count (ds.drop start)
  have twelve := joined 16 4 _ rfl
  have eight := joined 12 4 _ twelve
  have four := joined 8 4 _ eight
  simpa using joined 0 8 _ four

/-- There are five groups, of the lengths that are looked for. -/
theorem exists_groups (id : Uuid)
    : ∃ a b c d e,
        id.groups = [a, b, c, d, e]
        ∧ a.length = 8 ∧ b.length = 4 ∧ c.length = 4 ∧ d.length = 4 ∧ e.length = 12 := by
  refine ⟨_, _, _, _, _, rfl, ?_, ?_, ?_, ?_, ?_⟩
  all_goals simp

/-- The groups of the text of an identifier are read back as the identifier. -/
theorem ofGroups?_text (id : Uuid) : ofGroups? id.text.toList = some id := by
  have plain : ∀ group ∈ id.groups, '-' ∉ group := by
    intro group member hyphen
    have inside : '-' ∈ id.groups.flatten := List.mem_flatten.mpr ⟨group, member, hyphen⟩
    rw [flatten_groups] at inside
    exact hyphen_notMem_hexPadded 32 _ inside
  have split : id.text.toList.splitOn '-' = id.groups := by
    rw [toList_text]
    exact List.splitOn_intercalate '-' plain (by simp [groups])
  have digits : ofDigits? id.groups.flatten = some id := by
    rw [flatten_groups, ofDigits?, length_hexPadded, hexNumber?_hexPadded id.fits]
    simp [ofNat]
  obtain ⟨a, b, c, d, e, same, lengths⟩ := id.exists_groups
  rw [same] at split digits
  simp only [List.flatten_cons, List.flatten_nil, List.append_nil] at digits
  unfold ofGroups?
  rw [split]
  simp [lengths, digits]

/-- An identifier is read back from its text. -/
theorem parse?_text (id : Uuid) : parse? id.text = some id := by
  have length : id.text.toList.length = 36 := by
    obtain ⟨a, b, c, d, e, same, lengths⟩ := id.exists_groups
    rw [toList_text, same]
    simp [List.intercalate, lengths]
  rw [parse?, length]
  simp only [Nat.reduceBEq, Bool.false_eq_true, if_false, if_true]
  exact id.ofGroups?_text

theorem text_injective {a b : Uuid} (same : a.text = b.text) : a = b := by
  have read := a.parse?_text
  rw [same, parse?_text, Option.some.injEq] at read
  exact read.symm

/-- A smaller identifier has a smaller text. -/
theorem before_of_lt {a b : Uuid} (less : a.bits < b.bits) : Text.before a.text b.text := by
  have digits : codes a.groups.flatten < codes b.groups.flatten := by
    rw [flatten_groups, flatten_groups]
    exact codes_hexPadded_lt less b.fits
  have lengths : List.Forall₂ (fun one two => one.length = two.length) (a.groups.map codes)
      (b.groups.map codes) := by
    simp [groups, codes]
  have joined (id : Uuid)
      : codes id.text.toList = (codes ['-']).intercalate (id.groups.map codes) := by
    rw [toList_text]
    simp [codes, List.intercalate, groups]
  have flat (id : Uuid) : (id.groups.map codes).flatten = codes id.groups.flatten :=
    List.map_flatten.symm
  have less' : codes a.text.toList < codes b.text.toList := by
    rw [joined, joined]
    refine intercalate_lt_of_flatten_lt lengths ?_
    rw [flat, flat]
    exact digits
  exact decide_eq_true less'

/-- Texts of identifiers are ordered as the identifiers. -/
theorem before_text (a b : Uuid) : Text.before a.text b.text = decide (a.bits < b.bits) := by
  rcases Nat.lt_trichotomy a.bits.toNat b.bits.toNat with less | same | more
  · rw [before_of_lt less]
    exact (decide_eq_true less).symm
  · have equal : a = b := congrArg Uuid.mk (BitVec.eq_of_toNat_eq same)
    subst equal
    simp [Text.before]
  · have behind : codes b.text.toList < codes a.text.toList :=
      of_decide_eq_true (before_of_lt more)
    have notBefore : Text.before a.text b.text = false :=
      decide_eq_false (List.lt_asymm behind)
    rw [notBefore]
    exact (decide_eq_false (Nat.lt_asymm more)).symm

/-- So they are sorted as the identifiers. -/
theorem not_before_text (a b : Uuid)
    : (!Text.before b.text a.text) = decide (a.bits ≤ b.bits) := by
  rw [before_text, ← decide_not]
  exact decide_eq_decide.mpr Nat.not_lt

end Uuid

end Harvest
