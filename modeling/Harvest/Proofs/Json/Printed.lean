import Harvest.Json.Reader
import Harvest.Proofs.Json.Numerals

/-! What the compact form of a value says when it is read. The words of the text are those of
the value, and put together they are a draft of it, up to the reading of its real numbers.
-/

namespace Harvest.Json

-----------------------------------------------------------------------------------------
-- Strings
-----------------------------------------------------------------------------------------

/-- The piece of a string names a character. -/
def Piece.Names (piece : Piece) (c : Char) : Prop :=
  piece = .char c ∨ piece = .bits c.toNat ∧ c.toNat < 0x20

/-- Pieces that name characters are joined to them, by induction over the pieces. -/
theorem join_names {ending : StringEnd} {pieces : List Piece} {cs : List Char}
    (names : List.Forall₂ Piece.Names pieces cs)
    : Piece.join ending pieces = .ok cs := by
  induction names with
  | nil => rfl
  | @cons piece c pieces cs here _ ih =>
      rcases here with rfl | ⟨rfl, small⟩
      · rw [Piece.join, ih]
        rfl
      · have low : ¬ (0xDC00 ≤ c.toNat && c.toNat ≤ 0xDFFF) := by
          simp only [Bool.and_eq_true, decide_eq_true_eq]
          omega
        have plain : (c.toNat < 0xD800 || 0xDBFF < c.toNat) := by
          simp only [Bool.or_eq_true, decide_eq_true_eq]
          omega
        unfold Piece.join
        rw [if_neg low, if_pos plain, ih, Char.ofNat_toNat]
        rfl

/-- A written character is scanned as a piece that names it. -/
theorem scan_escaped (c : Char) (pieces : List Piece) (rest : List Char)
    : ∃ piece : Piece,
        piece.Names c
        ∧ scan (.string pieces) (escaped c ++ rest) = scan (.string (piece :: pieces)) rest := by
  unfold escaped
  split_ifs with quote slash back feed line home tab control
  · exact ⟨.char c, Or.inl rfl, by rw [beq_iff_eq.mp quote]; rfl⟩
  · exact ⟨.char c, Or.inl rfl, by rw [beq_iff_eq.mp slash]; rfl⟩
  · exact ⟨.char c, Or.inl rfl, by rw [beq_iff_eq.mp back]; rfl⟩
  · exact ⟨.char c, Or.inl rfl, by rw [beq_iff_eq.mp feed]; rfl⟩
  · exact ⟨.char c, Or.inl rfl, by rw [beq_iff_eq.mp line]; rfl⟩
  · exact ⟨.char c, Or.inl rfl, by rw [beq_iff_eq.mp home]; rfl⟩
  · exact ⟨.char c, Or.inl rfl, by rw [beq_iff_eq.mp tab]; rfl⟩
  · refine ⟨.bits c.toNat, Or.inr ⟨rfl, control⟩, ?_⟩
    generalize c.toNat = n at control
    interval_cases n <;> rfl
  · refine ⟨.char c, Or.inl rfl, ?_⟩
    simp [scan, Scan.step, quote, slash, control]

/-- The characters of a written string are scanned as pieces that name them, by induction over
the characters.
-/
theorem scan_characters (cs : List Char) (pieces : List Piece) (rest : List Char)
    : ∃ more : List Piece,
        List.Forall₂ Piece.Names more cs
        ∧ scan (.string pieces) (cs.flatMap escaped ++ rest)
          = scan (.string (more.reverse ++ pieces)) rest := by
  induction cs generalizing pieces with
  | nil => exact ⟨[], .nil, rfl⟩
  | cons c cs ih =>
      obtain ⟨piece, names, here⟩ := scan_escaped c pieces (cs.flatMap escaped ++ rest)
      obtain ⟨more, others, there⟩ := ih (piece :: pieces)
      refine ⟨piece :: more, .cons names others, ?_⟩
      rw [List.flatMap_cons, List.append_assoc, here, there]
      simp

/-- A written string is scanned as one word. -/
theorem scan_stringText (s : String) (rest : List Char)
    : scan .between (stringText s ++ rest) = .string (.ok s) :: scan .between rest := by
  have start : scan .between (stringText s ++ rest)
      = scan (.string []) (s.toList.flatMap escaped ++ '"' :: rest) := by
    simp only [stringText, List.cons_append, List.append_assoc]
    rfl
  obtain ⟨pieces, names, body⟩ := scan_characters s.toList [] ('"' :: rest)
  have token : stringToken (pieces.reverse ++ []) .closed = .string (.ok s) := by
    rw [stringToken, List.append_nil, List.reverse_reverse, join_names names]
    simp [Except.map]
  rw [start, body]
  change [stringToken (pieces.reverse ++ []) .closed] ++ scan .between rest = _
  rw [token]
  rfl

-----------------------------------------------------------------------------------------
-- Values
-----------------------------------------------------------------------------------------

mutual

/-- The value as its text reads back: each number is the one that its own text reads as. -/
def reread : Json → Json
  | .number n => .number n.reread
  | .array items => .array (rereadItems items)
  | .object members => .object (rereadMembers members)
  | other => other

/-- The items as their texts read back. -/
def rereadItems : List Json → List Json
  | [] => []
  | item :: items => reread item :: rereadItems items

/-- The members as their texts read back. -/
def rereadMembers : List (String × Json) → List (String × Json)
  | [] => []
  | (name, value) :: members => (name, reread value) :: rereadMembers members

end

mutual

/-- Values that a text can hold: their numbers are proper, and no object has a name twice. -/
def Proper : Json → Prop
  | .number n => n.Proper
  | .array items => ProperItems items
  | .object members => (members.map (·.1)).Nodup ∧ ProperMembers members
  | _ => True

/-- Items that a text can hold. -/
def ProperItems : List Json → Prop
  | [] => True
  | item :: items => Proper item ∧ ProperItems items

/-- Members whose values a text can hold. -/
def ProperMembers : List (String × Json) → Prop
  | [] => True
  | (_, value) :: members => Proper value ∧ ProperMembers members

end

/-- A place where a value may start. -/
def Place.TakesValue (place : Place) : Prop :=
  place = .value ∨ place = .firstItem ∨ place = .nextItem

/-- A word that does not end a list is taken where a value may start. -/
theorem next_eq_takeValue {place : Place} (takes : place.TakesValue) (token : Token)
    (other : token ≠ .closeList) (stack : List Frame)
    : Reading.next (.going stack place) token = .takeValue stack token := by
  rcases takes with rfl | rfl | rfl
  · rfl
  all_goals cases token <;> first | rfl | exact absurd rfl other

/-- What follows an item closes it. -/
theorem closes_compactItems (items : List Json) (rest : List Char)
    : Closes (compactItems items ++ rest) := by
  cases items <;> simp [compactItems, Closes]

/-- What follows a member closes it. -/
theorem closes_compactMembers (members : List (String × Json)) (rest : List Char)
    : Closes (compactMembers members ++ rest) := by
  cases members <;> simp [compactMembers, Closes]

/-- The words of a text, put together behind what was read before. -/
def readOn (reading : Reading) (cs : List Char) : Reading :=
  (scan .between cs).foldl Reading.next reading

mutual

/-- A value that is read where one may start is attached there. -/
theorem readOn_value : (value : Json) → value.Proper → {rest : List Char} → Closes rest
    → {place : Place} → place.TakesValue → (stack : List Frame)
    → readOn (.going stack place) (compactChars value ++ rest)
      = readOn (.attach value.reread.toDraft stack) rest
  | .null, _, rest, _, place, takes, stack => by
      change ([Token.null] ++ scan .between rest).foldl Reading.next _ = _
      rw [List.foldl_append, List.foldl_cons, next_eq_takeValue takes .null nofun]
      rfl
  | .bool b, _, rest, _, place, takes, stack => by
      have word : scan .between (compactChars (.bool b) ++ rest)
          = .bool b :: scan .between rest := by
        cases b <;> rfl
      rw [readOn, word, List.foldl_cons, next_eq_takeValue takes (.bool b) nofun]
      rfl
  | .number n, proper, rest, closes, place, takes, stack => by
      rw [readOn, compactChars, Number.scan_text proper closes, List.foldl_cons,
        next_eq_takeValue takes (.number _) nofun]
      rfl
  | .string s, _, rest, _, place, takes, stack => by
      rw [readOn, compactChars, scan_stringText, List.foldl_cons,
        next_eq_takeValue takes (.string _) nofun]
      rfl
  | .array [], _, rest, _, place, takes, stack => by
      change (([.openList, .closeList] : List Token) ++ scan .between rest).foldl Reading.next _ = _
      rw [List.foldl_append, List.foldl_cons, next_eq_takeValue takes .openList nofun]
      rfl
  | .array (item :: items), proper, rest, _, place, takes, stack => by
      obtain ⟨first, others⟩ := proper
      have start : readOn (.going stack place) (compactChars (.array (item :: items)) ++ rest)
          = readOn (.going (.list [] :: stack) .firstItem)
              (compactChars item ++ (compactItems items ++ rest)) := by
        rw [compactChars, ← List.append_assoc]
        change ([Token.openList] ++ scan .between _).foldl Reading.next _ = _
        rw [List.foldl_append, List.foldl_cons, next_eq_takeValue takes .openList nofun]
        rfl
      rw [start, readOn_value item first (closes_compactItems items rest) (Or.inr (Or.inl rfl))]
      exact readOn_items items others [item.reread.toDraft] stack
  | .object [], _, rest, _, place, takes, stack => by
      change (([.openRecord, .closeRecord] : List Token) ++ scan .between rest).foldl
        Reading.next _ = _
      rw [List.foldl_append, List.foldl_cons, next_eq_takeValue takes .openRecord nofun]
      rfl
  | .object ((name, value) :: members), proper, rest, _, place, takes, stack => by
      obtain ⟨_, first, others⟩ := proper
      have start : readOn (.going stack place)
            (compactChars (.object ((name, value) :: members)) ++ rest)
          = readOn (.going (.member [] (.ok name) :: stack) .value)
              (compactChars value ++ (compactMembers members ++ rest)) := by
        have words : scan .between (compactChars (.object ((name, value) :: members)) ++ rest)
            = .openRecord :: .string (.ok name) :: .colon
              :: scan .between (compactChars value ++ (compactMembers members ++ rest)) := by
          have string := scan_stringText name
            (':' :: (compactChars value ++ (compactMembers members ++ rest)))
          simp only [compactChars, List.cons_append, List.append_assoc]
          change .openRecord :: scan .between _ = _
          rw [string]
          rfl
        rw [readOn, words, List.foldl_cons, next_eq_takeValue takes .openRecord nofun]
        rfl
      rw [start, readOn_value value first (closes_compactMembers members rest) (Or.inl rfl)]
      exact readOn_members members others [(.ok name, value.reread.toDraft)] stack

/-- Items that are read behind others are put behind them. -/
theorem readOn_items : (items : List Json) → ProperItems items → {rest : List Char}
    → (before : List Draft) → (stack : List Frame)
    → readOn (.going (.list before :: stack) .afterItem) (compactItems items ++ rest)
      = readOn (.attach (.array (before.reverse ++ toDrafts (rereadItems items)) none) stack) rest
  | [], _, rest, before, stack => by
      change ([Token.closeList] ++ scan .between rest).foldl Reading.next _ = _
      rw [rereadItems, toDrafts, List.append_nil]
      rfl
  | item :: items, proper, rest, before, stack => by
      obtain ⟨first, others⟩ := proper
      have start : readOn (.going (.list before :: stack) .afterItem)
            (compactItems (item :: items) ++ rest)
          = readOn (.going (.list before :: stack) .nextItem)
              (compactChars item ++ (compactItems items ++ rest)) := by
        rw [compactItems, ← List.append_assoc]
        rfl
      rw [start, readOn_value item first (closes_compactItems items rest) (Or.inr (Or.inr rfl))]
      change readOn (.going (.list (item.reread.toDraft :: before) :: stack) .afterItem) _ = _
      rw [readOn_items items others (item.reread.toDraft :: before) stack]
      simp [rereadItems, toDrafts]

/-- Members that are read behind others are put behind them. -/
theorem readOn_members : (members : List (String × Json)) → ProperMembers members
    → {rest : List Char} → (before : List (Except SyntaxError String × Draft))
    → (stack : List Frame)
    → readOn (.going (.record before :: stack) .afterMember) (compactMembers members ++ rest)
      = readOn
          (.attach (.object (before.reverse ++ toDraftMembers (rereadMembers members)) none) stack)
          rest
  | [], _, rest, before, stack => by
      change ([Token.closeRecord] ++ scan .between rest).foldl Reading.next _ = _
      rw [rereadMembers, toDraftMembers, List.append_nil]
      rfl
  | (name, value) :: members, proper, rest, before, stack => by
      obtain ⟨first, others⟩ := proper
      have start : readOn (.going (.record before :: stack) .afterMember)
            (compactMembers ((name, value) :: members) ++ rest)
          = readOn (.going (.member before (.ok name) :: stack) .value)
              (compactChars value ++ (compactMembers members ++ rest)) := by
        have words : scan .between (compactMembers ((name, value) :: members) ++ rest)
            = .comma :: .string (.ok name) :: .colon
              :: scan .between (compactChars value ++ (compactMembers members ++ rest)) := by
          have string := scan_stringText name
            (':' :: (compactChars value ++ (compactMembers members ++ rest)))
          simp only [compactMembers, List.cons_append, List.append_assoc]
          change .comma :: scan .between _ = _
          rw [string]
          rfl
        rw [readOn, words]
        rfl
      rw [start, readOn_value value first (closes_compactMembers members rest) (Or.inl rfl)]
      change readOn (.going (.record ((.ok name, value.reread.toDraft) :: before) :: stack)
        .afterMember) _ = _
      rw [readOn_members members others ((.ok name, value.reread.toDraft) :: before) stack]
      simp [rereadMembers, toDraftMembers]

end

/-- The compact form of a value says that value, up to the reading of its real numbers. -/
theorem document_compact {value : Json} (proper : value.Proper)
    : document value.compact = ⟨value.reread.toDraft, false⟩ := by
  have read := readOn_value value proper (show Closes [] by simp [Closes]) (Or.inl rfl) []
  rw [List.append_nil] at read
  have words : (tokens value.compact).foldl Reading.next (.going [] .value)
      = .whole value.reread.toDraft := by
    rw [tokens, compact, String.toList_ofList]
    exact read
  rw [document, words]
  rfl

end Harvest.Json
