import Harvest.Proofs.Json.Proper

/-! What the indented form of a value says when it is read. Blanks between the words of a text do
not count, so that the indented form has the words of the compact form and is read as the same
value.
-/

namespace Harvest.Json

/-- The break and the blanks before a line say nothing. -/
theorem scan_lineAt (level : Nat) (rest : List Char)
    : scan .between (lineAt level ++ rest) = scan .between rest := by
  change scan .between (List.replicate (2 * level) ' ' ++ rest) = scan .between rest
  induction 2 * level with
  | zero => rfl
  | succ blanks ih =>
      rw [List.replicate_succ]
      exact ih

/-- A member has the same words in both forms when its value and what follows it do. -/
theorem scan_member (name : String) {value value' : List Char}
    (same : scan .between value = scan .between value')
    : scan .between (stringText name ++ ':' :: ' ' :: value)
      = scan .between (stringText name ++ ':' :: value') := by
  rw [scan_stringText, scan_stringText]
  change _ :: Token.colon :: scan .between value = _ :: Token.colon :: scan .between value'
  rw [same]

/-- What follows an item in indented form closes it. -/
theorem closes_indentedItems (level : Nat) (items : List Json) (rest : List Char)
    : Closes (indentedItems level items ++ rest) := by
  cases items <;> simp [indentedItems, lineAt, Closes]

/-- What follows a member in indented form closes it. -/
theorem closes_indentedMembers (level : Nat) (members : List (String × Json)) (rest : List Char)
    : Closes (indentedMembers level members ++ rest) := by
  cases members <;> simp [indentedMembers, lineAt, Closes]

mutual

/-- A value has the same words in both forms, whatever follows it. -/
theorem scan_indentedChars : (value : Json) → value.Proper → (level : Nat)
    → {rest next : List Char} → Closes rest → Closes next
    → scan .between rest = scan .between next
    → scan .between (indentedChars level value ++ rest)
      = scan .between (compactChars value ++ next)
  | .null, _, _, rest, next, _, _, same => by
      change Token.null :: scan .between rest = Token.null :: scan .between next
      rw [same]
  | .bool b, _, _, rest, next, _, _, same => by
      cases b <;> exact congrArg (_ :: ·) same
  | .number n, proper, _, rest, next, closes, closes', same => by
      rw [indentedChars, compactChars, Number.scan_text proper closes,
        Number.scan_text proper closes', same]
  | .string s, _, _, rest, next, _, _, same => by
      rw [indentedChars, compactChars, scan_stringText, scan_stringText, same]
  | .array [], _, _, rest, next, _, _, same => by
      change Token.openList :: .closeList :: scan .between rest = _ :: _ :: scan .between next
      rw [same]
  | .array (item :: items), proper, level, rest, next, _, _, same => by
      obtain ⟨first, others⟩ := proper
      have inner := scan_indentedChars item first (level + 1)
        (closes_indentedItems level items rest) (closes_compactItems items next)
        (scan_indentedItems items others level same)
      simp only [indentedChars, compactChars, List.cons_append, List.append_assoc]
      change Token.openList :: scan .between _ = Token.openList :: scan .between _
      rw [scan_lineAt, inner]
  | .object [], _, _, rest, next, _, _, same => by
      change Token.openRecord :: .closeRecord :: scan .between rest = _ :: _ :: scan .between next
      rw [same]
  | .object ((name, value) :: members), proper, level, rest, next, _, _, same => by
      obtain ⟨_, first, others⟩ := proper
      have inner := scan_indentedChars value first (level + 1)
        (closes_indentedMembers level members rest) (closes_compactMembers members next)
        (scan_indentedMembers members others level same)
      simp only [indentedChars, compactChars, List.cons_append, List.append_assoc, List.nil_append]
      change Token.openRecord :: scan .between _ = Token.openRecord :: scan .between _
      rw [scan_lineAt, scan_member name inner]

/-- Further items have the same words in both forms. -/
theorem scan_indentedItems : (items : List Json) → ProperItems items → (level : Nat)
    → {rest next : List Char} → scan .between rest = scan .between next
    → scan .between (indentedItems level items ++ rest)
      = scan .between (compactItems items ++ next)
  | [], _, level, rest, next, same => by
      rw [indentedItems, List.append_assoc, scan_lineAt]
      exact congrArg (.closeList :: ·) same
  | item :: items, proper, level, rest, next, same => by
      obtain ⟨first, others⟩ := proper
      have inner := scan_indentedChars item first (level + 1)
        (closes_indentedItems level items rest) (closes_compactItems items next)
        (scan_indentedItems items others level same)
      simp only [indentedItems, compactItems, List.cons_append, List.append_assoc]
      change Token.comma :: scan .between _ = Token.comma :: scan .between _
      rw [scan_lineAt, inner]

/-- Further members have the same words in both forms. -/
theorem scan_indentedMembers : (members : List (String × Json)) → ProperMembers members
    → (level : Nat) → {rest next : List Char} → scan .between rest = scan .between next
    → scan .between (indentedMembers level members ++ rest)
      = scan .between (compactMembers members ++ next)
  | [], _, level, rest, next, same => by
      rw [indentedMembers, List.append_assoc, scan_lineAt]
      exact congrArg (.closeRecord :: ·) same
  | (name, value) :: members, proper, level, rest, next, same => by
      obtain ⟨first, others⟩ := proper
      have inner := scan_indentedChars value first (level + 1)
        (closes_indentedMembers level members rest) (closes_compactMembers members next)
        (scan_indentedMembers members others level same)
      simp only [indentedMembers, compactMembers, List.cons_append, List.append_assoc,
        List.nil_append]
      change Token.comma :: scan .between _ = Token.comma :: scan .between _
      rw [scan_lineAt, scan_member name inner]

end

/-- Both forms of a value have the same words. -/
theorem tokens_indented {value : Json} (proper : value.Proper)
    : tokens value.indented = tokens value.compact := by
  have nothing : Closes [] := by simp [Closes]
  have words := scan_indentedChars value proper 0 nothing nothing rfl
  simpa only [tokens, indented, compact, String.toList_ofList, List.append_nil] using words

/-- A proper value comes back from its indented form, up to the reading of its real numbers. -/
theorem parse_indented {value : Json} (proper : value.Proper) (shallow : value.depth ≤ depthLimit)
    : parse value.indented = .ok value.reread := by
  rw [← parse_compact proper shallow, parse, parse, document, document, tokens_indented proper]

end Harvest.Json
