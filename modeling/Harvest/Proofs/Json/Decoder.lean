import Harvest.Proofs.Json.Values

/-! What decoders yield. A decoder that reads proper drafts with room for some levels yields
values of which something holds; the parts of a structure are looked at one by one.
-/

namespace Harvest.Json

variable {α β : Type} {room : Nat} {holds : α → Prop} {wanted : β → Prop}

/-- What a decoder yields from a proper draft, with room for some levels at most. -/
def Decoder.Yields (room : Nat) (holds : α → Prop) (decode : Decoder α) : Prop :=
  ∀ ⦃mode : Mode⦄ ⦃draft : Draft⦄ ⦃value : α⦄,
    draft.Proper → mode.room ≤ room → decode mode draft = .ok value → holds value

/-- What the fields of a structure yield from proper members, or from proper items of which they
leave some.
-/
structure Shape.Yields (room : Nat) (holds : α → Prop) (shape : Shape α) : Prop where
  members
    : ∀ {mode : Mode} {members : List (String × Draft)} {value : α},
        (∀ member ∈ members, member.2.Proper)
        → mode.room ≤ room
        → shape.fromMembers mode members = .ok value
        → holds value
  items
    : ∀ {mode : Mode} {short : Nat → DecodeError} {index : Nat} {items rest : List Draft}
        {value : α},
        (∀ item ∈ items, item.Proper)
        → mode.room ≤ room
        → shape.fromItems mode short index items = .ok (value, rest)
        → holds value ∧ ∀ item ∈ rest, item.Proper

-----------------------------------------------------------------------------------------
-- Decoders
-----------------------------------------------------------------------------------------

namespace Decoder

/-- A mismatch yields nothing. -/
theorem mismatch_ne_ok {expected : String} {draft : Draft} {value : α}
    : (mismatch expected draft : Decoded α) ≠ .ok value := by
  intro read
  obtain ⟨found, _, refused⟩ := bind_eq_ok.mp read
  cases refused

/-- Any value that is read fits. -/
theorem yields_any : Decoder.any.Yields room (Fits room) := by
  intro mode draft value proper le read
  cases found : draft.value mode.room with
  | error reason => simp [any, sound, found, Except.mapError] at read
  | ok other =>
      simp only [any, sound, found, Except.mapError, Except.ok.injEq] at read
      exact read ▸ (fits_value draft proper found).mono le

/-- A list is read item by item, one level further in. -/
theorem yields_list {decode : Decoder α} (yields : decode.Yields (room - 1) holds)
    : (Decoder.list decode).Yields room fun values => ∀ value ∈ values, holds value := by
  intro mode draft values proper le read
  cases draft with
  | array items closing =>
      obtain ⟨_, _, read⟩ := bind_eq_ok.mp read
      obtain ⟨others, inner, read⟩ := bind_eq_ok.mp read
      obtain ⟨_, _, read⟩ := bind_eq_ok.mp read
      cases read
      have proper' := Draft.properItems_iff.mp proper
      have le' : mode.inner.room ≤ room - 1 := Nat.sub_le_sub_right le 1
      intro value member
      obtain ⟨item, here, decoded⟩ := exists_of_mapM inner member
      exact yields (proper' item here) le' decoded
  | _ => exact absurd read mismatch_ne_ok

/-- The members of a record are read one level further in, and no name stands twice. -/
theorem yields_record {decode : Decoder α} (yields : decode.Yields (room - 1) holds)
    : (Decoder.record decode).Yields room fun values =>
        (values.map (·.1)).Nodup ∧ ∀ value ∈ values, holds value.2 := by
  intro mode draft values proper le read
  cases draft with
  | object members closing =>
      obtain ⟨_, _, read⟩ := bind_eq_ok.mp read
      obtain ⟨pairs, inner, read⟩ := bind_eq_ok.mp read
      obtain ⟨_, _, read⟩ := bind_eq_ok.mp read
      cases read
      have proper' := Draft.properMembers_iff.mp proper
      have le' : mode.inner.room ≤ room - 1 := Nat.sub_le_sub_right le 1
      refine ⟨Named.nodup_collect pairs, fun pair member => ?_⟩
      obtain ⟨⟨key, item⟩, here, decoded⟩ :=
        exists_of_mapM inner (Named.mem_of_mem_collect member)
      obtain ⟨name, _, decoded⟩ := bind_eq_ok.mp decoded
      obtain ⟨value, found, decoded⟩ := bind_eq_ok.mp decoded
      cases decoded
      exact yields (proper' _ here) le' found
  | _ => exact absurd read mismatch_ne_ok

/-- A value that fits is read back from its draft. -/
theorem any_toDraft {mode : Mode} {value : Json} (fits : value.Fits mode.room)
    : Decoder.any mode value.toDraft = .ok value := by
  rw [any, value_toDraft value fits.1 fits.2]
  rfl

/-- The names and values of members that fit are read back, by induction over the members. -/
theorem mapM_toDraftMembers {mode : Mode} {members : Members}
    (fit : ∀ member ∈ members, member.2.Fits (mode.room - 1))
    : ((toDraftMembers members).mapM fun (key, item) => do
        let key ← name key
        return (key, ← any mode.inner item))
      = .ok members := by
  induction members with
  | nil => rfl
  | cons member members ih =>
      obtain ⟨key, value⟩ := member
      obtain ⟨first, others⟩ := List.forall_mem_cons.mp fit
      have here : any mode.inner value.toDraft = .ok value := any_toDraft first
      rw [toDraftMembers, List.mapM_cons, ih others]
      simp only [here]
      rfl

/-- Members that fit are read back from their drafts. -/
theorem record_toDraftMembers {mode : Mode} {members : Members} (space : mode.room ≠ 0)
    (fit : members.Fit (mode.room - 1))
    : Decoder.record .any mode (.object (toDraftMembers members) none) = .ok members := by
  simp only [record, opens, beq_false_of_ne space, mapM_toDraftMembers fit.fit]
  change Except.ok (Named.collect members) = _
  rw [Named.collect_eq fit.distinct]

/-- Of what is read nothing need be known. -/
theorem yields_true (decode : Decoder α) : decode.Yields room fun _ => True :=
  fun _ _ _ _ _ _ => trivial

end Decoder

-----------------------------------------------------------------------------------------
-- Structures
-----------------------------------------------------------------------------------------

namespace Shape

/-- A field yields what its decoder does, and otherwise a value of its own. -/
theorem yields_field {name : String} {decode : Decoder α} {absent short : Option α}
    (yields : decode.Yields room holds) (whenAbsent : ∀ value ∈ absent, holds value)
    (whenShort : ∀ value ∈ short, holds value)
    : (field name decode absent short).Yields room holds where
  members {mode members value} proper le read := by
    simp only [field] at read
    cases found : Named.get? name members with
    | some draft =>
        rw [found] at read
        exact yields (proper _ (Named.mem_of_get? found)) le read
    | none =>
        rw [found] at read
        cases absent with
        | none => cases read
        | some other =>
            cases read
            exact whenAbsent _ rfl
  items {mode tooShort index items rest value} proper le read := by
    cases items with
    | cons draft others =>
        obtain ⟨other, here, read⟩ := bind_eq_ok.mp read
        cases read
        obtain ⟨first, later⟩ := List.forall_mem_cons.mp proper
        exact ⟨yields first le here, later⟩
    | nil =>
        cases short with
        | none => cases read
        | some other =>
            cases read
            exact ⟨whenShort _ rfl, proper⟩

/-- A field that must be there yields what its decoder does. -/
theorem yields_required {name : String} {decode : Decoder α} (yields : decode.Yields room holds)
    : (required name decode).Yields room holds :=
  yields_field yields nofun nofun

/-- A field with a value of its own yields that value or what its decoder does. -/
theorem yields_defaulted {name : String} {decode : Decoder α} {value : α}
    (yields : decode.Yields room holds) (own : holds value)
    : (defaulted name decode value).Yields room holds :=
  yields_field yields (by simpa using own) (by simpa using own)

/-- A function and its argument yield what the function makes of the argument. -/
theorem yields_apply {make : Shape (α → β)} {argument : Shape α}
    (first : make.Yields room fun f => ∀ value, holds value → wanted (f value))
    (second : argument.Yields room holds)
    : (make <*> argument).Yields room wanted where
  members proper le read := by
    obtain ⟨f, here, read⟩ := bind_eq_ok.mp read
    obtain ⟨value, there, read⟩ := bind_eq_ok.mp read
    cases read
    exact first.members proper le here value (second.members proper le there)
  items proper le read := by
    obtain ⟨⟨f, left⟩, here, read⟩ := bind_eq_ok.mp read
    obtain ⟨⟨value, others⟩, there, read⟩ := bind_eq_ok.mp read
    cases read
    obtain ⟨fits, proper'⟩ := first.items proper le here
    obtain ⟨fits', proper''⟩ := second.items proper' le there
    exact ⟨fits value fits', proper''⟩

/-- A function of a field yields what it makes of the field. -/
theorem yields_map {f : α → β} {argument : Shape α}
    (first : ∀ value, holds value → wanted (f value)) (second : argument.Yields room holds)
    : (f <$> argument).Yields room wanted := by
  have alone : (pure f : Shape (α → β)).Yields room
      fun f => ∀ value, holds value → wanted (f value) := by
    constructor
    · intro mode members g _ _ read
      cases read
      exact first
    · intro mode short index items rest g proper _ read
      cases read
      exact ⟨first, proper⟩
  exact yields_apply alone second

/-- The members that are kept as fields are members, by induction over the members. -/
theorem mem_of_sift {shape : Shape α} {mode : Mode} {seen : List String}
    {members : List (Except SyntaxError String × Draft)} {fields : List (String × Draft)}
    (kept : shape.sift mode seen members = .ok fields) {field : String × Draft}
    (here : field ∈ fields)
    : ∃ member ∈ members, member.2 = field.2 := by
  induction members generalizing seen fields with
  | nil =>
      cases kept
      cases here
  | cons member members ih =>
      obtain ⟨key, item⟩ := member
      have later {seen : List String} {fields : List (String × Draft)}
          (kept : shape.sift mode seen members = .ok fields) (here : field ∈ fields)
          : ∃ member ∈ (key, item) :: members, member.2 = field.2 := by
        obtain ⟨member, among, same⟩ := ih kept here
        exact ⟨member, List.mem_cons_of_mem _ among, same⟩
      obtain ⟨name, _, kept⟩ := bind_eq_ok.mp kept
      cases found : Named.get? name shape.probes with
      | none =>
          rw [found] at kept
          obtain ⟨_, _, kept⟩ := bind_eq_ok.mp kept
          exact later kept here
      | some probe =>
          rw [found] at kept
          simp only at kept
          split_ifs at kept
          obtain ⟨_, _, kept⟩ := bind_eq_ok.mp kept
          obtain ⟨others, rest, kept⟩ := bind_eq_ok.mp kept
          cases kept
          rcases List.mem_cons.mp here with rfl | there
          · exact ⟨_, List.mem_cons_self, rfl⟩
          · exact later rest there

/-- A structure is read one level further in. -/
theorem yields_decode {title : String} {shape : Shape α} (yields : shape.Yields (room - 1) holds)
    : (shape.decode title).Yields room holds := by
  intro mode draft value proper le read
  have le' : mode.inner.room ≤ room - 1 := Nat.sub_le_sub_right le 1
  cases draft with
  | object members closing =>
      obtain ⟨_, _, read⟩ := bind_eq_ok.mp read
      obtain ⟨fields, kept, read⟩ := bind_eq_ok.mp read
      obtain ⟨_, _, read⟩ := bind_eq_ok.mp read
      refine yields.members (fun field here => ?_) le' read
      obtain ⟨member, among, same⟩ := mem_of_sift kept here
      exact same ▸ Draft.properMembers_iff.mp proper member among
  | array items closing =>
      obtain ⟨_, _, read⟩ := bind_eq_ok.mp read
      obtain ⟨⟨other, rest⟩, here, read⟩ := bind_eq_ok.mp read
      have fits := (yields.items (Draft.properItems_iff.mp proper) le' here).1
      simp only at read
      split at read <;> cases read
      exact fits
  | _ => exact absurd read Decoder.mismatch_ne_ok

/-- The field is one of the structure, and its probe accepts the draft. -/
def Accepts (shape : Shape α) (mode : Mode) (field : String × Draft) : Prop :=
  ∃ probe, Named.get? field.1 shape.probes = some probe ∧ probe mode field.2 = .ok ()

/-- A draft that the decoder of a field reads is accepted. -/
theorem accepts_of_read {shape : Shape α} {mode : Mode} {name : String} {draft : Draft}
    {decode : Decoder β} {value : β}
    (known : Named.get? name shape.probes
      = some fun mode draft => do let _ ← decode mode draft)
    (read : decode mode draft = .ok value)
    : shape.Accepts mode (name, draft) := by
  refine ⟨_, known, ?_⟩
  simp only [read]
  rfl

/-- Fields that are accepted, none of them twice, are kept as they stand, by induction over
the fields.
-/
theorem sift_fields {shape : Shape α} {mode : Mode} {seen : List String}
    {fields : List (String × Draft)} (accepted : ∀ field ∈ fields, shape.Accepts mode field)
    (distinct : (fields.map (·.1)).Nodup) (new : ∀ field ∈ fields, field.1 ∉ seen)
    : shape.sift mode seen (fields.map fun (key, item) => (.ok key, item)) = .ok fields := by
  induction fields generalizing seen with
  | nil => rfl
  | cons field fields ih =>
      obtain ⟨key, item⟩ := field
      obtain ⟨⟨probe, known, accepts⟩, others⟩ := List.forall_mem_cons.mp accepted
      obtain ⟨first, later⟩ := List.forall_mem_cons.mp new
      obtain ⟨once, rest⟩ := List.nodup_cons.mp distinct
      have unseen : seen.contains key = false := by simpa using first
      have kept : sift shape mode (key :: seen) _ = .ok fields :=
        ih others rest fun field member =>
          List.not_mem_cons_of_ne_of_not_mem
            (fun same => once (List.mem_map.mpr ⟨field, member, same⟩)) (later field member)
      simp only [List.map_cons, sift, Decoder.name, sound, Except.mapError, bind, Except.bind,
        known, unseen, accepts, kept]
      rfl

/-- A structure is read from fields that are accepted, none of them twice. -/
theorem decode_fields {title : String} {shape : Shape α} {mode : Mode}
    {fields : List (String × Draft)} (space : mode.room ≠ 0)
    (accepted : ∀ field ∈ fields, shape.Accepts mode.inner field)
    (distinct : (fields.map (·.1)).Nodup)
    : shape.decode title mode (.object (fields.map fun (key, item) => (.ok key, item)) none)
      = shape.fromMembers mode.inner fields := by
  have kept : sift shape mode.inner [] _ = .ok fields :=
    sift_fields accepted distinct fun _ _ => List.not_mem_nil
  simp only [decode, decodeMembers, Decoder.opens, beq_false_of_ne space, kept]
  rfl

/-- A member that does not stand in the way: its name can be read, and it is a field that its probe
accepts or it can be stepped over.
-/
inductive Passes (shape : Shape α) (mode : Mode) : Except SyntaxError String × Draft → Prop where
  | field {name : String} {item : Draft} (accepts : shape.Accepts mode (name, item))
      : Passes shape mode (.ok name, item)
  | other {name : String} {item : Draft} (unknown : Named.get? name shape.probes = none)
      (steps : item.skip = .ok ())
      : Passes shape mode (.ok name, item)

/-- Fields of which no two have a name in common, and none has a name that was seen. -/
structure Fresh (seen : List String) (fields : List (String × Draft)) : Prop where
  distinct : (fields.map (·.1)).Nodup
  new : ∀ field ∈ fields, field.1 ∉ seen

theorem Fresh.nil {seen : List String} : Fresh seen [] :=
  ⟨.nil, nofun⟩

end Shape

/-- What is read from a text is what the decoder yields. -/
theorem yields_decodeText {decode : Decoder α} (yields : decode.Yields depthLimit holds)
    {text : String} {value : α} (read : decodeText decode text = .ok value)
    : holds value := by
  obtain ⟨other, here, read⟩ := bind_eq_ok.mp read
  split at read
  · cases read
  · cases read
    exact yields (proper_document text) (Nat.le_refl _) here

end Harvest.Json
