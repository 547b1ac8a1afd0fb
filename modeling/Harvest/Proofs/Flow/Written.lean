import Harvest.Proofs.Flow.Snapshot

/-! Graphs in writing. A graph that was read from a text comes back from its own text, up to the
reading of the real numbers in what the editor keeps.
-/

namespace Harvest

open Json

-----------------------------------------------------------------------------------------
-- Parts of a graph
-----------------------------------------------------------------------------------------

/-- A list of values that are read back is read back. -/
theorem Json.Decoder.list_toDraft {α : Type} {decode : Decoder α} {write : α → Json} {mode : Mode}
    (space : mode.room ≠ 0) {values : List α}
    (read : ∀ value ∈ values, decode mode.inner (write value).toDraft = .ok value)
    : Decoder.list decode mode (.array (toDrafts (values.map write)) none) = .ok values := by
  have items : (toDrafts (values.map write)).mapM (decode mode.inner) = .ok values := by
    induction values with
    | nil => rfl
    | cons value values ih =>
        obtain ⟨here, later⟩ := List.forall_mem_cons.mp read
        rw [List.map_cons, toDrafts, List.mapM_cons, here, ih later]
        rfl
  simp only [list, opens, beq_false_of_ne space, items]
  rfl

/-- A list of values reads back value by value, by induction over the list. -/
theorem Json.rereadItems_map {α : Type} (write : α → Json) (back : α → α)
    (each : ∀ value, (write value).reread = write (back value)) (values : List α)
    : rereadItems (values.map write) = (values.map back).map write := by
  induction values with
  | nil => rfl
  | cons value values ih => rw [List.map_cons, rereadItems, each, ih, List.map_cons, List.map_cons]

/-- A value other than `null` is read back where it may be absent. -/
theorem Json.Decoder.option_toDraft {mode : Mode} {value : Json} (fits : value.Fits mode.room)
    (some' : value ≠ .null)
    : Decoder.option .any mode value.toDraft = .ok (some value) := by
  have read := any_toDraft fits
  cases value with
  | null => exact absurd rfl some'
  | _ =>
      rw [toDraft] at read ⊢
      simp only [option, read]
      rfl

/-- An edge is read back from its draft. -/
theorem Edge.decode_toDraft {mode : Mode} (space : mode.room ≠ 0) (edge : Edge)
    : decode mode edge.toJson.toDraft = .ok edge := by
  obtain ⟨source, sourceHandle, target, targetHandle⟩ := edge
  change (Decoder.opens mode >>= fun _ => _) = _
  rw [Decoder.opens, beq_false_of_ne space]
  rfl

-----------------------------------------------------------------------------------------
-- Graphs
-----------------------------------------------------------------------------------------

namespace Flow

/-- The graph that the text of a graph is read as. -/
def reread (flow : Flow) : Flow where
  nodes := flow.nodes.map Node.reread
  edges := flow.edges
  viewport := flow.viewport.map Json.reread

/-- What a graph that fits reads back as fits. -/
theorem Fits.reread {room : Nat} {flow : Flow} (fits : flow.Fits room)
    : flow.reread.Fits room := by
  constructor
  · intro node member
    obtain ⟨other, there, rfl⟩ := List.mem_map.mp member
    exact (fits.nodes other there).reread
  · intro view member
    obtain ⟨other, there, rfl⟩ := Option.map_eq_some_iff.mp member
    obtain ⟨fit, some⟩ := fits.viewport other there
    refine ⟨fit.reread, ?_⟩
    cases other <;> simp_all [Json.reread]

/-- The value of a graph reads back as the value of what the graph reads back as. -/
theorem reread_toJson (flow : Flow) : flow.toJson.reread = flow.reread.toJson := by
  have nodes := rereadItems_map Node.toJson Node.reread (fun _ => rfl) flow.nodes
  have edges := rereadItems_map Edge.toJson id (fun _ => rfl) flow.edges
  rw [List.map_id] at edges
  obtain ⟨ns, es, viewport⟩ := flow
  cases viewport with
  | none => simp [toJson, reread, Json.reread, rereadMembers, nodes, edges]
  | some view => simp [toJson, reread, Json.reread, rereadMembers, nodes, edges]

/-- A graph that fits can stand in a text. -/
theorem proper_toJson {room : Nat} {flow : Flow} (fits : flow.Fits room) : flow.toJson.Proper := by
  have nodes : (Json.array (flow.nodes.map Node.toJson)).Proper := by
    refine properItems_iff.mpr fun item member => ?_
    obtain ⟨node, here, rfl⟩ := List.mem_map.mp member
    exact Node.proper_toJson (fits.nodes node here)
  have edges : (Json.array (flow.edges.map Edge.toJson)).Proper := by
    refine properItems_iff.mpr fun item member => ?_
    obtain ⟨edge, here, rfl⟩ := List.mem_map.mp member
    simp [Edge.toJson, Json.Proper, ProperMembers]
  obtain ⟨ns, es, viewport⟩ := flow
  cases viewport with
  | none => exact ⟨by simp, nodes, edges, trivial⟩
  | some view => exact ⟨by simp, nodes, edges, (fits.viewport view rfl).1.1, trivial⟩

/-- A graph that fits is read back from its draft. -/
theorem decode_toDraft {mode : Mode} {flow : Flow} (room : 5 ≤ mode.room)
    (fits : flow.Fits mode.room)
    : decode mode flow.toJson.toDraft = .ok flow := by
  have inner : mode.inner.room ≠ 0 := by
    change mode.room - 1 ≠ 0
    omega
  have nodes : Decoder.list Node.decode mode.inner
      (.array (toDrafts (flow.nodes.map Node.toJson)) none) = .ok flow.nodes :=
    Decoder.list_toDraft inner fun node member =>
      Node.decode_toDraft (by change 3 ≤ mode.room - 1 - 1; omega) (fits.nodes node member)
  have edges : Decoder.list Edge.decode mode.inner
      (.array (toDrafts (flow.edges.map Edge.toJson)) none) = .ok flow.edges :=
    Decoder.list_toDraft inner fun edge _ =>
      Edge.decode_toDraft (by change mode.room - 1 - 1 ≠ 0; omega) edge
  obtain ⟨ns, es, viewport⟩ := flow
  let own : List (String × Draft) :=
    [("nodes", .array (toDrafts (ns.map Node.toJson)) none),
      ("edges", .array (toDrafts (es.map Edge.toJson)) none)]
  have accepted : ∀ field ∈ own, shape.Accepts mode.inner field :=
    List.forall_mem_cons.mpr ⟨Shape.accepts_of_read rfl nodes,
      List.forall_mem_singleton.mpr (Shape.accepts_of_read rfl edges)⟩
  -- the nodes and edges are read alike, whatever is said of the viewport
  have made {more : List (String × Draft)} {view : Option Json}
      (read : (Shape.defaulted "viewport" (.option .any) none).fromMembers mode.inner
        (own ++ more) = .ok view)
      : shape.fromMembers mode.inner (own ++ more) = .ok ⟨ns, es, view⟩ := by
    simp only [shape, Functor.map, Seq.seq, Shape.apply, read]
    simp [own, Shape.empty, Shape.required, Shape.defaulted, Shape.field, Named.get?, nodes, edges,
      bind, Except.bind, pure, Except.pure]
  cases viewport with
  | none => exact (Shape.decode_fields (by omega) accepted (by simp [own])).trans (made rfl)
  | some view =>
      obtain ⟨fit, some'⟩ := fits.viewport view rfl
      have kept : Decoder.option .any mode.inner view.toDraft = .ok (some view) :=
        Decoder.option_toDraft fit some'
      have accepted' : ∀ field ∈ own ++ [("viewport", view.toDraft)],
          shape.Accepts mode.inner field :=
        List.forall_mem_append.mpr
          ⟨accepted, List.forall_mem_singleton.mpr (Shape.accepts_of_read rfl kept)⟩
      exact (Shape.decode_fields (by omega) accepted' (by simp [own])).trans (made kept)

/-- A graph that was read from a text comes back from its own text, up to the reading of the real
numbers in what the editor keeps.
-/
theorem parse_own_text {flow : Flow} (fits : flow.Fits depthLimit)
    : parse flow.text = .ok flow.reread := by
  rw [parse_text (proper_toJson fits), reread_toJson, decode_toDraft (by decide) fits.reread]

/-- The real numbers in what the editor keeps about the graph come back from their own texts. -/
structure Exact (flow : Flow) : Prop where
  nodes : ∀ node ∈ flow.nodes, node.Exact
  viewport : ∀ view ∈ flow.viewport, ∀ x ∈ view.reals, (Number.real x).Exact

/-- A graph without inexact numbers reads back as itself. -/
theorem reread_of_exact {flow : Flow} (exact' : flow.Exact) : flow.reread = flow := by
  have nodes : flow.nodes.map Node.reread = flow.nodes :=
    (List.map_congr_left fun node member => Node.reread_of_exact (exact'.nodes node member)).trans
      (List.map_id _)
  have viewport : flow.viewport.map Json.reread = flow.viewport :=
    (Option.map_congr fun view member =>
      Json.reread_of_exact view (exact'.viewport view member)).trans Option.map_id'
  rw [reread, nodes, viewport]

end Flow

end Harvest
