import Harvest.Proofs.Flow.Written
import Harvest.Proofs.Plan.Likeness

/-! Graphs that are written and read again. The literals of a node may be written in any order;
whatever the order, a graph that was read from a text comes back as it was, and is planned as it
was.
-/

namespace Harvest

open Json

-----------------------------------------------------------------------------------------
-- Nodes
-----------------------------------------------------------------------------------------

namespace Node

/-- The nodes agree, up to the order of their literals. -/
structure Alike (one two : Node) : Prop where
  id : one.id = two.id
  taskType : one.taskType = two.taskType
  inputs : one.inputs.Perm two.inputs
  extra : one.extra = two.extra

/-- A node is like itself. -/
theorem Alike.refl (node : Node) : node.Alike node := ⟨rfl, rfl, .refl _, rfl⟩

variable {one two : Node} {room : Nat}

/-- A node fits when a node fits that is like it. -/
theorem Alike.fits (like : one.Alike two) (fits : one.Fits room) : two.Fits room where
  inputs := {
    distinct := (like.inputs.map _).nodup_iff.mp fits.inputs.distinct
    fit := fun member here => fits.inputs.fit member (like.inputs.mem_iff.mpr here) }
  extra := like.extra ▸ fits.extra
  apart := like.extra ▸ fits.apart

/-- A node has exact numbers when a node has that is like it. -/
theorem Alike.exact (like : one.Alike two) (exact' : one.Exact) : two.Exact := by
  obtain ⟨inputs, extra⟩ := List.forall_mem_append.mp exact'
  refine List.forall_mem_append.mpr ⟨fun x there => ?_, like.extra ▸ extra⟩
  obtain ⟨member, here, occurs⟩ := mem_realsMembers.mp there
  exact inputs x (mem_realsMembers.mpr ⟨member, like.inputs.mem_iff.mpr here, occurs⟩)

/-- Nodes that are alike are the same to a plan. -/
theorem Alike.plansLike (like : one.Alike two) (fits : one.Fits room) : one.PlansLike two where
  id := like.id
  taskType := like.taskType
  literal name := by
    rw [literal?, literal?, Named.get?_perm fits.inputs.distinct like.inputs]

end Node

-----------------------------------------------------------------------------------------
-- Graphs
-----------------------------------------------------------------------------------------

namespace Flow

/-- The graphs agree, up to the order of the literals of each node. -/
structure Alike (one two : Flow) : Prop where
  nodes : List.Forall₂ Node.Alike one.nodes two.nodes
  edges : one.edges = two.edges
  viewport : one.viewport = two.viewport

/-- A graph is like itself. -/
theorem Alike.refl (flow : Flow) : flow.Alike flow :=
  ⟨List.forall₂_same.mpr fun node _ => .refl node, rfl, rfl⟩

variable {flow other : Flow} {room : Nat}

/-- A graph fits when a graph fits that is like it. -/
theorem Alike.fits (like : flow.Alike other) (fits : flow.Fits room) : other.Fits room where
  nodes node' member := by
    obtain ⟨node, here, same⟩ := exists_of_forall₂ like.nodes member
    exact same.fits (fits.nodes node here)
  viewport := like.viewport ▸ fits.viewport

/-- A graph has exact numbers when a graph has that is like it. -/
theorem Alike.exact (like : flow.Alike other) (exact' : flow.Exact) : other.Exact where
  nodes node' member := by
    obtain ⟨node, here, same⟩ := exists_of_forall₂ like.nodes member
    exact same.exact (exact'.nodes node here)
  viewport := like.viewport ▸ exact'.viewport

/-- Graphs that are alike are planned alike, or refused for the same reason. -/
theorem Alike.plan (like : flow.Alike other) (fits : flow.Fits room) (catalog : Catalog)
    : EndsLike (Plan.Like Node.Alike) (flow.plan catalog) (other.plan catalog) := by
  have nodes : List.Forall₂ (fun one two => one.Fits (room - 2) ∧ one.Alike two)
      flow.nodes other.nodes :=
    (List.forall₂_and_left _ _).mpr ⟨fits.nodes, like.nodes⟩
  have planned := plan_like (fun _ _ both => both.2.plansLike both.1) like.edges nodes catalog
  exact planned.mono fun one two same => same.mono fun _ _ both => both.2

/-- A graph that was read from a text comes back from what is written of it, and is planned as it
was, in whatever order the literals of its nodes are written. Its real numbers are to come back
from their own texts.
-/
theorem round_trip {text : String} {flow : Flow} (parsed : parse text = .ok flow)
    (exact' : flow.Exact)
    : parse flow.text = .ok flow
      ∧ ∀ written,
          flow.Alike written
          → parse written.text = .ok written
            ∧ ∀ catalog,
                EndsLike (Plan.Like Node.Alike) (flow.plan catalog) (written.plan catalog) := by
  have fits : flow.Fits depthLimit := yields_decodeText yields_decode parsed
  have back {graph : Flow} (like : flow.Alike graph) : parse graph.text = .ok graph := by
    rw [parse_own_text (like.fits fits), reread_of_exact (like.exact exact')]
  exact ⟨back (.refl flow), fun written like => ⟨back like, like.plan fits⟩⟩

/-- A graph as an editor may have it: structures stand as lists, members come twice or are not
known, and there is no viewport.
-/
def sketch : String :=
  "\x7b\"nodes\":[\x7b\"at\":1,\"id\":\"open\",\"data\":[\"LAUNCH_BROWSER\","
    ++ "\x7b\"Website Url\":\"/a\",\"Depth\":0.5\x7d],\"at\":[2]\x7d,"
    ++ "\x7b\"data\":\x7b\"note\":3,\"type\":\"PAGE_TO_HTML\"\x7d,\"id\":\"read\"\x7d],"
    ++ "\"edges\":[[\"open\",\"Web page\",\"read\",\"Web page\"]],\"viewport\":null\x7d"

/-- The graph that the sketch is read as, with the literals of its first node in some order. -/
def sketched (literals : Members) : Flow where
  nodes :=
    [⟨"open", .launchBrowser, literals, [("at", .array [.nat 2])]⟩, ⟨"read", .pageToHtml, [], []⟩]
  edges := [⟨"open", "Web page", "read", "Web page"⟩]
  viewport := none

/-- The literals of the sketch. -/
def sketchedLiterals : Members :=
  [("Website Url", .string "/a"), ("Depth", .number (.real ⟨false, ⟨2 ^ 52, -53⟩⟩))]

/-- The sketch comes back with its literals either way around. -/
theorem round_trip_sketch
    : parse sketch = .ok (sketched sketchedLiterals)
      ∧ (sketched sketchedLiterals).Exact
      ∧ parse (sketched sketchedLiterals).text = .ok (sketched sketchedLiterals)
      ∧ (sketched sketchedLiterals).Alike (sketched sketchedLiterals.reverse)
      ∧ parse (sketched sketchedLiterals.reverse).text = .ok (sketched sketchedLiterals.reverse)
      ∧ ∀ catalog,
          EndsLike (Plan.Like Node.Alike) ((sketched sketchedLiterals).plan catalog)
            ((sketched sketchedLiterals.reverse).plan catalog) := by
  have parsed : parse sketch = .ok (sketched sketchedLiterals) :=
    eq_ok_of_toOption (by decide +kernel)
  have half : (Number.real ⟨false, ⟨2 ^ 52, -53⟩⟩).Exact := by decide +kernel
  have exact' : (sketched sketchedLiterals).Exact :=
    ⟨List.forall_mem_cons.mpr
      ⟨List.forall_mem_singleton.mpr half, List.forall_mem_singleton.mpr nofun⟩, nofun⟩
  have like : (sketched sketchedLiterals).Alike (sketched sketchedLiterals.reverse) :=
    ⟨.cons ⟨rfl, rfl, (List.reverse_perm _).symm, rfl⟩ (.cons (.refl _) .nil), rfl, rfl⟩
  obtain ⟨back, any⟩ := round_trip parsed exact'
  obtain ⟨back', planned⟩ := any _ like
  exact ⟨parsed, exact', back, like, back', planned⟩

end Flow

end Harvest
