/-! Named values in the order in which their names first came. A name that comes again replaces
the value in place.
-/

namespace Harvest.Named

/-- A list of named values with one of them set: in place when the name is there, else at the
end.
-/
def put {α : Type} (name : String) (value : α) : List (String × α) → List (String × α)
  | [] => [(name, value)]
  | (key, old) :: rest =>
      if key == name then (key, value) :: rest else (key, old) :: put name value rest

/-- The value of a name, if the list has it. -/
def get? {α : Type} (name : String) : List (String × α) → Option α
  | [] => none
  | (key, value) :: rest => if key == name then some value else get? name rest

/-- Pairs in order of arrival brought to one value a name. -/
def collect {α : Type} (pairs : List (String × α)) : List (String × α) :=
  pairs.foldl (fun acc (name, value) => put name value acc) []

end Harvest.Named
