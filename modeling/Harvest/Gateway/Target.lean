import Harvest.Gateway.Basic
import Harvest.Uuid

/-! What a request is aimed at. A path is taken apart at its slashes, a query at its ampersands;
in both, characters may be written as a percent sign and two hexadecimal digits.
-/

namespace Harvest.Gateway

/-- What a request can be aimed at, with identifiers as they are written. -/
inductive Route where
  | health
  | tasks
  | createWorkflow
  | workflow (id : String)
  | executions (workflow : String)
  | plan (workflow : String)
  | run (workflow : String)
  | execution (id : String)
  | stop (execution : String)
  | phase (id : String)
  | events
deriving DecidableEq, Repr

/-- Characters with a percent sign and its two digits read wherever they stand for a byte that may
be read; bytes beyond ASCII come out as characters of their own.
-/
def percentDecodedWhere (mayRead : Char → Bool) : List Char → List Char
  | [] => []
  | [a] => [a]
  | [a, b] => [a, b]
  | a :: b :: c :: cs =>
      match a == '%', Text.hexValue? b, Text.hexValue? c with
      | true, some high, some low =>
          let byte := Char.ofNat (high * 16 + low)
          if mayRead byte then byte :: percentDecodedWhere mayRead cs
          else a :: b :: c :: percentDecodedWhere mayRead cs
      | _, _, _ => a :: percentDecodedWhere mayRead (b :: c :: cs)

/-- Characters with every percent sign and its two digits read. -/
def percentDecoded : List Char → List Char := percentDecodedWhere fun _ => true

/-- A byte that has another meaning in a path when it is written as itself. -/
def isReserved (c : Char) : Bool := c == '%' || c == '/' || c == '+'

/-- The path of a target. -/
def pathOf (target : String) : List Char := target.toList.takeWhile (· != '?')

/-- The query of a target, empty when there is none. -/
def queryOf (target : String) : List Char := (target.toList.dropWhile (· != '?')).drop 1

/-- The parts of a path between its slashes. -/
def segments (target : String) : List String :=
  ((percentDecodedWhere (!isReserved ·) (pathOf target)).splitOn '/').map String.ofList

/-- What a request is aimed at; a path that is not there, or not for the method, is nothing. -/
def Route.of? (method target : String) : Option Route :=
  let named (id : String) (route : String → Route) : Option Route :=
    if id.isEmpty then none else some (route id)
  match method, segments target with
  | "GET", ["", "health"] => some .health
  | "GET", ["", "api", "tasks"] => some .tasks
  | "POST", ["", "api", "workflows"] => some .createWorkflow
  | "GET", ["", "api", "workflows", id] => named id .workflow
  | "GET", ["", "api", "workflows", id, "executions"] => named id .executions
  | "POST", ["", "api", "workflows", id, "plan"] => named id .plan
  | "POST", ["", "api", "workflows", id, "run"] => named id .run
  | "GET", ["", "api", "executions", id] => named id .execution
  | "POST", ["", "api", "executions", id, "stop"] => named id .stop
  | "GET", ["", "api", "phases", id] => named id .phase
  | "GET", ["", "api", "events"] => some .events
  | _, _ => none

/-- The identifier in a part of a path. -/
def pathId? (text : String) : Option Uuid :=
  Uuid.parse? (String.ofList (percentDecoded text.toList))

/-- A name or value of a query as it is meant. -/
def queryText (cs : List Char) : String :=
  String.ofList (percentDecoded (cs.map fun c => if c == '+' then ' ' else c))

/-- The names and values of a query, in order. -/
def queryPairs (target : String) : List (String × String) :=
  (((queryOf target).splitOn '&').filter (!·.isEmpty)).map fun part =>
    (queryText (part.takeWhile (· != '=')), queryText ((part.dropWhile (· != '=')).drop 1))

/-- The execution that a query asks for, if any; a query that names it twice, or names no
identifier, is refused.
-/
def queryExecution (target : String) : Except Unit (Option Uuid) :=
  match (queryPairs target).filter (·.1 == "execution_id") with
  | [] => return none
  | [(_, value)] =>
      match Uuid.parse? value with
      | some id => return some id
      | none => throw ()
  | _ => throw ()

/-- A content type that promises JSON. -/
def isJsonType (contentType : String) : Bool :=
  let essence := contentType.toList.takeWhile (· != ';')
  match (Text.trimRight (Text.trimLeft essence)).splitOn '/' with
  | [kind, rest] =>
      let parts := (rest.map Char.toLower).splitOn '+'
      !kind.isEmpty && (parts.head? == some "json".toList
        || (2 ≤ parts.length && parts.getLast? == some "json".toList))
  | _ => false

/-- The caller that a header names: printable characters between blank margins. -/
def caller? (header : Option String) : Option String := do
  let header ← header
  let readable := header.toList.all fun c => c == '\t' || (32 ≤ c.toNat && c.toNat < 127)
  let name := Text.trim header
  if readable && !name.isEmpty then some name else none

end Harvest.Gateway
