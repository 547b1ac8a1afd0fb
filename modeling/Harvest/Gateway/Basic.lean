import Harvest.Service.Basic

/-! Requests to the gateway, its responses, and the errors that it answers with: each error has
a status and is told in one member of the body.
-/

namespace Harvest.Gateway

/-- A request. -/
structure Request where
  method : String
  /-- The path, perhaps with a query after a question mark. -/
  target : String
  /-- The header that names the caller. -/
  user : Option String
  contentType : Option String
  body : String
deriving Repr, Inhabited

/-- A response. -/
structure Response where
  status : Nat
  /-- The body, unless it is none that callers should read. -/
  body : Option Json
deriving Repr, Inhabited

/-- A response without a body that callers should read. -/
def Response.bare (status : Nat) : Response := ⟨status, none⟩

/-- A response with a value. -/
def Response.json (status : Nat) (body : Json) : Response := ⟨status, some body⟩

/-- Errors that callers learn the reason of. -/
inductive RequestError where
  | missingUser
  | notFound (what : String)
  | forbidden (what : String)
  | badRequest (reason : String)
  | service (reason : ServiceError)
deriving DecidableEq, Repr

/-- The wording of an error. -/
def RequestError.message : RequestError → String
  | .missingUser => "missing or empty X-User-Id header"
  | .notFound what => what ++ " not found"
  | .forbidden what => what ++ " belongs to another user"
  | .badRequest reason => reason
  | .service reason => reason.message

/-- The status of a store error. -/
def storeStatus : StoreError → Nat
  | .notFound _ => 404
  | .terminal _ | .conflict _ => 409
  | .corrupt _ | .database _ => 500

/-- The status of an error of the service. -/
def serviceStatus : ServiceError → Nat
  | .trigger (.workflowNotFound _) => 404
  | .trigger (.unauthorized _ _) => 403
  | .trigger (.invalidDefinition _) | .trigger (.planning _) => 422
  | .trigger (.store reason) | .store reason => storeStatus reason
  | .setup (.executionNotFound _) => 404
  | .setup (.alreadyFinished _) => 409
  | .setup (.invalidDefinition _ _) | .setup (.store _) => 500
  | .invalidDefinition _ => 400

/-- The status of an error. -/
def RequestError.status : RequestError → Nat
  | .missingUser => 401
  | .notFound _ => 404
  | .forbidden _ => 403
  | .badRequest _ => 400
  | .service reason => serviceStatus reason

/-- The response that tells an error. -/
def RequestError.response (e : RequestError) : Response :=
  .json e.status (.object [("error", .string e.message)])

end Harvest.Gateway
