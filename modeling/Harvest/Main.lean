import Harvest.Command.Perform
import Std.Time.DateTime.Timestamp

/-! The command line itself: it answers the calls of commands with the files and the terminal of
the process.
-/

open Harvest Harvest.Command

namespace Harvest.Terminal

/-- Why a file cannot be read or written. -/
def fileError : IO.Error → FileError
  | .noFileOrDirectory _ _ _ => .notFound
  | .inappropriateType _ code _ => if code == 21 then .isDirectory else .notDirectory
  | e => .other (toString e)

/-- The outcome of reading or writing a file. -/
def tried {α : Type} (action : IO α) : IO (Except FileError α) :=
  try return .ok (← action)
  catch e => return .error (fileError e)

/-- The present time. -/
def now : IO Time.Instant := do
  let time ← Std.Time.Timestamp.now
  return (Time.Instant.mk 0 0 0).plusNanos time.toNanosecondsSinceUnixEpoch.val.toNat

/-- The answer to the call of a command. -/
def answer : (call : DeskCall) → IO call.Answer
  | .print line => IO.println line
  | .read path => tried (IO.FS.readFile path)
  | .write path text => tried (IO.FS.writeFile path text)
  | .canKeep path => do
      match ← tried (IO.FS.withFile path .append fun _ => pure ()) with
      | .ok () => return true
      | .error _ => return false
  | .begin => return (← now, ← IO.rand 0 281474976710655)

/-- Answers the calls of a program up to its end. -/
def converse {α : Type} : Program deskCalls α → IO α
  | .done value => return value
  | .ask call next => do converse (next (← answer call))

end Harvest.Terminal

/-- Does what the arguments ask for. -/
def main (args : List String) : IO UInt32 := do
  let names := ["WEBDRIVER_URL", "EXPORT_DIR", "DATABASE_URL"]
  let found ← names.filterMapM fun name => return (← IO.getEnv name).map (name, ·)
  let vars : Variables := fun name => List.lookup name found
  let (exit, failure) ← Terminal.converse (respond (invocation vars args))
  IO.eprint failure
  return UInt32.ofNat exit
