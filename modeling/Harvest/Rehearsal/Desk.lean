import Harvest.Command.Perform

/-! Commands at a desk with a folder of its own, where all that is printed can be read again. -/

namespace Harvest.Rehearsal

open Command Time

/-- A desk: its files, the lines printed so far with the latest first, and the time. -/
structure Desk where
  folder : Folder
  printed : List String
  epoch : Instant

/-- What is left of a command: its exit code, what it printed, what it told of its failure, and
the files that were not there before.
-/
structure Transcript where
  exit : Nat
  printed : String
  failure : String
  created : List (String × String)
deriving DecidableEq, Repr

namespace Desk

/-- The answer to the call of a command. -/
def answer (desk : Desk) : (call : DeskCall) → call.Answer × Desk
  | .print line => ((), { desk with printed := line :: desk.printed })
  | .read path => (desk.folder.read path, desk)
  | .write path text =>
      match desk.folder.write path text with
      | .ok folder => (.ok (), { desk with folder })
      | .error reason => (.error reason, desk)
  | .canKeep path => ((desk.folder.checkWrite path).toBool, desk)
  | .begin => ((desk.epoch, 0), desk)

/-- What is left of an invocation at a desk with some files. -/
def transcript (files : List (String × String)) (epoch : Instant) (invocation : Invocation)
    : Transcript :=
  let before := Folder.ofFiles files
  let ((exit, failure), desk) :=
    (respond invocation).run (fun (call : DeskCall) (desk : Desk) => desk.answer call)
      ⟨before, [], epoch⟩
  { exit, failure
    printed := HelpTopic.lines desk.printed.reverse
    created := (desk.folder.filter fun (way, _) => !before.hasFile way).map fun (way, text) =>
      ("/".intercalate way, text) }

end Desk

end Harvest.Rehearsal
