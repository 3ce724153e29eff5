import ClusterConfig.Command.Status
import ClusterConfig.FileSystem

/-!
# What a program does

A program that has run leaves files behind, has written to its two streams, and has ended with a status.
-/

namespace ClusterConfig

/-- What a program that has run leaves behind. -/
structure Outcome where
  files : FileSystem
  /-- What it wrote to its output. -/
  output : List UInt8
  /-- What it wrote to its error stream. -/
  errors : List UInt8
  status : ExitStatus
  deriving DecidableEq, Repr

namespace Outcome

/-- Nothing done, with an exit code. -/
def silent (files : FileSystem) (code : UInt8) : Outcome := ⟨files, [], [], .code code⟩

/-- Bytes written, and success. -/
def printed (files : FileSystem) (bytes : List UInt8) : Outcome := ⟨files, bytes, [], .code 0⟩

/-- A complaint, with an exit code. -/
def complained (files : FileSystem) (message : String) (code : UInt8) : Outcome :=
  ⟨files, [], Text.Utf8.encode (message ++ "\n"), .code code⟩

/-- One outcome after another: the second one's files, both outputs, and the status of the first that is no success. -/
def andThen (first : Outcome) (next : FileSystem → Outcome) : Outcome :=
  let second := next first.files
  ⟨second.files, first.output ++ second.output, first.errors ++ second.errors,
    if first.status.success then second.status else first.status⟩

/-- Something done for each element, one after the other. -/
def forEach {α : Type} (files : FileSystem) (elements : List α) (run : FileSystem → α → Outcome) : Outcome :=
  elements.foldl (fun done x => done.andThen fun files => run files x) (silent files 0)

end Outcome

end ClusterConfig
