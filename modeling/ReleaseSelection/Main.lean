import ReleaseSelection.CommandLine
import Std.Time.DateTime.Timestamp

/-!
# The program

Gathers the files, the variables and the time that `CommandLine.run` depends on, and prints its
lines.
-/

namespace ReleaseSelection.CommandLine

def text? (path : String) : IO (Option String) := do
  try
    return some (← IO.FS.readFile path)
  catch _ =>
    return none

/-- The texts of those arguments that are paths of files. -/
def texts (args : List String) : IO (List (String × String)) :=
  args.filterMapM fun path => do return (← text? path).map (path, ·)

/-- The name and the value of a variable. -/
def assignment? (entry : String) : Option (String × String) :=
  match entry.splitOn "=" with
  | name :: value :: rest => some (name, "=".intercalate (value :: rest))
  | _ => none

def assignments : IO (List (String × String)) := do
  let block ← text? "/proc/self/environ"
  return ((block.getD "").splitOn "\x00").filterMap assignment?

def now : IO Instant := do
  let nanos := (← Std.Time.Timestamp.now).toNanosecondsSinceUnixEpoch.val
  return ⟨nanos / 1000000000, (nanos % 1000000000).toNat⟩

/-- Evaluations are done in turn here, and none of them is waited for. -/
def noDurations : Durations := fun _ => 0

end ReleaseSelection.CommandLine

open ReleaseSelection

def main (args : List String) : IO UInt32 := do
  let texts ← CommandLine.texts args
  let assignments ← CommandLine.assignments
  let result := CommandLine.run args (texts.lookup ·) assignments (← CommandLine.now)
    CommandLine.noDurations
  for line in result.lines do
    IO.println line
  return result.exitCode.toUInt32
