import PageScript.CommandLine.Shell
import Std.Time.DateTime.Timestamp

/-! # The program

Reads arguments, files and typed lines, and writes what the shell makes of them.
-/

set_option autoImplicit false

open PageScript
open PageScript.CommandLine

namespace PageScript.Program

/-- Writes texts to where they belong. -/
def write (outputs : List Output) : IO Unit := do
  for output in outputs do
    match output with
    | .out text => IO.print text
    | .err text => IO.eprint text
  (← IO.getStdout).flush

/-- Writes the result of a run, and yields its exit code. -/
def finish (result : Result) : IO UInt32 := do
  write result.outputs
  return result.exitCode.toUInt32

/-- The text of a file, or the reason why it cannot be read. -/
def fileText (path : String) : IO (Except String String) := do
  try
    return .ok (← IO.FS.readFile path)
  catch
    | .noFileOrDirectory _ _ _ => return .error "No such file or directory (os error 2)"
    | .permissionDenied _ _ _ => return .error "Permission denied (os error 13)"
    | e => return .error (toString e)

/-- Runs the lines that are typed in, until there are no more. -/
partial def serve (input : IO.FS.Stream) (i : Interpreter) : IO Unit := do
  write [prompt]
  let line ← input.getLine
  if line.isEmpty then write [farewell]
  else
    let (outputs, i) := runLine line i
    write outputs
    serve input i

end PageScript.Program

/-- Runs the program on its arguments. -/
def main (args : List String) : IO UInt32 := do
  let now ← Std.Time.Timestamp.now
  let milliseconds := now.toMillisecondsSinceUnixEpoch.val
  let seed := now.toNanosecondsSinceUnixEpoch.val.toNat.toUInt64
  match plan args milliseconds seed with
  | .finished result => Program.finish result
  | .script code i => Program.finish (runOnce (.ok code) i)
  | .file path i =>
    let contents ← Program.fileText path
    Program.finish (runOnce (contents.mapError (Failure.unreadable path)) i)
  | .typed i =>
    let (outputs, i) := drain i
    Program.write (outputs ++ greeting)
    Program.serve (← IO.getStdin) i
    return 0
