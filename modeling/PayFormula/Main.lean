import PayFormula.CommandLine

/-!
# The program

Reads the file that the command line names, or takes a conversation line by
line, and prints the answer.
-/
namespace PayFormula.Program

/-- Opening a directory succeeds and reading it fails, with an error that names
no file; a path through something else fails on opening. -/
def failureOf : IO.Error → ReadFailure
  | .permissionDenied .. => .denied
  | .inappropriateType (some _) .. => .notDirectory
  | .inappropriateType none .. => .directory
  | .invalidArgument (some _) .. => .nameTooLong
  | _ => .missing

/-- Reads a file, once, before the command runs. -/
def load (path : String) : IO (Except ReadFailure ByteArray) :=
  try
    return .ok (← IO.FS.readBinFile path)
  catch e => return .error (failureOf e)

/-- Reads a line byte by byte, up to its newline or the end of the input. -/
partial def readLine (input : IO.FS.Stream) (read : ByteArray) : IO ByteArray := do
  let next ← input.read 1
  let line := read ++ next
  if next.isEmpty || next.toList == [10] then return line else readLine input line

/-- Takes lines until one ends the conversation, and hands out the exit code. -/
partial def converse (input output : IO.FS.Stream) (isVerbose : Bool) : IO UInt32 := do
  let line ← readLine input .empty
  if line.isEmpty then return 0
  match Repl.reply line with
  | .say text =>
    IO.eprint (Command.notes isVerbose (Repl.isFormula line).toNat)
    output.putStr text
    output.flush
    converse input output isVerbose
  | .stop text =>
    output.putStr text
    return 0
  | .refuse =>
    IO.eprintln ("REPL error: " ++ Repl.refusal)
    return 2

def perform (invocation : Invocation) : IO UInt32 := do
  match invocation with
  | .command .repl isVerbose =>
    let output ← IO.getStdout
    output.putStr Repl.greeting
    output.flush
    converse (← IO.getStdin) output isVerbose
  | invocation =>
    let contents ← match invocation with
      | .command asked _ =>
        match asked.path? with
        | some path => load path
        | none => pure (.error .missing)
      | _ => pure (.error .missing)
    let outcome := invocation.run (fun _ => contents) .empty
    IO.print outcome.out
    IO.eprint outcome.err
    return outcome.code.toUInt32

end PayFormula.Program

def main (args : List String) : IO UInt32 :=
  PayFormula.Program.perform (PayFormula.Invocation.ofWords args)
