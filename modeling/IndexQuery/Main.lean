import IndexQuery.Command.Run

/-! The command line program. -/

namespace IndexQuery.Command

/-- All that is left of a stream. -/
partial def readAll (stream : IO.FS.Stream) (read : ByteArray) : IO ByteArray := do
  let chunk ← stream.read 65536
  if chunk.isEmpty then return read else readAll stream (read ++ chunk)

/-- The input for a request: the standard input, for one that reads it and is not typed by hand. -/
def standardInput? : Option Request → IO (Option String)
  | some (.run _ _ none _) => do
    let stdin ← IO.getStdin
    if ← stdin.isTty then return none
    else
      match String.fromUTF8? (← readAll stdin ByteArray.empty) with
      | some text => return some text
      | none => throw (IO.userError "stream did not contain valid UTF-8")
  | _ => return none

end IndexQuery.Command

open IndexQuery.Command in
/-- Prints the outcome of a run and exits with its code. -/
def main (arguments : List String) : IO UInt32 := do
  let input? ← standardInput? (Request.ofArguments? false arguments)
  let outcome := run arguments input?
  IO.print outcome.output
  IO.eprint outcome.errors
  return outcome.code.toUInt32
