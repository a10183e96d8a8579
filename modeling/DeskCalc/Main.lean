import DeskCalc.CommandLine.Run

/-! # The command

Reads the files that the command line names, and writes out the outcome of the run. -/

namespace DeskCalc

/-- The number of a system error, which may be reported with a minus sign. -/
def systemNumber (code : UInt32) : Nat :=
  if code < 0x80000000 then code.toNat else (0 - code).toNat

/-- Why the system could not read a file, from the number and the text of its error. -/
def ReadFailure.ofSystemNumber (number : Nat) (details : String) : ReadFailure :=
  match number with
  | 2 => .notFound
  | 20 => .notDirectory
  | 21 => .isDirectory
  | 36 => .nameTooLong
  | _ => .other (details ++ " (os error " ++ toString number ++ ")")

/-- Why the system could not read a file. -/
def ReadFailure.ofSystem : IO.Error → ReadFailure
  | .noFileOrDirectory _ code details => ofSystemNumber (systemNumber code) details
  | .inappropriateType _ code details => ofSystemNumber (systemNumber code) details
  | .invalidArgument _ code details => ofSystemNumber (systemNumber code) details
  | .permissionDenied _ code details => ofSystemNumber (systemNumber code) details
  | failure => .other (toString failure)

/-- Reads a file of the system as text. -/
def readFromSystem (name : String) : IO (Except ReadFailure String) := do
  try
    let bytes ← IO.FS.readBinFile name
    pure (decodeText bytes)
  catch failure => pure (.error (.ofSystem failure))

/-- Reads the files that a request needs. -/
def Request.readFiles : Request → IO (List (String × Except ReadFailure String))
  | evaluate ⟨true, _⟩ names => names.mapM fun name => do
      let outcome ← readFromSystem name
      pure (name, outcome)
  | _ => pure []

/-- Runs a command line: gives the exit code after both streams are written. -/
def runSystem (arguments : List String) : IO UInt32 := do
  let read ← (Request.ofArguments arguments).readFiles
  let outcome := runCommand (fun name => (read.lookup name).getD (.error .notFound)) arguments
  IO.print outcome.stdout
  IO.eprint outcome.stderr
  pure outcome.code.toUInt32

end DeskCalc

/-- The entry point of the command. -/
def main (arguments : List String) : IO UInt32 :=
  DeskCalc.runSystem arguments
