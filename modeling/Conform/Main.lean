import Conform.Command.Run
import Conform.Log

/-!
The program: looks at the files that its arguments may name, runs the command and prints what it
says.
-/

open Conform

/-- What stands at a path. Only an absent file is told apart from what cannot be read as one. -/
def lookAt (path : String) : IO Command.Found := do
  try
    let data ← IO.FS.readBinFile path
    return .file data.toList
  catch
    | .noFileOrDirectory .. => return .nothing
    | _ => return .directory

def main (args : List String) : IO UInt32 := do
  let files ← args.mapM fun arg => do
    let found ← lookAt arg
    return (arg, found)
  let outcome := Command.run (fun path => (Listing.get? path files).getD .nothing) args
  for line in Log.output "conform" Log.defaultLevel outcome.log do
    IO.println line
  for line in outcome.output do
    IO.println line
  if let some b := outcome.breakdown then
    IO.eprintln (b.className ++ ": " ++ b.text)
  return outcome.status.toUInt32
