import MapDocument.CommandLine
/-!
# The program `mapc`

The command line, run on the disk of the machine.
-/

namespace MapDocument

/-- The words for a fault of the machine. -/
def DiskFault.ofMachine : IO.Error → DiskFault
  | .noFileOrDirectory .. => .missing
  | .alreadyExists .. => .exists
  | e => .reported (toString e)

/-- Something done on the machine, with its faults as answers. -/
def onMachine {α : Type} (action : IO α) : IO (Except DiskFault α) := do
  try
    return .ok (← action)
  catch e =>
    return .error (.ofMachine e)

instance : Disk IO where
  read path := onMachine do return (← IO.FS.readBinFile path.text).data.toList
  write path content := onMachine (IO.FS.writeBinFile path.text ⟨content.toArray⟩)
  remove path := onMachine (IO.FS.removeFile path.text)
  makeFolder path := onMachine (IO.FS.createDir path.text)
  -- only what is a folder can be followed by a further name
  isFolder path := do
    return (← onMachine (IO.FS.realPath (path.text ++ "/."))).isOk

end MapDocument

/-- Runs the command line; the exit status is one if any document failed. -/
def main (arguments : List String) : IO UInt32 := do
  let outcome ← MapDocument.CommandLine.run arguments
  IO.print outcome.output
  for complaint in outcome.complaints do
    IO.eprintln complaint
  return if outcome.succeeded then 0 else 1
