import MapDocument.Compile.Document
/-!
# Compilation — of files

Compiling a file writes its artifact and, if asked for, the normalized text
of the document. Nothing is written before the artifact is made; the text is
written before the artifact, and taken away again if the artifact cannot be
written. Checking a file writes nothing.
-/

namespace MapDocument.Compile

variable {m : Type → Type} [Monad m] [Disk m]

/-- What the names of normalized texts end in. -/
def textExtension : String := "normalized.json"

/-- Where the artifact of a source is put. -/
def artifactPath (settings : Settings) (source : Path) : Path :=
  source.output settings.outputFolder? settings.outputExtension

/-- Where the normalized text of a source is put. -/
def textPath (settings : Settings) (source : Path) : Path :=
  (artifactPath settings source).withExtension textExtension

/-- Something done to the disk, which fails at a path. -/
def atPath {α : Type} (path : Path) (action : m (Except DiskFault α)) :
    ExceptT CompileFailure m α :=
  ExceptT.mk do return (← action).mapError (.disk path)

/-- A computation that asks nothing of the disk. -/
def inMemory {α : Type} (result : Except CompileFailure α) : ExceptT CompileFailure m α :=
  ExceptT.mk (pure result)

/-- The map in a file. -/
def readMap (source : Path) : ExceptT CompileFailure m MapChunk := do
  inMemory (MapChunk.ofText (← atPath source (Disk.readText source)))

/-- Compiles a file; answers where the artifact is. -/
def compileFile (settings : Settings) (source : Path) : ExceptT CompileFailure m Path := do
  let map ← readMap source
  let artifact ← inMemory (map.toArtifact settings)
  let out := artifactPath settings source
  let text := textPath settings source
  atPath out (Disk.makeParents out)
  if settings.keepsText then atPath text (Disk.write text (Utf8.encode map.toText))
  match ← (Disk.write out artifact : m _) with
  | .ok () => return out
  | .error fault =>
    if settings.keepsText then
      let _ ← (Disk.remove text : m _)
    throw (.disk out fault)

/-- Checks a file; answers with the report on it. -/
def checkFile (settings : Settings) (source : Path) : ExceptT CompileFailure m Journal := do
  let map ← readMap source
  inMemory (map.validate settings.reportThreshold)

end MapDocument.Compile
