import MapDocument.Bytes.Reader
import MapDocument.Bytes.Fields
import MapDocument.Zlib
/-!
# Artifacts — compiled maps as they are kept

An artifact is the length of a binary map, in four bytes, and the binary map
as a compressed stream. The length is not trusted: an artifact is read only
if its stream holds exactly so many bytes.
-/

namespace MapDocument.Artifact

/-- What the names of artifacts end in, if nothing else is asked for. -/
def defaultExtension : String := "dlb"

/-- The greatest level of compression. -/
def greatestLevel : UInt32 := 9

/-- The artifact of a binary map. Levels above the greatest count as the greatest. -/
def compress (level : UInt32) (binary : Bytes) : Except Error Bytes := do
  return (← Bytes.ofLength? binary.length) ++ Zlib.write (min level greatestLevel).toNat binary

/-- The binary map of an artifact. No more than one byte past the declared length
is taken from the stream, which is enough to tell that it holds too many. -/
def decompress (artifact : Bytes) : Except Error Bytes := do
  let header := Reader.length (.ofBytes artifact)
  let length ← Edit.answer header
  let taken (output : Array UInt8) : Except Error Bytes :=
    let held := min output.size (length + 1)
    if held = length then .ok output.toList else .error (Fault.wrongArtifactLength length held)
  match Zlib.read (Edit.held header).rest with
  | .ok _ s => taken s.output
  | .error .corrupt _ => .error Fault.corruptStream
  | .error .exhausted s =>
    if s.output.size ≤ length then .error Fault.incompleteStream else taken s.output

end MapDocument.Artifact
