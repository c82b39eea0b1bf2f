import MapDocument.Artifact
import MapDocument.Disk.Basic
import MapDocument.Journal
import MapDocument.Json.Printer
import MapDocument.Json.Reading
/-!
# Settings — what can be chosen

Settings are kept as a JSON object with a member for each, or as an array of
their values in order. What is left out has its default. Members that are
not known are passed over, and nothing but the grammar is asked of them.
-/

namespace MapDocument

/-- What can be chosen for a compilation. -/
structure Settings where
  /-- Where artifacts are put, if not beside their sources. -/
  outputFolder? : Option Path
  outputExtension : String
  compressionLevel : UInt32
  /-- The least severity of the notes shown. -/
  reportThreshold : Severity
  /-- Whether the normalized text of a document is kept beside its artifact. -/
  keepsText : Bool
deriving DecidableEq

/-- What is wrong with settings. -/
inductive SettingsFault
  | unreadable (fault : DiskFault)
  | malformed
  | levelTooGreat (level : UInt32)
deriving DecidableEq

/-- The wording of a fault. -/
def SettingsFault.message : SettingsFault → String
  | unreadable fault => fault.message
  | malformed => "settings are malformed"
  | levelTooGreat level =>
    s!"compression level {level.toNat} is above {Artifact.greatestLevel.toNat}"

namespace Settings

/-- What holds where nothing is chosen. -/
def initial : Settings where
  outputFolder? := none
  outputExtension := Artifact.defaultExtension
  compressionLevel := Artifact.greatestLevel
  reportThreshold := .warn
  keepsText := false

/-- The file that settings are read from. -/
def fileName : Path := ⟨"mapc.json"⟩

/-! ## Values -/

/-- A string. -/
def text? : JsonSource → Option String
  | .string pieces => StringPiece.text? pieces
  | _ => none

/-- A path, or none. -/
def folder? : JsonSource → Option (Option Path)
  | .null => some none
  | source => (text? source).map fun text => some ⟨text⟩

/-- A whole number that four bytes hold. -/
def level? : JsonSource → Option UInt32
  | .number n =>
    match n.value? with
    | some (.integer n) => if 0 ≤ n ∧ n < 0x100000000 then some (UInt32.ofNat n.toNat) else none
    | _ => none
  | _ => none

/-- How a severity is written. -/
def severityName : Severity → String
  | .info => "info"
  | .warn => "warn"
  | .error => "error"

/-- The severity of a name. -/
def severityNamed? (name : String) : Option Severity :=
  [Severity.info, .warn, .error].find? (severityName · = name)

/-- A severity: its name, or an object with that name for its one key. -/
def severity? : JsonSource → Option Severity
  | .object [(key, .null)] => StringPiece.text? key >>= severityNamed?
  | source => text? source >>= severityNamed?

/-- A truth value. -/
def flag? : JsonSource → Option Bool
  | .bool b => some b
  | _ => none

/-! ## Members -/

/-- The names of the members in order. -/
inductive Key
  | outputFolder
  | outputExtension
  | compressionLevel
  | reportThreshold
  | keepsText
deriving DecidableEq

/-- The members in order. -/
def Key.all : List Key :=
  [.outputFolder, .outputExtension, .compressionLevel, .reportThreshold, .keepsText]

/-- How the name of a member is written. -/
def Key.name : Key → String
  | outputFolder => "output_dir"
  | outputExtension => "output_extension"
  | compressionLevel => "compression_level"
  | reportThreshold => "report_threshold"
  | keepsText => "dump_json"

/-- Settings with a member read anew. -/
def assign? (s : Settings) (key : Key) (source : JsonSource) : Option Settings :=
  match key with
  | .outputFolder => (folder? source).map fun v => { s with outputFolder? := v }
  | .outputExtension => (text? source).map fun v => { s with outputExtension := v }
  | .compressionLevel => (level? source).map fun v => { s with compressionLevel := v }
  | .reportThreshold => (severity? source).map fun v => { s with reportThreshold := v }
  | .keepsText => (flag? source).map fun v => { s with keepsText := v }

/-- Settings with values read in order; there may be fewer values than members, but not more. -/
def assignInOrder? (s : Settings) : List Key → List JsonSource → Option Settings
  | _, [] => some s
  | [], _ :: _ => none
  | key :: keys, source :: rest => do assignInOrder? (← s.assign? key source) keys rest

/-- Settings with members read by name, each of those in `missing` at most once. -/
def assignByName? (s : Settings) (missing : List Key) :
    List (List StringPiece × JsonSource) → Option Settings
  | [] => some s
  | (name, source) :: rest => do
    let name ← StringPiece.text? name
    match Key.all.find? (·.name = name) with
    | none => assignByName? s missing rest
    | some key =>
      if key ∉ missing then none
      else assignByName? (← s.assign? key source) (missing.erase key) rest

/-! ## Texts -/

/-- Settings as they are written. -/
def ofSource? : JsonSource → Option Settings
  | .array items => initial.assignInOrder? Key.all items
  | .object members => initial.assignByName? Key.all members
  | _ => none

/-- The settings that bytes hold, whatever their level of compression. -/
def ofBytes? (bytes : Bytes) : Option Settings := JsonSource.parse? bytes >>= ofSource?

/-- The settings that bytes hold. -/
def ofBytes (bytes : Bytes) : Except SettingsFault Settings :=
  match ofBytes? bytes with
  | none => .error .malformed
  | some s =>
    if s.compressionLevel ≤ Artifact.greatestLevel then .ok s
    else .error (.levelTooGreat s.compressionLevel)

/-- Settings as a JSON value. -/
def toJson (s : Settings) : Json :=
  .object [
    (Key.outputFolder.name, match s.outputFolder? with
      | some folder => .string folder.text
      | none => .null),
    (Key.outputExtension.name, .string s.outputExtension),
    (Key.compressionLevel.name, .ofInt s.compressionLevel.toNat),
    (Key.reportThreshold.name, .string (severityName s.reportThreshold)),
    (Key.keepsText.name, .bool s.keepsText)]

/-- The text that settings are written as. -/
def toText (s : Settings) : String := s.toJson.pretty

/-! ## Files -/

variable {m : Type → Type} [Monad m] [Disk m]

/-- The settings in a file. -/
def read (path : Path) : m (Except SettingsFault Settings) := do
  match ← Disk.read path with
  | .error fault => return .error (.unreadable fault)
  | .ok bytes => return ofBytes bytes

/-- The settings in a file, or the defaults if there is anything wrong with it. -/
def readOrInitial (path : Path) : m Settings := do
  match ← read path with
  | .error _ => return initial
  | .ok s => return s

/-- Puts settings into a file. -/
def write (s : Settings) (path : Path) : m (Except DiskFault Unit) :=
  Disk.write path (Utf8.encode s.toText)

end Settings

end MapDocument
