import MapDocument.Compile.File
/-!
# Command line — documents given by their paths

The arguments are paths of documents, and switches that say what is done
with the paths after them. Every document is handled on its own: a failure
does not keep the others from being handled, but the whole run then counts
as failed.
-/

namespace MapDocument.CommandLine

/-- What is done with a document. -/
inductive Mode
  | compile
  | check
deriving DecidableEq, Repr

/-- One document to be handled. -/
structure Job where
  mode : Mode
  source : Path
deriving DecidableEq, Repr

/-- What a run comes to. -/
structure Outcome where
  succeeded : Bool
  /-- The text shown. -/
  output : String
  /-- What is said about failures. -/
  complaints : List String

/-! ## Arguments -/

/-- The jobs of arguments that follow on a switch. -/
def jobsIn (mode : Mode) : List String → List Job
  | [] => []
  | argument :: rest =>
    if argument = "--compile" then jobsIn .compile rest
    else if argument = "--check" then jobsIn .check rest
    else ⟨mode, ⟨argument⟩⟩ :: jobsIn mode rest

/-- The jobs of all arguments. Documents are compiled unless a switch says otherwise. -/
def jobs (arguments : List String) : List Job := jobsIn .compile arguments

/-- Whether help is asked for, as it also is where nothing else is. -/
def wantsHelp (arguments : List String) : Bool := arguments.isEmpty || arguments.contains "--help"

/-- The text of the help. -/
def help : String :=
  "mapc, the map document compiler.\n" ++
  "\n" ++
  "Examples:\n" ++
  "\n" ++
  "    [this command] --compile maps/harbor.json maps/cliffs.json\n" ++
  "    Compile each document into a .dlb artifact next to it.\n" ++
  "\n" ++
  "    [this command] --check maps/harbor.json --compile maps/cliffs.json\n" ++
  "    Check the first document without writing anything, compile the second.\n" ++
  "\n" ++
  "Each file is handled on its own. The exit status is non-zero if any failed.\n" ++
  "\n" ++
  "Settings are read from mapc.json in the working directory if present.\n" ++
  "\n" ++
  "Env var examples:\n" ++
  "    RUST_LOG=map_geom=trace\n" ++
  "    Changes logging levels\n"

/-! ## Runs -/

variable {m : Type → Type} [Monad m] [Disk m]

/-- What is shown of a report: nothing, if no note is grave enough. -/
def shownReport (threshold : Severity) (report : Journal) : String :=
  let (text, count) := report.render threshold
  if 0 < count then text ++ "\n" else ""

/-- Handles a document; answers with the text to show. -/
def Job.run (settings : Settings) (job : Job) : ExceptT CompileFailure m String :=
  match job.mode with
  | .compile => do
    let _ ← Compile.compileFile settings job.source
    return ""
  | .check => do
    return shownReport settings.reportThreshold (← Compile.checkFile settings job.source)

/-- What a job came to, for each of the jobs in order. -/
def runJobs (settings : Settings) : List Job → m (List (Job × Except CompileFailure String))
  | [] => return []
  | job :: rest => do
    let answer ← (job.run settings).run
    return (job, answer) :: (← runJobs settings rest)

/-- What is said about a job that failed. -/
def complaint (job : Job) (failure : CompileFailure) : String :=
  let doing := match job.mode with
    | .compile => "compiling "
    | .check => "checking "
  doing ++ job.source.text ++ ": " ++ failure.text

/-- What jobs came to, taken together. -/
def summary (answers : List (Job × Except CompileFailure String)) : Outcome where
  succeeded := answers.all fun
    | (_, .ok _) => true
    | (_, .error _) => false
  output := String.join (answers.map fun
    | (_, .ok text) => text
    | (_, .error _) => "")
  complaints := answers.filterMap fun
    | (_, .ok _) => none
    | (job, .error failure) => some (complaint job failure)

/-- The whole run. -/
def run (arguments : List String) : m Outcome := do
  if wantsHelp arguments then return ⟨true, help, []⟩
  let settings ← Settings.readOrInitial Settings.fileName
  return summary (← runJobs settings (jobs arguments))

end MapDocument.CommandLine
