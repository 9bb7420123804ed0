import TreeBrowser.Settings.File

/-!
# The log

Each run logs to the file of the day, in the directory for logs of the user or else in one for
temporary files. The file is opened at the beginning and is only ever added to. Where no directory
can be had nothing is logged, but a file that cannot be opened is the end of the run.
-/

namespace TreeBrowser

/-- The day of a run and all that is logged in it. There are times among it, so that two runs never
log the same; what it says is of no account here. -/
structure Log where
  day : String
  noSlash : '/' ∉ day.toList
  text : List UInt8

namespace Log

def empty : Log where
  day := "1970-01-01"
  noSlash := by decide
  text := []

def fileName (log : Log) : String :=
  "giant-tree.log." ++ log.day

/-- The directory for logs when the user has none. -/
def temporaryDirectory (temporary : String) : String :=
  DiskPath.joinText (DiskPath.joinText temporary "giant-tree") "logs"

def directory (d : Disk) (env : Environment) (temporary : String) : Disk × Option String :=
  match Settings.ensureLogDirectory d env with
  | (d, .ok path) => (d, some path)
  | (d, .error _) =>
    let path := temporaryDirectory temporary
    match d.makeDirectories (DiskPath.ofText path) with
    | (d, .ok ()) => (d, some path)
    | (d, .error _) => (d, none)

def openIn (log : Log) : Disk × Option String → Disk × Except DiskError (Option Location)
  | (d, none) => (d, .ok none)
  | (d, some directory) =>
    match d.openEnd (DiskPath.ofText (DiskPath.joinText directory log.fileName)) with
    | .ok (d, here) => (d, .ok (some here))
    | .error e => (d, .error e)

def writeTo (log : Log) (file : Option Location) (d : Disk) : Disk :=
  file.elim d fun here => d.addAt here log.text

end Log

end TreeBrowser
