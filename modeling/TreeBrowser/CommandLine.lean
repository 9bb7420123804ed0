import TreeBrowser.Log
import TreeBrowser.Replay

/-!
# The command line

A run of the program: it takes the settings of the user, opens its log, writes the default settings
when there are none, opens the workspace in its first argument, and plays the script in its second
argument, or else its input, on a browser of that workspace.
-/

namespace TreeBrowser

structure Invocation where
  arguments : List String
  environment : Environment
  input : List UInt8
  /-- The directory of temporary files. -/
  temporary : String := "/tmp"
  log : Log := .empty

structure RunResult where
  disk : Disk
  output : String
  exitCode : UInt8

def usage : String :=
  "usage: giant-tree <workspace.json> [script]"

namespace Invocation

/-- The bytes of the script. A directory can be opened, but nothing can be read from it. -/
def script (i : Invocation) (d : Disk) : Except DiskError (Option (List UInt8)) :=
  match i.arguments[1]? with
  | none => .ok (some i.input)
  | some path =>
    match d.read (DiskPath.ofText path) with
    | .ok bytes => .ok (some bytes)
    | .error .isADirectory => .ok none
    | .error e => .error e

def workspace? (d : Disk) (path : String) : Option Workspace :=
  (d.readText (DiskPath.ofText path)).toOption.bind fun text => (Workspace.ofText text).toOption

def transcript (b : Browser) (script : Option (List UInt8)) : String × UInt8 :=
  let replay := match script with
    | some bytes => b.playLines 1 (scriptLines bytes)
    | none => ⟨b, [], false⟩
  (transcriptText (.outline b.outline :: replay.printed), if replay.finished then 0 else 1)

def openLog (i : Invocation) (d : Disk) : Disk × Except DiskError (Option Location) :=
  i.log.openIn (Log.directory d i.environment i.temporary)

def withSettingsFile (i : Invocation) (d : Disk) : Disk :=
  (Settings.ensureFile d i.environment).1

def shown (i : Invocation) (path : String) (settings : Settings) (d : Disk) : String × UInt8 :=
  match workspace? d path, i.script d with
  | some workspace, .ok script => transcript (Browser.start workspace settings) script
  | _, _ => ("", 1)

def run (i : Invocation) (d : Disk) : RunResult :=
  match i.arguments with
  | [] => ⟨d, "", 2⟩
  | path :: _ =>
    let settings := (Settings.load? d i.environment).getD {}
    match i.openLog d with
    | (d, .error _) => ⟨d, "", 101⟩
    | (d, .ok log) =>
      let d := i.withSettingsFile d
      let shown := i.shown path settings d
      ⟨i.log.writeTo log d, shown.1, shown.2⟩

end Invocation

end TreeBrowser
