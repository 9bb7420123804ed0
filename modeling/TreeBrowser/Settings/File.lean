import TreeBrowser.Disk.Change
import TreeBrowser.Settings.Basic
import TreeBrowser.Text.Utf8

/-!
# The settings file

Where the settings are kept and how they are read and first written. A file that is there is never
written to.
-/

namespace TreeBrowser

structure Environment where
  cacheHome : Option String
  home : Option String

namespace Environment

/-- The directory of caches: the one that is named, else the usual one of the user. -/
def cacheDirectory? (env : Environment) : Option String :=
  env.cacheHome <|> env.home.map fun home => DiskPath.joinText home ".cache"

def ownDirectory? (env : Environment) : Option String :=
  env.cacheDirectory?.map fun dir => DiskPath.joinText dir "giant-tree"

def settingsPath? (env : Environment) : Option String :=
  env.ownDirectory?.map fun dir => DiskPath.joinText dir "settings.json"

def logDirectory? (env : Environment) : Option String :=
  env.ownDirectory?.map fun dir => DiskPath.joinText dir "logs"

end Environment

inductive SettingsError where
  | noSettingsDir
  | disk (error : DiskError)
  | parse
  deriving DecidableEq

/-- The wording of an error. What the disk or a reader of the text found amiss would follow the last
two. -/
def SettingsError.message : SettingsError → String
  | .noSettingsDir => "cannot determine settings directory"
  | .disk _ => "settings io error: "
  | .parse => "invalid settings file: "

namespace Disk

def readText (d : Disk) (path : DiskPath) : Except DiskError String := do
  let content ← d.read path
  match Text.Utf8.decode? content with
  | some text => .ok text
  | none => .error .invalidData

end Disk

namespace Settings

def loadFrom (d : Disk) (path : String) : Except SettingsError Settings :=
  match d.readText (DiskPath.ofText path) with
  | .error e => .error (.disk e)
  | .ok text => (ofText? text).elim (.error .parse) .ok

def load? (d : Disk) (env : Environment) : Option Settings :=
  env.settingsPath?.bind fun path => (loadFrom d path).toOption

/-- Writes the default settings where nothing is yet, and makes the directories around them. -/
def writeDefault (d : Disk) (path : String) : Disk × Except DiskError Unit :=
  let path := DiskPath.ofText path
  match d.makeAround path with
  | (d, .error e) => (d, .error e)
  | (d, .ok ()) =>
    if d.exists? path then (d, .ok ())
    else d.after (d.write path (Text.Utf8.encode ({} : Settings).toText))

def ensureFile (d : Disk) (env : Environment) : Disk × Except SettingsError String :=
  match env.settingsPath? with
  | none => (d, .error .noSettingsDir)
  | some path =>
    match writeDefault d path with
    | (d, .error e) => (d, .error (.disk e))
    | (d, .ok ()) => (d, .ok path)

def ensureLogDirectory (d : Disk) (env : Environment) : Disk × Except DiskError String :=
  match env.logDirectory? with
  | none => (d, .error .notFound)
  | some path =>
    match d.makeDirectories (DiskPath.ofText path) with
    | (d, .error e) => (d, .error e)
    | (d, .ok ()) => (d, .ok path)

end Settings

end TreeBrowser
