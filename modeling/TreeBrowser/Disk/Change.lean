import TreeBrowser.Disk.Basic

/-!
# Changes of a disk

Files are written and directories made. One such step changes nothing when it fails; making several
directories may fail after some of them are made, and those stay.
-/

namespace TreeBrowser.Disk

/-- The disk after a step that leaves it as it is when it fails. -/
def after {ε : Type} (d : Disk) : Except ε Disk → Disk × Except ε Unit
  | .ok changed => (changed, .ok ())
  | .error e => (d, .error e)

/-- Where the file of a path is or would be. A path with a slash at its end is that of no file, but
the directory around it is looked for first. -/
def locateFile (d : Disk) (path : DiskPath) : Except DiskError Location :=
  if path.isClosed then
    match d.locatePieces path (path.openPieces.dropLast ++ [""]) with
    | .error e => .error e
    | .ok _ => .error .isADirectory
  else d.locate path

def write (d : Disk) (path : DiskPath) (content : List UInt8) : Except DiskError Disk :=
  match d.locateFile path with
  | .error e => .error e
  | .ok here =>
    match d.at? here with
    | some .directory => .error .isADirectory
    | _ => .ok (d.set here (.file content))

/-- Opens a file to add to its end, and makes it if need be. An open file is known by where it is. -/
def openEnd (d : Disk) (path : DiskPath) : Except DiskError (Disk × Location) :=
  match d.locateFile path with
  | .error e => .error e
  | .ok here =>
    match d.at? here with
    | some .directory => .error .isADirectory
    | some (.file _) => .ok (d, here)
    | none => .ok (d.set here (.file []), here)

def addAt (d : Disk) (here : Location) (more : List UInt8) : Disk :=
  match d.at? here with
  | some (.file content) => d.set here (.file (content ++ more))
  | _ => d

def makeDirectory (d : Disk) (path : DiskPath) : Except DiskError Disk :=
  match d.locatePieces path path.openPieces with
  | .error e => .error e
  | .ok here =>
    match d.at? here with
    | none => .ok (d.set here .directory)
    | some .directory => .ok d
    | some (.file _) => .error .alreadyExists

/-- Makes the first of the directories, each of which lies in the next one. Where its surroundings are
missing, they are made before it. -/
def makeInnermost (d : Disk) : List DiskPath → Disk × Except DiskError Unit
  | [] => (d, .ok ())
  | path :: around =>
    match d.makeDirectory path with
    | .error .notFound =>
      match d.makeInnermost around with
      | (d, .ok ()) => d.after (d.makeDirectory path)
      | failed => failed
    | result => d.after result

def makeDirectories (d : Disk) (path : DiskPath) : Disk × Except DiskError Unit :=
  d.makeInnermost (path :: path.around)

def makeAround (d : Disk) (path : DiskPath) : Disk × Except DiskError Unit :=
  match path.parent? with
  | none => (d, .ok ())
  | some parent => if d.exists? parent then (d, .ok ()) else d.makeDirectories parent

/-- The disk with something more on it, where nothing is yet, in directories that are made where they
are missing. -/
def withNode (d : Disk) (path : DiskPath) (node : DiskNode) : Disk :=
  let d := (d.makeAround path).1
  match d.locatePieces path path.openPieces with
  | .error _ => d
  | .ok here => if (d.at? here).isSome then d else d.set here node

end TreeBrowser.Disk
