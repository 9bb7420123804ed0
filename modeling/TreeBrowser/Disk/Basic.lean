import TreeBrowser.Disk.Path

/-!
# Disks

A file system as a map from locations to directories and files. A path is followed piece by piece, so
that an operation fails for the first piece that is missing or is a file.
-/

namespace TreeBrowser

/-- The names from the directory in which paths start to a file or directory. The directories above
it are named by two dots, and the root by a slash. -/
abbrev Location := List String

namespace Location

/-- Whether no name leads away from the directories that are always there. -/
def isBase (here : Location) : Bool :=
  here.all fun name => name == ".." || name == "/"

/-- The directory around another one. The root lies in itself. -/
def up (here : Location) : Location :=
  if here == ["/"] then here
  else if here.isBase then here ++ [".."]
  else here.dropLast

def nameLimit : Nat :=
  255

def enter (here : Location) (piece : String) : Except DiskError Location :=
  if DiskPath.isStay piece then .ok here
  else if piece == ".." then .ok here.up
  else if nameLimit < piece.utf8ByteSize then .error .invalidFilename
  else .ok (here ++ [piece])

end Location

def DiskPath.start (path : DiskPath) : Location :=
  if path.fromRoot then ["/"] else []

inductive DiskNode where
  | directory
  | file (content : List UInt8)
  deriving DecidableEq

/-- The files and directories, the last made first. -/
structure Disk where
  nodes : List (Location × DiskNode)

namespace Disk

def empty : Disk :=
  ⟨[]⟩

def at? (d : Disk) (here : Location) : Option DiskNode :=
  if here.isBase then some .directory
  else (d.nodes.find? fun (p, _) => p == here).map (·.2)

def set (d : Disk) (here : Location) (node : DiskNode) : Disk :=
  ⟨(here, node) :: d.nodes.filter fun (p, _) => p != here⟩

/-- Where the pieces of a path lead. Nothing need be at the end. -/
def follow (d : Disk) (here : Location) : List String → Except DiskError Location
  | [] => .ok here
  | piece :: rest =>
    match d.at? here with
    | none => .error .notFound
    | some (.file _) => .error .notADirectory
    | some .directory =>
      match here.enter piece with
      | .error e => .error e
      | .ok next => d.follow next rest

def locatePieces (d : Disk) (path : DiskPath) (pieces : List String) :
    Except DiskError Location :=
  match path.fault? with
  | some e => .error e
  | none => d.follow path.start pieces

def locate (d : Disk) (path : DiskPath) : Except DiskError Location :=
  d.locatePieces path path.pieces

def look (d : Disk) (path : DiskPath) : Except DiskError DiskNode :=
  match d.locate path with
  | .error e => .error e
  | .ok here => (d.at? here).elim (.error .notFound) .ok

def exists? (d : Disk) (path : DiskPath) : Bool :=
  (d.look path).isOk

def read (d : Disk) (path : DiskPath) : Except DiskError (List UInt8) :=
  match d.look path with
  | .error e => .error e
  | .ok .directory => .error .isADirectory
  | .ok (.file content) => .ok content

/-- Everything below the directory in which paths start as text, a directory with a slash at its
end. -/
def listing (d : Disk) : List String :=
  (d.nodes.filter fun (here, _) => !Location.isBase (here.take 1)).map fun (here, node) =>
    "/".intercalate here ++ (match node with
      | .directory => "/"
      | .file _ => "")

end Disk

end TreeBrowser
