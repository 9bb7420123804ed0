/-!
# Paths

A path as it is written, and the paths around it. Writing a path differently can matter: a slash at
the end asks for a directory, and the directory before two dots must be there even though the path
leaves it again.
-/

namespace TreeBrowser

inductive DiskError where
  | notFound
  | notADirectory
  | isADirectory
  | alreadyExists
  | invalidFilename
  | invalidInput
  | invalidData
  deriving DecidableEq

/-- Whether a slash opens a path, and what stands between its slashes. A slash at the end leaves an
empty last piece. -/
structure DiskPath where
  fromRoot : Bool
  pieces : List String
  deriving DecidableEq

namespace DiskPath

/-- The path that a text writes. No text at all has no piece. -/
def ofText (text : String) : DiskPath :=
  match (text.toList.splitOn '/').map String.ofList with
  | [""] => ⟨false, []⟩
  | "" :: pieces => ⟨true, pieces⟩
  | pieces => ⟨false, pieces⟩

def toText (path : DiskPath) : String :=
  (if path.fromRoot then "/" else "") ++ "/".intercalate path.pieces

def joinText (base name : String) : String :=
  if base = "" || base.toList.getLast? = some '/' then base ++ name else base ++ "/" ++ name

def textLimit : Nat :=
  4096

/-- What is wrong with the text of a path, whatever is on the disk. -/
def fault? (path : DiskPath) : Option DiskError :=
  if path.toText.toList.contains '\x00' then some .invalidInput
  else if textLimit ≤ path.toText.utf8ByteSize then some .invalidFilename
  else none

def isStay (piece : String) : Bool :=
  piece == "" || piece == "."

def isClosed (path : DiskPath) : Bool :=
  path.pieces.getLast? == some ""

def openPieces (path : DiskPath) : List String :=
  (path.pieces.reverse.dropWhile (· == "")).reverse

/-- For pieces from the last to the first, those that stay when names are taken off, one by one, with
the dots and slashes beside them. -/
def shortened : List String → List (List String)
  | [] => []
  | piece :: before =>
    if isStay piece then shortened before
    else before.dropWhile isStay :: shortened before

/-- The paths around a path, the innermost first. -/
def around (path : DiskPath) : List DiskPath :=
  (shortened path.pieces.reverse).map fun pieces => { path with pieces := pieces.reverse }

def parent? (path : DiskPath) : Option DiskPath :=
  path.around.head?

end DiskPath

end TreeBrowser
