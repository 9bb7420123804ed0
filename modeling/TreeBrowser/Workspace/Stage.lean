import TreeBrowser.Json.Reader
import TreeBrowser.Json.Record

/-!
# Processing stages

How far the backend has come with a file, as text for the reader and on the wire. On the wire a
stage is an object tagged by its type or an array that begins with it; what a type has no use for
is passed over in an object and refused in an array.
-/

namespace TreeBrowser

inductive ProcessingStage where
  | processing (tasksRemaining : UInt32) (note : Option String)
  | processed
  | failed
  deriving DecidableEq

namespace ProcessingStage

def isProcessing : ProcessingStage → Bool
  | .processing .. => true
  | _ => false

/-- The stage as it is shown. An empty note is not shown. -/
def display : ProcessingStage → String
  | .processing tasksRemaining note =>
    let tasks :=
      if tasksRemaining = 1 then "1 task" else toString tasksRemaining.toNat ++ " tasks"
    let remark := match note with
      | some note => if note = "" then "" else " - " ++ note
      | none => ""
    "processing (" ++ tasks ++ " remaining)" ++ remark
  | .processed => "processed"
  | .failed => "processed (with errors)"

inductive Tag where
  | processing
  | processed
  | failed

namespace Tag

def ofName? (name : String) : Option Tag :=
  if name = "processing" then some .processing
  else if name = "processed" then some .processed
  else if name = "failed" then some .failed
  else none

def named? : Json → Option Tag
  | .str name => ofName? name
  | _ => none

/-- A type given by its name or by its place among the types. -/
def namedOrNumbered? : Json → Option Tag
  | .int 0 => some .processing
  | .int 1 => some .processed
  | .int 2 => some .failed
  | v => named? v

end Tag

def processing? (members : List (String × Json)) : Option ProcessingStage := do
  let tasksRemaining ← (Json.find "tasksRemaining" members).required Json.uint32?
  let note ← (Json.find "note" members).optional Json.str?
  return .processing tasksRemaining note

def ofMembers? (members : List (String × Json)) : Tag → Option ProcessingStage
  | .processing => processing? members
  | .processed => some .processed
  | .failed => some .failed

def ofElems? (elems : List Json) : Tag → Option ProcessingStage
  | .processing =>
    if elems.length ≤ 2 then processing? (["tasksRemaining", "note"].zip elems) else none
  | .processed => if elems.isEmpty then some .processed else none
  | .failed => if elems.isEmpty then some .failed else none

/-- The stage that a value holds, with types read by `tag?`. -/
def ofJson? (tag? : Json → Option Tag) : Json → Option ProcessingStage
  | .obj members => do
    let tag ← (Json.find "type" members).required tag?
    ofMembers? members tag
  | .arr (v :: elems) => do
    let tag ← tag? v
    ofElems? elems tag
  | _ => none

/-- The stage that a text describes, where types have names only. -/
def ofText? (text : String) : Option ProcessingStage :=
  (Json.ofWholeDocument? text).bind (ofJson? Tag.named?)

def toJson : ProcessingStage → Json
  | .processing tasksRemaining note =>
    .obj ([("type", .str "processing"), ("tasksRemaining", Json.ofUInt32 tasksRemaining)]
      ++ Json.optionalMember "note" (note.map .str))
  | .processed => .obj [("type", .str "processed")]
  | .failed => .obj [("type", .str "failed")]

end ProcessingStage

end TreeBrowser
