import TreeBrowser.Json.Reader
import TreeBrowser.Json.Record

/-!
# Snapshots

The nested form in which a tree of folders and files is sent: a folder holds its children, a file
holds none and says whether there is more to fetch below it. Reading takes an entry for a folder if
it fits one and for a file otherwise, so an entry whose children do not fit loses them.
-/

namespace TreeBrowser

/-- An id is an opaque text; ids are the same when they are equal. -/
abbrev EntryId := String

inductive Snapshot (α : Type) where
  | node (id : EntryId) (name : String) (data : α) (children : List (Snapshot α))
  | leaf (id : EntryId) (name : String) (data : α) (expandable : Bool)

namespace Snapshot

variable {α : Type}

def id : Snapshot α → EntryId
  | .node id _ _ _ => id
  | .leaf id _ _ _ => id

def nodeFields : List String :=
  ["id", "name", "data", "children"]

def leafFields : List String :=
  ["id", "name", "data", "isExpandable"]

/-- A folder with the given members. `children` says for each member what children it holds. -/
def node? (data? : Json → Option α) (members : List (String × Json))
    (children : List (String × Option (List (Snapshot α)))) : Option (Snapshot α) := do
  let id ← (Json.find "id" members).required Json.str?
  let name ← (Json.find "name" members).required Json.str?
  let data ← (Json.find "data" members).required data?
  let children ← (Json.find "children" children).required fun c => c
  return .node id name data children

def leaf? (data? : Json → Option α) (members : List (String × Json)) : Option (Snapshot α) := do
  let id ← (Json.find "id" members).required Json.str?
  let name ← (Json.find "name" members).required Json.str?
  let data ← (Json.find "data" members).required data?
  let expandable ← (Json.find "isExpandable" members).defaulted false Json.bool?
  return .leaf id name data expandable

mutual

def ofJson? (data? : Json → Option α) : Json → Option (Snapshot α)
  | .obj members =>
    node? data? members (membersChildren data? members) <|> leaf? data? members
  | .arr elems =>
    if elems.length ≤ 4 then
      node? data? (nodeFields.zip elems) (nodeFields.zip (elemsChildren data? elems))
        <|> leaf? data? (leafFields.zip elems)
    else none
  | _ => none

def children? (data? : Json → Option α) : Json → Option (List (Snapshot α))
  | .arr elems => ofElems? data? elems
  | _ => none

def ofElems? (data? : Json → Option α) : List Json → Option (List (Snapshot α))
  | [] => some []
  | v :: rest => do
    let entry ← ofJson? data? v
    let entries ← ofElems? data? rest
    return entry :: entries

def elemsChildren (data? : Json → Option α) : List Json → List (Option (List (Snapshot α)))
  | [] => []
  | v :: rest => children? data? v :: elemsChildren data? rest

def membersChildren (data? : Json → Option α) :
    List (String × Json) → List (String × Option (List (Snapshot α)))
  | [] => []
  | (key, v) :: rest => (key, children? data? v) :: membersChildren data? rest

end

def ofText? (data? : Json → Option α) (text : String) : Option (Snapshot α) :=
  (Json.ofWholeDocument? text).bind (ofJson? data?)

def ofTextAnyData? (text : String) : Option (Snapshot Json) :=
  ofText? (fun v => some v.lastMembers) text

mutual

def toJson (dataJson : α → Json) : Snapshot α → Json
  | .node id name data children =>
    .obj [("id", .str id), ("name", .str name), ("data", dataJson data),
      ("children", .arr (listJson dataJson children))]
  | .leaf id name data expandable =>
    .obj [("id", .str id), ("name", .str name), ("data", dataJson data),
      ("isExpandable", .bool expandable)]

def listJson (dataJson : α → Json) : List (Snapshot α) → List Json
  | [] => []
  | entry :: rest => toJson dataJson entry :: listJson dataJson rest

end

end Snapshot

end TreeBrowser
