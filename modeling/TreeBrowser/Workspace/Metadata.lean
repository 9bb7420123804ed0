import TreeBrowser.Workspace.User

/-!
# Workspace metadata

What a workspace says of itself beside its tree.
-/

namespace TreeBrowser

structure WorkspaceMetadata where
  id : String
  name : String
  isPublic : Bool
  tagColor : String
  owner : PartialUser
  creator : PartialUser
  followers : List PartialUser
  deriving DecidableEq

namespace WorkspaceMetadata

def fields : List String :=
  ["id", "name", "isPublic", "tagColor", "owner", "creator", "followers"]

def ofMembers? (members : List (String × Json)) : Option WorkspaceMetadata := do
  let id ← (Json.find "id" members).required Json.str?
  let name ← (Json.find "name" members).required Json.str?
  let isPublic ← (Json.find "isPublic" members).defaulted false Json.bool?
  let tagColor ← (Json.find "tagColor" members).defaulted "" Json.str?
  let owner ← (Json.find "owner" members).required PartialUser.ofJson?
  let creator ← (Json.find "creator" members).required PartialUser.ofJson?
  let followers ← (Json.find "followers" members).defaulted [] (Json.list? PartialUser.ofJson?)
  return { id, name, isPublic, tagColor, owner, creator, followers }

def ofJson? (v : Json) : Option WorkspaceMetadata :=
  (Json.record? fields v).bind ofMembers?

def ofText? (text : String) : Option WorkspaceMetadata :=
  (Json.ofDocument? text).bind ofJson?

def toMembers (m : WorkspaceMetadata) : List (String × Json) :=
  [("id", .str m.id), ("name", .str m.name), ("isPublic", .bool m.isPublic),
   ("tagColor", .str m.tagColor), ("owner", m.owner.toJson), ("creator", m.creator.toJson),
   ("followers", .arr (m.followers.map PartialUser.toJson))]

def toJson (m : WorkspaceMetadata) : Json :=
  .obj m.toMembers

end WorkspaceMetadata

end TreeBrowser
