import TreeBrowser.Json.Reader
import TreeBrowser.Json.Record

/-!
# Users

The part of a user's account that a workspace shows.
-/

namespace TreeBrowser

structure PartialUser where
  username : String
  displayName : String
  deriving DecidableEq

namespace PartialUser

def ofJson? (v : Json) : Option PartialUser := do
  let members ← Json.record? ["username", "displayName"] v
  let username ← (Json.find "username" members).required Json.str?
  let displayName ← (Json.find "displayName" members).required Json.str?
  return { username, displayName }

def ofText? (text : String) : Option PartialUser :=
  (Json.ofDocument? text).bind ofJson?

def toJson (user : PartialUser) : Json :=
  .obj [("username", .str user.username), ("displayName", .str user.displayName)]

end PartialUser

end TreeBrowser
