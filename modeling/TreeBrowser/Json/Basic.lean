/-!
# JSON values

Values of a JSON document as written: members of an object keep their order and may repeat a key,
and a number written as a plain integer stays exact. What the grammar admits although it denotes
nothing is kept as `unreadable`, so that a reader can pass over it in a place it does not look at.
-/

namespace TreeBrowser

/-- A JSON value. `decimal` holds the text of a number that is not written as an integer. -/
inductive Json where
  | null
  | bool (value : Bool)
  | int (value : Int)
  | decimal (text : String)
  | str (value : String)
  | arr (elems : List Json)
  | obj (members : List (String × Json))
  | unreadable

namespace Json

mutual

def depth : Json → Nat
  | .arr elems => depthElems elems + 1
  | .obj members => depthMembers members + 1
  | _ => 0

def depthElems : List Json → Nat
  | [] => 0
  | v :: rest => max (depth v) (depthElems rest)

def depthMembers : List (String × Json) → Nat
  | [] => 0
  | (_, v) :: rest => max (depth v) (depthMembers rest)

end

mutual

/-- Whether every part of the value denotes something. -/
def readable : Json → Bool
  | .unreadable => false
  | .arr elems => readableElems elems
  | .obj members => readableMembers members
  | _ => true

def readableElems : List Json → Bool
  | [] => true
  | v :: rest => readable v && readableElems rest

def readableMembers : List (String × Json) → Bool
  | [] => true
  | (_, v) :: rest => readable v && readableMembers rest

end

mutual

/-- The value with every array and object that lies inside `limit` others made unreadable. -/
def clip : Nat → Json → Json
  | 0, .arr _ => .unreadable
  | 0, .obj _ => .unreadable
  | limit + 1, .arr elems => .arr (clipElems limit elems)
  | limit + 1, .obj members => .obj (clipMembers limit members)
  | _, v => v

def clipElems (limit : Nat) : List Json → List Json
  | [] => []
  | v :: rest => clip limit v :: clipElems limit rest

def clipMembers (limit : Nat) : List (String × Json) → List (String × Json)
  | [] => []
  | (k, v) :: rest => (k, clip limit v) :: clipMembers limit rest

end

mutual

/-- The value with, in each object, the last member of each key alone. -/
def lastMembers : Json → Json
  | .arr elems => .arr (lastMembersElems elems)
  | .obj members => .obj (lastOfEachKey members)
  | v => v

def lastMembersElems : List Json → List Json
  | [] => []
  | v :: rest => lastMembers v :: lastMembersElems rest

def lastOfEachKey : List (String × Json) → List (String × Json)
  | [] => []
  | (key, v) :: rest =>
    if rest.any (·.1 == key) then lastOfEachKey rest
    else (key, lastMembers v) :: lastOfEachKey rest

end

end Json

end TreeBrowser
