import TreeBrowser.Json.Basic

/-!
# Records

How the fields of a record are found in a JSON value. A record is an object with a member for each
field, in any order and among members of other names, or an array of the fields in their declared
order, of which the last may be left out. A field may not be given twice.
-/

namespace TreeBrowser.Json

/-- What the members of an object hold under one key. -/
inductive Found (β : Type) where
  | missing
  | once (v : β)
  | repeated

def find {β : Type} (key : String) (members : List (String × β)) : Found β :=
  match members.filter (·.1 == key) with
  | [] => .missing
  | [(_, v)] => .once v
  | _ => .repeated

namespace Found

variable {α β : Type}

def required (fits : β → Option α) : Found β → Option α
  | .once v => fits v
  | _ => none

def defaulted (value : α) (fits : β → Option α) : Found β → Option α
  | .missing => some value
  | .once v => fits v
  | .repeated => none

def optional (fits : Json → Option α) : Found Json → Option (Option α)
  | .missing => some none
  | .once .null => some none
  | .once v => (fits v).map some
  | .repeated => none

end Found

def record? (fields : List String) : Json → Option (List (String × Json))
  | .obj members => some members
  | .arr elems => if elems.length ≤ fields.length then some (fields.zip elems) else none
  | _ => none

def object? : Json → Option (List (String × Json))
  | .obj members => some members
  | _ => none

def bool? : Json → Option Bool
  | .bool value => some value
  | _ => none

def str? : Json → Option String
  | .str value => some value
  | _ => none

def natBelow? (bound : Nat) : Json → Option Nat
  | .int (.ofNat n) => if n < bound then some n else none
  | _ => none

def uint32? (v : Json) : Option UInt32 :=
  (natBelow? UInt32.size v).map UInt32.ofNat

def uint64? (v : Json) : Option UInt64 :=
  (natBelow? UInt64.size v).map UInt64.ofNat

def list? {α : Type} (fits : Json → Option α) : Json → Option (List α)
  | .arr elems => elems.mapM fits
  | _ => none

/-- The name of a case without fields: the name alone, or an object that gives it a null. -/
def caseName? : Json → Option String
  | .str name => some name
  | .obj [(name, .null)] => some name
  | _ => none

def ofUInt32 (n : UInt32) : Json :=
  .int n.toNat

def ofUInt64 (n : UInt64) : Json :=
  .int n.toNat

def optionalMember (key : String) : Option Json → List (String × Json)
  | none => []
  | some v => [(key, v)]

end TreeBrowser.Json
