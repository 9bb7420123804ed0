import TreeBrowser.Json.Quoted

/-!
# Writing JSON

The compact form, without blanks, and the indented form, which puts each element and member on a
line of its own. Both write members in the order in which the value holds them.
-/

namespace TreeBrowser.Json

def intChars : Int → List Char
  | .ofNat n => Nat.toDigits 10 n
  | .negSucc n => '-' :: Nat.toDigits 10 (n + 1)

def scalarChars : Json → List Char
  | .bool true => ['t', 'r', 'u', 'e']
  | .bool false => ['f', 'a', 'l', 's', 'e']
  | .int value => intChars value
  | .decimal text => text.toList
  | .str value => Quoted.encode value
  | _ => ['n', 'u', 'l', 'l']

def joined (separator : List Char) : List (List Char) → List Char
  | [] => []
  | [item] => item
  | item :: rest => item ++ separator ++ joined separator rest

mutual

def compact : Json → List Char
  | .arr elems => '[' :: joined [','] (compactElems elems) ++ [']']
  | .obj members => '\x7b' :: joined [','] (compactMembers members) ++ ['\x7d']
  | v => scalarChars v

def compactElems : List Json → List (List Char)
  | [] => []
  | v :: rest => compact v :: compactElems rest

def compactMembers : List (String × Json) → List (List Char)
  | [] => []
  | (key, v) :: rest => (Quoted.encode key ++ ':' :: compact v) :: compactMembers rest

end

def newLine (level : Nat) : List Char :=
  '\n' :: List.replicate (2 * level) ' '

def block (first last : Char) (level : Nat) : List (List Char) → List Char
  | [] => [first, last]
  | items => first :: newLine (level + 1) ++ joined (',' :: newLine (level + 1)) items
      ++ newLine level ++ [last]

mutual

def indented (level : Nat) : Json → List Char
  | .arr elems => block '[' ']' level (indentedElems level elems)
  | .obj members => block '\x7b' '\x7d' level (indentedMembers level members)
  | v => scalarChars v

def indentedElems (level : Nat) : List Json → List (List Char)
  | [] => []
  | v :: rest => indented (level + 1) v :: indentedElems level rest

def indentedMembers (level : Nat) : List (String × Json) → List (List Char)
  | [] => []
  | (key, v) :: rest =>
    (Quoted.encode key ++ [':', ' '] ++ indented (level + 1) v) :: indentedMembers level rest

end

def toText (v : Json) : String :=
  String.ofList v.compact

def toIndentedText (v : Json) : String :=
  String.ofList (v.indented 0)

end TreeBrowser.Json
