import TreeBrowser.Json.Token

/-!
# Reading JSON

Tokens are read one at a time by a machine that keeps the arrays and objects it is inside of. A text
is accepted when its tokens end right after one value. The machine knows no limit of its own; who
reads a text clips it to the depth that is allowed there.
-/

namespace TreeBrowser.Json

/-- An array or object that is still open, with its finished parts newest first. An object waits for
the value of `key`; a key that denotes no text makes the whole object unreadable. -/
inductive Frame where
  | elems (done : List Json)
  | members (done : List (Option String × Json)) (key : Option String)

inductive Reading where
  /-- A value. -/
  | value (outer : List Frame)
  /-- The first element of an array, or its end. -/
  | firstElem (outer : List Frame)
  /-- The first key of an object, or its end. -/
  | firstKey (outer : List Frame)
  /-- The next key of an object. -/
  | nextKey (done : List (Option String × Json)) (outer : List Frame)
  /-- The colon after a key. -/
  | colon (done : List (Option String × Json)) (key : Option String) (outer : List Frame)
  /-- A separator or the end of what is open, now that a value is complete. -/
  | after (v : Json) (outer : List Frame)

namespace Reading

def object (done : List (Option String × Json)) : Json :=
  match done.reverse.mapM fun (key, v) => key.map fun key => (key, v) with
  | some members => .obj members
  | none => .unreadable

def begin (outer : List Frame) : Token → Option Reading
  | .openObject => some (.firstKey outer)
  | .openArray => some (.firstElem outer)
  | .quoted (some text) => some (.after (.str text) outer)
  | .quoted none => some (.after .unreadable outer)
  | .scalar v => some (.after v outer)
  | _ => none

def step : Reading → Token → Option Reading
  | .value outer, token => begin outer token
  | .firstElem outer, .closeArray => some (.after (.arr []) outer)
  | .firstElem outer, token => begin (.elems [] :: outer) token
  | .firstKey outer, .closeObject => some (.after (.obj []) outer)
  | .firstKey outer, .quoted key => some (.colon [] key outer)
  | .nextKey done outer, .quoted key => some (.colon done key outer)
  | .colon done key outer, .colon => some (.value (.members done key :: outer))
  | .after v (.elems done :: outer), .comma => some (.value (.elems (v :: done) :: outer))
  | .after v (.elems done :: outer), .closeArray =>
    some (.after (.arr (v :: done).reverse) outer)
  | .after v (.members done key :: outer), .comma => some (.nextKey ((key, v) :: done) outer)
  | .after v (.members done key :: outer), .closeObject =>
    some (.after (object ((key, v) :: done)) outer)
  | _, _ => none

def result? : Reading → Option Json
  | .after v [] => some v
  | _ => none

end Reading

def ofTokens? (tokens : List Token) : Option Json := do
  let reading ← tokens.foldlM Reading.step (.value [])
  reading.result?

def ofText? (text : String) : Option Json := do
  let tokens ← Token.ofChars? text.toList
  ofTokens? tokens

def depthLimit : Nat :=
  127

/-- The value of a document whose unread parts may hold anything the grammar admits. -/
def ofDocument? (text : String) : Option Json :=
  (ofText? text).map (clip depthLimit)

/-- The value of a document every part of which must denote something. -/
def ofWholeDocument? (text : String) : Option Json :=
  (ofDocument? text).filter readable

end TreeBrowser.Json
