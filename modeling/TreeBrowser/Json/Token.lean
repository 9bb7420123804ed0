import TreeBrowser.Json.Numeral
import TreeBrowser.Json.Quoted

/-!
# Tokens

The tokens of a JSON text. A text is scanned one character at a time: marks stand for themselves,
a quoted text runs to the next quote that is not escaped, and any other run of characters up to a
blank, a mark or a quote is one word, a literal or a number.
-/

namespace TreeBrowser.Json

/-- A token. A quoted text that denotes no text is kept as absent. -/
inductive Token where
  | openObject
  | closeObject
  | openArray
  | closeArray
  | comma
  | colon
  | quoted (text : Option String)
  | scalar (value : Json)

namespace Token

def isBlank (c : Char) : Bool :=
  c == ' ' || c == '\n' || c == '\r' || c == '\t'

def ofMark? (c : Char) : Option Token :=
  if c = '\x7b' then some openObject
  else if c = '\x7d' then some closeObject
  else if c = '[' then some openArray
  else if c = ']' then some closeArray
  else if c = ',' then some comma
  else if c = ':' then some colon
  else none

end Token

/-- Where a scan stands. Characters of an unfinished token are held newest first. -/
inductive Scan.Place where
  | between
  | word (read : List Char)
  | quote (read : List Char)
  | escape (read : List Char)

/-- A scan of a text: the tokens found so far, newest first, and where it stands. -/
structure Scan where
  tokens : List Token
  place : Scan.Place

namespace Scan

def start : Scan :=
  ⟨[], .between⟩

/-- Finishes a word in progress. A quoted text cannot be finished so. -/
def settle : Scan → Option (List Token)
  | ⟨tokens, .between⟩ => some tokens
  | ⟨tokens, .word read⟩ => (ofWord? read.reverse).map fun v => .scalar v :: tokens
  | ⟨_, .quote _⟩ => none
  | ⟨_, .escape _⟩ => none

def begin (tokens : List Token) (c : Char) : Scan :=
  if Token.isBlank c then ⟨tokens, .between⟩
  else if c = '"' then ⟨tokens, .quote []⟩
  else match Token.ofMark? c with
    | some token => ⟨token :: tokens, .between⟩
    | none => ⟨tokens, .word [c]⟩

def endsWord (c : Char) : Bool :=
  Token.isBlank c || c == '"' || (Token.ofMark? c).isSome

def step (s : Scan) (c : Char) : Option Scan :=
  match s.place with
  | .between => some (begin s.tokens c)
  | .word read =>
    if endsWord c then s.settle.map (begin · c) else some ⟨s.tokens, .word (c :: read)⟩
  | .quote read =>
    if c = '"' then
      (Quoted.decode? read.reverse).map fun text => ⟨.quoted text :: s.tokens, .between⟩
    else if c = '\\' then some ⟨s.tokens, .escape (c :: read)⟩
    else if c < ' ' then none
    else some ⟨s.tokens, .quote (c :: read)⟩
  | .escape read => some ⟨s.tokens, .quote (c :: read)⟩

end Scan

def Token.ofChars? (cs : List Char) : Option (List Token) := do
  let s ← cs.foldlM Scan.step Scan.start
  let tokens ← s.settle
  return tokens.reverse

end TreeBrowser.Json
