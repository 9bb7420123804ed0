import TreeBrowser.Json.Basic

/-!
# Quoted text

Strings as JSON writes them. Writing escapes the quote, the backslash and control characters and
nothing else. Reading turns the characters between two quotes into code units, of which a leading
and a trailing surrogate that follow one another make one character.
-/

namespace TreeBrowser.Json.Quoted

def hexDigit (n : Nat) : Char :=
  Nat.digitChar (n % 16)

def escapeControl (c : Char) : List Char :=
  ['\\', 'u', '0', '0', hexDigit (c.toNat / 16), hexDigit c.toNat]

def escapeChar (c : Char) : List Char :=
  if c = '"' then ['\\', '"']
  else if c = '\\' then ['\\', '\\']
  else if c = '\x08' then ['\\', 'b']
  else if c = '\x0c' then ['\\', 'f']
  else if c = '\n' then ['\\', 'n']
  else if c = '\r' then ['\\', 'r']
  else if c = '\t' then ['\\', 't']
  else if c < ' ' then escapeControl c
  else [c]

def encode (text : String) : List Char :=
  '"' :: (text.toList.flatMap escapeChar ++ ['"'])

def hexValue? (c : Char) : Option Nat :=
  if '0' ≤ c ∧ c ≤ '9' then some (c.toNat - '0'.toNat)
  else if 'a' ≤ c ∧ c ≤ 'f' then some (c.toNat - 'a'.toNat + 10)
  else if 'A' ≤ c ∧ c ≤ 'F' then some (c.toNat - 'A'.toNat + 10)
  else none

def hexUnit? (a b c d : Char) : Option Nat := do
  let a ← hexValue? a
  let b ← hexValue? b
  let c ← hexValue? c
  let d ← hexValue? d
  return ((a * 16 + b) * 16 + c) * 16 + d

def shortEscape? (c : Char) : Option Nat :=
  if c = '"' ∨ c = '\\' ∨ c = '/' then some c.toNat
  else if c = 'b' then some 8
  else if c = 'f' then some 12
  else if c = 'n' then some 10
  else if c = 'r' then some 13
  else if c = 't' then some 9
  else none

def units? : List Char → Option (List Nat)
  | [] => some []
  | '\\' :: 'u' :: a :: b :: c :: d :: rest => do
    let unit ← hexUnit? a b c d
    let units ← units? rest
    return unit :: units
  | '\\' :: c :: rest => do
    let unit ← shortEscape? c
    let units ← units? rest
    return unit :: units
  | c :: rest => if c = '\\' then none else (units? rest).map (c.toNat :: ·)

def isLeading (unit : Nat) : Bool :=
  0xD800 ≤ unit && unit < 0xDC00

def isTrailing (unit : Nat) : Bool :=
  0xDC00 ≤ unit && unit < 0xE000

def pairCode (leading trailing : Nat) : Nat :=
  0x10000 + (leading - 0xD800) * 0x400 + (trailing - 0xDC00)

/-- The characters of code units; none when half of a pair stands alone. -/
def ofUnits? : List Nat → Option (List Char)
  | [] => some []
  | [unit] => if isLeading unit || isTrailing unit then none else some [Char.ofNat unit]
  | unit :: next :: rest =>
    if isLeading unit then
      if isTrailing next then (ofUnits? rest).map (Char.ofNat (pairCode unit next) :: ·) else none
    else if isTrailing unit then none
    else (ofUnits? (next :: rest)).map (Char.ofNat unit :: ·)

/-- The text between two quotes. The outer option is absent when the escapes are malformed, the
inner one when they are well formed and denote no text. -/
def decode? (body : List Char) : Option (Option String) :=
  (units? body).map fun units => (ofUnits? units).map String.ofList

end TreeBrowser.Json.Quoted
