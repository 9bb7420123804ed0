import TreeBrowser.Json.Basic
import TreeBrowser.Json.Magnitude

/-!
# Numerals

The written form of a JSON number: a sign, digits without a needless zero in front, and possibly a
fraction and an exponent. A plain integer keeps its exact value; any other numeral keeps its text;
one whose magnitude no double can hold denotes nothing.
-/

namespace TreeBrowser.Json

/-- The parts of a written number. A fraction or exponent that is present has digits. -/
structure Numeral where
  negative : Bool
  whole : List Char
  fraction : List Char
  exponent : Option Int

namespace Numeral

def natOfDigits (digits : List Char) : Nat :=
  Nat.ofDigitChars 10 digits 0

/-- The digits of the whole part: no zero stands in front of another digit. -/
def whole? (cs : List Char) : Option (List Char × List Char) :=
  match cs.takeWhile Char.isDigit with
  | [] => none
  | '0' :: _ :: _ => none
  | digits => some (digits, cs.dropWhile Char.isDigit)

def fraction? : List Char → Option (List Char × List Char)
  | '.' :: cs =>
    match cs.takeWhile Char.isDigit with
    | [] => none
    | digits => some (digits, cs.dropWhile Char.isDigit)
  | cs => some ([], cs)

def digitsToEnd? (cs : List Char) : Option Nat :=
  if cs ≠ [] ∧ cs.all Char.isDigit then some (natOfDigits cs) else none

def exponent? : List Char → Option (Option Int)
  | [] => some none
  | c :: cs =>
    if c = 'e' ∨ c = 'E' then
      match cs with
      | '+' :: ds => (digitsToEnd? ds).map fun n => some (n : Int)
      | '-' :: ds => (digitsToEnd? ds).map fun n => some (-(n : Int))
      | ds => (digitsToEnd? ds).map fun n => some (n : Int)
    else none

def unsigned? (negative : Bool) (cs : List Char) : Option Numeral := do
  let (whole, cs) ← whole? cs
  let (fraction, cs) ← fraction? cs
  let exponent ← exponent? cs
  return { negative, whole, fraction, exponent }

def ofChars? : List Char → Option Numeral
  | '-' :: cs => unsigned? true cs
  | cs => unsigned? false cs

def magnitude (n : Numeral) : Magnitude :=
  .ofDigits n.whole n.fraction (n.exponent.getD 0)

/-- Whether the number is written as an integer. A minus zero is not. -/
def isInteger (n : Numeral) : Bool :=
  n.fraction.isEmpty && n.exponent.isNone && !(n.negative && n.whole == ['0'])

def toJson (text : List Char) (n : Numeral) : Json :=
  if n.magnitude.fitsDouble then
    if n.isInteger then
      .int (if n.negative then -(natOfDigits n.whole : Int) else natOfDigits n.whole)
    else .decimal (String.ofList text)
  else .unreadable

end Numeral

def ofWord? (word : List Char) : Option Json :=
  if word = ['n', 'u', 'l', 'l'] then some .null
  else if word = ['t', 'r', 'u', 'e'] then some (.bool true)
  else if word = ['f', 'a', 'l', 's', 'e'] then some (.bool false)
  else (Numeral.ofChars? word).map (Numeral.toJson word)

end TreeBrowser.Json
