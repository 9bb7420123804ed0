/-!
# Magnitudes

The size of a written number as a significand of 64 binary digits and a power of ten, and whether a
double can hold it. The digits beyond the significand are dropped, not rounded, so that a number
close to the largest double may count as smaller than it is written.
-/

namespace TreeBrowser.Json

/-- The number `significand * 10 ^ exponent`. -/
structure Magnitude where
  significand : Nat
  exponent : Int

namespace Magnitude

def appended (significand : Nat) (digit : Char) : Nat :=
  significand * 10 + (digit.toNat - '0'.toNat)

/-- The digits before the point, after those of a significand. From the first digit for which 64
binary digits are too few, each only raises the exponent. -/
def ofWhole (significand : Nat) : List Char → Magnitude
  | [] => ⟨significand, 0⟩
  | digit :: rest =>
    if appended significand digit < UInt64.size then ofWhole (appended significand digit) rest
    else ⟨significand, rest.length + 1⟩

/-- The digits after the point, up to the first one for which 64 binary digits are too few. -/
def withFraction (m : Magnitude) : List Char → Magnitude
  | [] => m
  | digit :: rest =>
    if appended m.significand digit < UInt64.size then
      withFraction ⟨appended m.significand digit, m.exponent - 1⟩ rest
    else m

def ofDigits (whole fraction : List Char) (exponent : Int) : Magnitude :=
  let m := (ofWhole 0 whole).withFraction fraction
  { m with exponent := m.exponent + exponent }

theorem significand_ofWhole_lt {significand : Nat} (h : significand < UInt64.size)
    (digits : List Char) : (ofWhole significand digits).significand < UInt64.size := by
  induction digits generalizing significand with
  | nil => exact h
  | cons digit rest ih =>
    rw [ofWhole]
    split
    · exact ih (by assumption)
    · exact h

theorem significand_withFraction_lt {m : Magnitude} (h : m.significand < UInt64.size)
    (digits : List Char) : (m.withFraction digits).significand < UInt64.size := by
  induction digits generalizing m with
  | nil => exact h
  | cons digit rest ih =>
    rw [withFraction]
    split
    · exact ih (by assumption)
    · exact h

theorem significand_ofDigits_lt (whole fraction : List Char) (exponent : Int) :
    (ofDigits whole fraction exponent).significand < UInt64.size :=
  significand_withFraction_lt (significand_ofWhole_lt (by decide) whole) fraction

/-- The double nearest to a natural number, when the size of doubles has no bound: 53 binary digits
are kept, and a half goes to the even neighbour. -/
def nearestDouble (n : Nat) : Nat :=
  let unit := Nat.pow 2 (n.log2 + 1 - 53)
  let kept := n / unit
  let dropped := n % unit
  if unit < 2 * dropped || (unit == 2 * dropped && kept % 2 == 1) then (kept + 1) * unit
  else kept * unit

/-- The least product that rounds to no finite double. -/
def doubleBound : Nat :=
  Nat.pow 2 1024 - Nat.pow 2 970

/-- Whether the magnitude, taken as the product of two doubles, is a finite one. The largest power of
ten that is a finite double is the 308th. -/
def fitsDouble (m : Magnitude) : Bool :=
  if m.significand = 0 || m.exponent ≤ 0 then true
  else if 308 < m.exponent then false
  else nearestDouble m.significand * nearestDouble (Nat.pow 10 m.exponent.toNat) < doubleBound

end Magnitude

end TreeBrowser.Json
