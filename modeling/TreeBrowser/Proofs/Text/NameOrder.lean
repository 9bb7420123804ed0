import Mathlib.Order.Defs.LinearOrder
import TreeBrowser.Text.NameOrder

/-!
# Names are totally ordered

The order of names compares two keys one after the other, the lower-case form and the name as it is.
Whatever the lower-case forms of single characters are, this is a total order. It refines the
lexicographic order of the lower-case forms, which may be of other lengths than the names and the
same for different ones.
-/

namespace TreeBrowser.Text

instance : Std.TransCmp compareChars :=
  inferInstanceAs (Std.TransCmp (List.compareLex compare))

instance : Std.LawfulEqCmp compareChars :=
  inferInstanceAs (Std.LawfulEqCmp (List.compareLex compare))

/-! ## Texts as code points -/

def codePoints (chars : List Char) : List Nat :=
  chars.map Char.toNat

theorem codePoints_inj {xs ys : List Char} : codePoints xs = codePoints ys ↔ xs = ys := by
  unfold codePoints
  apply List.map_inj_right
  intro x y h
  exact Char.toNat_inj.1 h

theorem compare_eq_lt_iff_toNat_lt {x y : Char} : compare x y = .lt ↔ x.toNat < y.toNat :=
  compareOfLessAndEq_eq_lt

theorem compareChars_eq_lt_iff {xs ys : List Char} :
    compareChars xs ys = .lt ↔ List.Lex (· < ·) (codePoints xs) (codePoints ys) := by
  unfold compareChars codePoints
  induction xs generalizing ys with
  | nil =>
    cases ys with
    | nil => simp [List.compareLex_nil_nil]
    | cons y ys => simp [List.compareLex_nil_cons]
  | cons x xs ih =>
    cases ys with
    | nil => simp [List.compareLex_cons_nil]
    | cons y ys =>
      rw [List.compareLex_cons_cons, Ordering.then_eq_lt, ih, compare_eq_lt_iff_toNat_lt,
        Std.LawfulEqOrd.compare_eq_iff_eq, List.map_cons, List.map_cons, List.cons_lex_cons_iff,
        Char.toNat_inj]

/-! ## Names -/

section Names

variable (lower : Char → List Char)

instance : Std.TransCmp (compareNamesBy lower) :=
  inferInstanceAs (Std.TransCmp (compareLex
    (Ordering.byKey (fun name : String => name.toList.flatMap lower) compareChars)
    (Ordering.byKey String.toList compareChars)))

instance : Std.LawfulEqCmp (compareNamesBy lower) where
  eq_of_compare {a b} h := by
    have hchars : compareChars a.toList b.toList = .eq := (Ordering.then_eq_eq.1 h).2
    exact String.toList_inj.1 (Std.LawfulEqCmp.eq_of_compare hchars)

def loweredPoints (name : String) : List Nat :=
  codePoints (name.toList.flatMap lower)

/-- The lower-case forms decide, and between names with the same lower-case form the names
themselves. -/
theorem compareNamesBy_eq_lt_iff {a b : String} :
    compareNamesBy lower a b = .lt ↔
      List.Lex (· < ·) (loweredPoints lower a) (loweredPoints lower b) ∨
        loweredPoints lower a = loweredPoints lower b ∧
          List.Lex (· < ·) (codePoints a.toList) (codePoints b.toList) := by
  rw [compareNamesBy, Ordering.then_eq_lt, compareChars_eq_lt_iff, compareChars_eq_lt_iff,
    Std.LawfulEqCmp.compare_eq_iff_eq, loweredPoints, loweredPoints, codePoints_inj]

/-- Names are totally ordered, for any lower-case forms of single characters. Names with different
lower-case forms stand as these do in the lexicographic order of code points. -/
theorem names_totally_ordered (a b c : String) :
    (compareNamesBy lower a b = .eq ↔ a = b) ∧
    compareNamesBy lower b a = (compareNamesBy lower a b).swap ∧
    (compareNamesBy lower a b = .lt → compareNamesBy lower b c = .lt →
      compareNamesBy lower a c = .lt) ∧
    (loweredPoints lower a ≠ loweredPoints lower b →
      (compareNamesBy lower a b = .lt ↔
        List.Lex (· < ·) (loweredPoints lower a) (loweredPoints lower b)) ∧
      (compareNamesBy lower a b = .gt ↔
        List.Lex (· < ·) (loweredPoints lower b) (loweredPoints lower a))) := by
  refine ⟨Std.LawfulEqCmp.compare_eq_iff_eq, Std.OrientedCmp.eq_swap, Std.TransCmp.lt_trans, ?_⟩
  intro hne
  have hgt : compareNamesBy lower a b = .gt ↔ compareNamesBy lower b a = .lt :=
    Std.OrientedCmp.gt_iff_lt
  constructor
  · rw [compareNamesBy_eq_lt_iff]
    simp [hne]
  · rw [hgt, compareNamesBy_eq_lt_iff]
    simp [hne.symm]

/-- Three names with one lower-case form, of which the last is a single character, and a name with
another lower-case form but a lesser code point. -/
theorem names_totally_ordered_dotted :
    let capital := "I\u0307"
    let small := "i\u0307"
    let dotted := "\u0130"
    loweredPoints lowerCase capital = loweredPoints lowerCase dotted ∧
      compareNames capital small = .lt ∧ compareNames small dotted = .lt ∧
      compareNames capital dotted = .lt ∧
      loweredPoints lowerCase dotted ≠ loweredPoints lowerCase "J" ∧
      compareNames dotted "J" = .lt := by
  intro capital small dotted
  have hsame : loweredPoints lowerCase capital = loweredPoints lowerCase dotted := by
    decide +kernel
  have hfirst : compareNames capital small = .lt := by decide +kernel
  have hsecond : compareNames small dotted = .lt := by decide +kernel
  have hne : loweredPoints lowerCase dotted ≠ loweredPoints lowerCase "J" := by decide +kernel
  have hlex : List.Lex (· < ·) (loweredPoints lowerCase dotted) (loweredPoints lowerCase "J") := by
    decide +kernel
  obtain ⟨-, -, htrans, -⟩ := names_totally_ordered lowerCase capital small dotted
  obtain ⟨-, -, -, hlower⟩ := names_totally_ordered lowerCase dotted "J" ""
  exact ⟨hsame, hfirst, hsecond, htrans hfirst hsecond, hne, (hlower hne).1.2 hlex⟩

end Names

end TreeBrowser.Text
