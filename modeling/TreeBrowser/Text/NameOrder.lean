import TreeBrowser.Text.LowerCase

/-!
# The order of names

Names are compared without regard to case, character by character in the order of code points;
names that differ in case alone are told apart by the names as they are.
-/

namespace TreeBrowser.Text

def compareChars : List Char → List Char → Ordering :=
  List.compareLex compare

/-- Compares names under a lower-case form given for each character. -/
def compareNamesBy (lower : Char → List Char) (a b : String) : Ordering :=
  (compareChars (a.toList.flatMap lower) (b.toList.flatMap lower)).then
    (compareChars a.toList b.toList)

def compareNames : String → String → Ordering :=
  compareNamesBy lowerCase

end TreeBrowser.Text
