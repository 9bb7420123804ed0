import TreeBrowser.Text.Pieces

/-!
# Blanks

The white space of Unicode, and the words of a text, which are its longest pieces without a blank.
-/

namespace TreeBrowser.Text

/-- The characters with the property `White_Space`. -/
def isBlank (c : Char) : Bool :=
  ('\t' ≤ c && c ≤ '\r') || c == ' ' || c == '\u0085' || c == '\u00A0' || c == '\u1680'
    || ('\u2000' ≤ c && c ≤ '\u200A') || c == '\u2028' || c == '\u2029' || c == '\u202F'
    || c == '\u205F' || c == '\u3000'

def trimChars (cs : List Char) : List Char :=
  ((cs.dropWhile isBlank).reverse.dropWhile isBlank).reverse

def trim (text : String) : String :=
  String.ofList (trimChars text.toList)

def words (text : String) : List String :=
  pieces isBlank text

def spaced (texts : List String) : String :=
  " ".intercalate texts

def lowerAscii (text : String) : String :=
  String.ofList (text.toList.map Char.toLower)

end TreeBrowser.Text
