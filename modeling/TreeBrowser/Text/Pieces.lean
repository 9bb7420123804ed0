/-!
# Pieces

A text cut at separators: its pieces are the longest runs of characters without a separator, so none
of them is empty.
-/

namespace TreeBrowser.Text

def closePiece (piece : List Char) (pieces : List (List Char)) : List (List Char) :=
  if piece.isEmpty then pieces else piece :: pieces

/-- The pieces of `cs`, of which the first continues `piece`, held newest first. -/
def piecesAfter (isSeparator : Char → Bool) (piece : List Char) : List Char → List (List Char)
  | [] => closePiece piece.reverse []
  | c :: cs =>
    if isSeparator c then closePiece piece.reverse (piecesAfter isSeparator [] cs)
    else piecesAfter isSeparator (c :: piece) cs

def pieces (isSeparator : Char → Bool) (text : String) : List String :=
  (piecesAfter isSeparator [] text.toList).map String.ofList

end TreeBrowser.Text
