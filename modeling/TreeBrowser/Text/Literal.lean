import TreeBrowser.Text.Printable

/-!
# Literals

Values written out for a reader of a transcript: a text stands between quotes with all that would
not show escaped, a list between brackets, a record after its name with its fields between braces.
-/

namespace TreeBrowser.Text

def codeEscape (c : Char) : List Char :=
  ['\\', 'u', '\x7b'] ++ Nat.toDigits 16 c.toNat ++ ['\x7d']

def literalChar (c : Char) : List Char :=
  if c = '\x00' then ['\\', '0']
  else if c = '\t' then ['\\', 't']
  else if c = '\r' then ['\\', 'r']
  else if c = '\n' then ['\\', 'n']
  else if c = '"' then ['\\', '"']
  else if c = '\\' then ['\\', '\\']
  else if extendsGrapheme c || !isVisible c then codeEscape c
  else [c]

def literal (text : String) : String :=
  String.ofList ('"' :: (text.toList.flatMap literalChar ++ ['"']))

def listLiteral (items : List String) : String :=
  "[" ++ ", ".intercalate items ++ "]"

def recordLiteral (name : String) (fields : List (String × String)) : String :=
  name ++ " \x7b " ++ ", ".intercalate (fields.map fun (field, value) => field ++ ": " ++ value)
    ++ " \x7d"

end TreeBrowser.Text
