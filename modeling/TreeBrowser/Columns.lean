import TreeBrowser.Json.Reader
import TreeBrowser.Json.Record
import TreeBrowser.Text.Literal
import TreeBrowser.Tree.Entry

/-!
# Columns

The columns of a listing, each with its own order of entries, and which of them sorts the siblings.
-/

namespace TreeBrowser

inductive Align where
  | left
  | center
  | right
  deriving DecidableEq

namespace Align

def name : Align → String
  | .left => "left"
  | .center => "center"
  | .right => "right"

def literal : Align → String
  | .left => "Left"
  | .center => "Center"
  | .right => "Right"

def ofName? (name : String) : Option Align :=
  [left, center, right].find? fun align => align.name == name

def ofJson? (v : Json) : Option Align :=
  (Json.caseName? v).bind ofName?

def ofText? (text : String) : Option Align :=
  (Json.ofDocument? text).bind ofJson?

def toJson (align : Align) : Json :=
  .str align.name

end Align

structure Column (α : Type) where
  name : String
  align : Align
  order : Entry α → Entry α → Ordering

/-- The columns in the order in which they stand, the name of the one that sorts, and the
direction. -/
structure Columns (α : Type) where
  sortColumn : String
  descending : Bool
  list : List (Column α)

namespace Columns

variable {α : Type}

def active? (c : Columns α) : Option (Column α) :=
  c.list.find? fun column => column.name == c.sortColumn

def has (c : Columns α) (name : String) : Bool :=
  c.list.any fun column => column.name == name

/-- A click on a header: the column that sorts already turns its direction round, and any other
begins to sort upward. A name that no column has changes nothing. -/
def click (c : Columns α) (name : String) : Columns α :=
  if !c.has name then c
  else if c.sortColumn = name then { c with descending := !c.descending }
  else { c with sortColumn := name, descending := false }

/-- Siblings by the active column, those that it does not tell apart in their given order; a
descending listing is the whole reversed. -/
def sort (c : Columns α) (entries : List (Entry α)) : List (Entry α) :=
  let sorted := match c.active? with
    | some column => entries.mergeSort fun a b => (column.order a b).isLE
    | none => entries
  if c.descending then sorted.reverse else sorted

def columnLiteral (column : Column α) : String :=
  "Column \x7b name: " ++ Text.literal column.name ++ ", align: " ++ column.align.literal
    ++ ", .. \x7d"

def literal (c : Columns α) : String :=
  Text.recordLiteral "ColumnsConfig"
    [("sort_column", Text.literal c.sortColumn), ("sort_descending", toString c.descending),
     ("columns", Text.listLiteral (c.list.map columnLiteral))]

end Columns

end TreeBrowser
