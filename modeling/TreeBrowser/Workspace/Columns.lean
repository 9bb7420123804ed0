import TreeBrowser.Columns
import TreeBrowser.Text.NameOrder
import TreeBrowser.Workspace.Basic

/-!
# The columns of a workspace

The five columns of a workspace listing. Each orders entries by a key, and entries whose key is
empty, or zero, come after those that have one. Names are compared under a lower-case form given
for each character.
-/

namespace TreeBrowser.Workspace

/-- The order of texts with the empty text last. -/
def orderTexts (lower : Char → List Char) (a b : String) : Ordering :=
  if a = "" then (if b = "" then .eq else .gt)
  else if b = "" then .lt
  else Text.compareNamesBy lower a b

/-- The order of numbers with zero last. -/
def orderNumbers (a b : UInt64) : Ordering :=
  if a = 0 then (if b = 0 then .eq else .gt)
  else if b = 0 then .lt
  else compare a.toNat b.toNat

def mimeTypeKey (e : Entry WorkspaceEntry) : String :=
  match fileDataOf? e with
  | some data => data.mimeType
  | none => ""

def stageKey (e : Entry WorkspaceEntry) : String :=
  match fileDataOf? e with
  | some data => data.stage.display
  | none => ""

/-- The time of adding, zero when it is not known. -/
def addedOnKey (e : Entry WorkspaceEntry) : UInt64 :=
  e.data.addedOn.getD 0

variable (lower : Char → List Char)

/-- Folders come before files, each by name. -/
def orderByName (a b : Entry WorkspaceEntry) : Ordering :=
  if a.isNode = b.isNode then orderTexts lower a.name b.name
  else if a.isNode then .lt
  else .gt

def orderByAddedBy (a b : Entry WorkspaceEntry) : Ordering :=
  orderTexts lower a.data.addedBy.displayName b.data.addedBy.displayName

def orderByAddedOn (a b : Entry WorkspaceEntry) : Ordering :=
  orderNumbers (addedOnKey a) (addedOnKey b)

def orderByFileType (a b : Entry WorkspaceEntry) : Ordering :=
  orderTexts lower (mimeTypeKey a) (mimeTypeKey b)

def orderByStage (a b : Entry WorkspaceEntry) : Ordering :=
  orderTexts lower (stageKey a) (stageKey b)

def nameColumn : String :=
  "Name"

def columnsBy : List (Column WorkspaceEntry) :=
  [⟨nameColumn, .left, orderByName lower⟩,
   ⟨"Added By", .left, orderByAddedBy lower⟩,
   ⟨"Added On", .left, orderByAddedOn⟩,
   ⟨"File Type", .center, orderByFileType lower⟩,
   ⟨"Processing Stage", .center, orderByStage lower⟩]

def defaultColumns : Columns WorkspaceEntry :=
  ⟨nameColumn, false, columnsBy Text.lowerCase⟩

end TreeBrowser.Workspace
