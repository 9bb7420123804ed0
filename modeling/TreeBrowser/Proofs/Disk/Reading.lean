import TreeBrowser.Proofs.Disk.Growth
import TreeBrowser.Settings.File

/-!
# Reading files

What is read at a path depends on what the path leads to, and on nothing else of the disk.
-/

namespace TreeBrowser

theorem toOption_eq_of_ok_iff {ε α : Type} {result result' : Except ε α}
    (h : ∀ a, result = .ok a ↔ result' = .ok a) : result.toOption = result'.toOption := by
  cases result with
  | ok a => rw [(h a).1 rfl]
  | error e =>
    cases result' with
    | error e' => rfl
    | ok a => cases (h a).2 rfl

def DiskNode.content? : DiskNode → Option (List UInt8)
  | .directory => none
  | .file content => some content

namespace Disk

variable {d : Disk} {path : DiskPath}

theorem toOption_read (d : Disk) (path : DiskPath) :
    (d.read path).toOption = (d.look path).toOption.bind DiskNode.content? := by
  rw [read]
  cases d.look path with
  | error e => rfl
  | ok node => cases node <;> rfl

theorem toOption_readText (d : Disk) (path : DiskPath) :
    (d.readText path).toOption = (d.read path).toOption.bind Text.Utf8.decode? := by
  rw [readText]
  cases d.read path with
  | error e => rfl
  | ok content =>
    simp only [bind, Except.bind, Except.toOption, Option.bind_some]
    cases Text.Utf8.decode? content <;> rfl

theorem follow_ne_isADirectory (here : Location) (pieces : List String) :
    d.follow here pieces ≠ .error .isADirectory := by
  induction pieces generalizing here with
  | nil => simp [follow]
  | cons piece rest ih =>
    have henter := enter_ne_error (e := .isADirectory) (by decide) here piece
    rw [follow_cons]
    cases hstep : d.step here piece with
    | ok next => exact ih next
    | error e =>
      rw [Except.bind, ← hstep, step]
      cases d.at? here with
      | none => simp
      | some node => cases node <;> simp [henter]

theorem look_ne_isADirectory (d : Disk) (path : DiskPath) : d.look path ≠ .error .isADirectory := by
  rw [look]
  cases hlocate : d.locate path with
  | ok here => cases hnode : d.at? here <;> simp [hnode]
  | error e =>
    rintro ⟨⟩
    rw [locate_of_text (fault?_of_locate_error (by decide) (by decide) hlocate)] at hlocate
    exact follow_ne_isADirectory _ _ hlocate

end Disk

end TreeBrowser
