import Mathlib.Data.List.DropRight
import TreeBrowser.Disk.Path

/-!
# Directories around a path

A name at the end of a path is looked for in the directory that is left when the name and the dots
and slashes beside it are taken off. These are the paths around the path, one inside the other.
-/

namespace TreeBrowser.DiskPath

variable {root : Bool} {pieces more : List String} {piece : String}

/-! ## Taking names off -/

theorem shortened_dropWhile (pieces : List String) :
    shortened (pieces.dropWhile isStay) = shortened pieces := by
  induction pieces with
  | nil => rfl
  | cons piece before ih =>
    cases h : isStay piece with
    | true => rw [List.dropWhile_cons_of_pos h, shortened, if_pos h, ih]
    | false => rw [List.dropWhile_cons_of_neg (by simp [h])]

theorem around_append_name (h : isStay piece = false) :
    around ⟨root, pieces ++ [piece]⟩ =
      ⟨root, pieces.rdropWhile isStay⟩ :: around ⟨root, pieces.rdropWhile isStay⟩ := by
  simp [around, shortened, h, List.rdropWhile, shortened_dropWhile]

theorem parent?_append_name (h : isStay piece = false) :
    parent? ⟨root, pieces ++ [piece]⟩ = some ⟨root, pieces.rdropWhile isStay⟩ := by
  rw [parent?, around_append_name h, List.head?_cons]

theorem ne_empty_of_isStay (h : isStay piece = false) : piece ≠ "" := by
  rintro rfl
  cases h

theorem openPieces_append_name (h : isStay piece = false) :
    openPieces ⟨root, pieces ++ [piece]⟩ = pieces ++ [piece] := by
  simp [openPieces, ne_empty_of_isStay h]

theorem openPieces_rdropWhile :
    openPieces ⟨root, pieces.rdropWhile isStay⟩ = pieces.rdropWhile isStay := by
  refine List.rdropWhile_eq_self_iff.2 fun hne => ?_
  rw [beq_iff_eq]
  exact ne_empty_of_isStay (by simpa using List.rdropWhile_last_not isStay pieces hne)

theorem isClosed_append_name (h : isStay piece = false) :
    isClosed ⟨root, pieces ++ [piece]⟩ = false := by
  simp [isClosed, ne_empty_of_isStay h]

/-! ## Texts of paths -/

theorem toText_append (root : Bool) (pieces more : List String) :
    ∃ rest, toText ⟨root, pieces ++ more⟩ = toText ⟨root, pieces⟩ ++ rest := by
  cases pieces with
  | nil => exact ⟨"/".intercalate more, by simp [toText]⟩
  | cons first others =>
    cases more with
    | nil => exact ⟨"", by simp⟩
    | cons next more =>
      refine ⟨"/" ++ "/".intercalate (next :: more), ?_⟩
      rw [toText, toText,
        String.intercalate_append_of_ne_nil (List.cons_ne_nil _ _) (List.cons_ne_nil _ _)]
      simp only [String.append_assoc]

theorem fault?_ne_some {e : DiskError} (hinput : e ≠ .invalidInput) (hname : e ≠ .invalidFilename)
    (path : DiskPath) : path.fault? ≠ some e := by
  unfold fault?
  split
  · simpa using hinput.symm
  · split
    · simpa using hname.symm
    · simp

theorem fault?_eq_none_iff {path : DiskPath} :
    path.fault? = none ↔ '\x00' ∉ path.toText.toList ∧ path.toText.utf8ByteSize < textLimit := by
  unfold fault?
  split
  · simp_all
  · split <;> simp_all

theorem fault?_of_prefix (h : pieces <+: more) (hfault : fault? ⟨root, more⟩ = none) :
    fault? ⟨root, pieces⟩ = none := by
  obtain ⟨last, rfl⟩ := h
  obtain ⟨rest, hrest⟩ := toText_append root pieces last
  rw [fault?_eq_none_iff, hrest, String.toList_append, List.mem_append, not_or,
    String.utf8ByteSize_append] at hfault
  obtain ⟨⟨hnul, -⟩, hlength⟩ := hfault
  exact fault?_eq_none_iff.2 ⟨hnul, by omega⟩

/-- The text of a path ends with its last name, whichever that is. -/
theorem toText_append_name (root : Bool) (pieces : List String) :
    ∃ before, ∀ name, toText ⟨root, pieces ++ [name]⟩ = before ++ name := by
  cases pieces with
  | nil => exact ⟨if root then "/" else "", fun name => by simp [toText]⟩
  | cons first others =>
    refine ⟨toText ⟨root, first :: others⟩ ++ "/", fun name => ?_⟩
    rw [toText, toText,
      String.intercalate_append_of_ne_nil (List.cons_ne_nil _ _) (List.cons_ne_nil _ _)]
    simp [String.append_assoc]

theorem fault?_of_shorter_name {name name' : String}
    (hfault : fault? ⟨root, pieces ++ [name]⟩ = none) (hnul : '\x00' ∉ name'.toList)
    (hlength : name'.utf8ByteSize ≤ name.utf8ByteSize) :
    fault? ⟨root, pieces ++ [name']⟩ = none := by
  obtain ⟨before, htext⟩ := toText_append_name root pieces
  rw [fault?_eq_none_iff, htext, String.toList_append, List.mem_append, not_or,
    String.utf8ByteSize_append] at hfault
  rw [fault?_eq_none_iff, htext, String.toList_append, List.mem_append, not_or,
    String.utf8ByteSize_append]
  obtain ⟨⟨hbefore, -⟩, hlimit⟩ := hfault
  exact ⟨⟨hbefore, hnul⟩, by omega⟩

/-! ## Paths that go on with a name -/

theorem toList_joinText (base : String) :
    ∃ before, (∀ name, (joinText base name).toList = before ++ name.toList) ∧
      (before = [] ∨ before.getLast? = some '/') := by
  by_cases h : base = "" ∨ base.toList.getLast? = some '/'
  · refine ⟨base.toList, fun name => ?_, h.imp_left ?_⟩
    · rw [joinText, if_pos (by simpa using h), String.toList_append]
    · rintro rfl
      rfl
  · refine ⟨base.toList ++ ['/'], fun name => ?_, Or.inr (by simp)⟩
    rw [joinText, if_neg (by simpa using h)]
    simp

theorem splitOn_joinText (base : String) :
    ∃ texts, ∀ name : String, '/' ∉ name.toList →
      (joinText base name).toList.splitOn '/' = texts ++ [name.toList] := by
  have hname {name : String} (hslash : '/' ∉ name.toList) :
      name.toList.splitOn '/' = [name.toList] := List.splitOn_eq_singleton hslash
  obtain ⟨before, hjoin, rfl | h⟩ := toList_joinText base
  · refine ⟨[], fun name hslash => ?_⟩
    rw [hjoin, List.nil_append, hname hslash, List.nil_append]
  · obtain ⟨init, rfl⟩ := List.getLast?_eq_some_iff.1 h
    refine ⟨init.splitOn '/', fun name hslash => ?_⟩
    rw [hjoin, List.append_assoc, List.singleton_append, List.splitOn_append_cons_self,
      hname hslash]

/-- The paths of all names in a directory differ in their last piece alone. -/
theorem ofText_joinText (base : String) :
    ∃ root pieces, ∀ name : String, name ≠ "" → '/' ∉ name.toList →
      ofText (joinText base name) = ⟨root, pieces ++ [name]⟩ := by
  obtain ⟨texts, htexts⟩ := splitOn_joinText base
  have hpieces {name : String} (hslash : '/' ∉ name.toList) :
      ((joinText base name).toList.splitOn '/').map String.ofList =
        texts.map String.ofList ++ [name] := by
    rw [htexts name hslash, List.map_append, List.map_singleton, String.ofList_toList]
  cases hbefore : texts.map String.ofList with
  | nil =>
    refine ⟨false, [], fun name hname hslash => ?_⟩
    rw [ofText, hpieces hslash, hbefore]
    simp [hname]
  | cons first others =>
    by_cases hroot : first = ""
    · refine ⟨true, others, fun name hname hslash => ?_⟩
      rw [ofText, hpieces hslash, hbefore]
      simp [hroot]
    · refine ⟨false, first :: others, fun name hname hslash => ?_⟩
      rw [ofText, hpieces hslash, hbefore]
      simp [hroot]

end TreeBrowser.DiskPath
