import TreeBrowser.Proofs.Disk.Files

/-!
# Adding to a file

A file that is opened to be added to is made if it is missing, and what is added comes to its end.
That changes neither where a path leads nor what is found there, unless it leads to the file.
-/

namespace TreeBrowser.Disk

open DiskPath (isStay)

variable {d d' : Disk} {file : Option Location} {here there : Location} {node : DiskNode}
  {path : DiskPath} {root : Bool} {pieces : List String} {name : String}
  {content more : List UInt8}

/-- The other disk has a file at the place, if there is one, where no directory was; it is as the
first one otherwise. -/
def AddsTo (file : Option Location) (d d' : Disk) : Prop :=
  ∀ here, d'.at? here = d.at? here ∨
    file = some here ∧ d.at? here ≠ some .directory ∧ ∃ content, d'.at? here = some (.file content)

namespace AddsTo

theorem refl (d : Disk) : d.AddsTo file d :=
  fun _ => Or.inl rfl

theorem at?_eq (h : d.AddsTo file d') (hother : file ≠ some here) : d'.at? here = d.at? here :=
  (h here).resolve_right fun hfile => hother hfile.1

theorem directory_iff (h : d.AddsTo file d') (here : Location) :
    d'.at? here = some .directory ↔ d.at? here = some .directory := by
  rcases h here with heq | ⟨-, hne, content, hfile⟩
  · rw [heq]
  · simp [hne, hfile]

theorem keeps (h : d.AddsTo file d') : d.Keeps d' := by
  intro here node hnode
  rcases h here with heq | ⟨-, hne, content, hfile⟩
  · exact ⟨node, by rw [heq, hnode], Iff.rfl⟩
  · refine ⟨.file content, hfile, ?_⟩
    rw [hnode, Ne, Option.some.injEq] at hne
    simp [hne]

theorem locate_iff (h : d.AddsTo file d') : d'.locate path = .ok here ↔ d.locate path = .ok here :=
  ⟨locate_of_directories fun there => (h.directory_iff there).1,
    locate_of_directories fun there => (h.directory_iff there).2⟩

/-- A path that does not lead to the file leads to the same as before. -/
theorem look_iff (h : d.AddsTo file d')
    (hother : ∀ here, d.locate path = .ok here → file ≠ some here) :
    d'.look path = .ok node ↔ d.look path = .ok node := by
  rw [look_eq_ok_iff, look_eq_ok_iff]
  apply exists_congr
  intro here
  rw [h.locate_iff]
  apply and_congr_right
  intro hlocate
  rw [h.at?_eq (hother here hlocate)]

end AddsTo

/-! ## Opening a file and adding to it -/

theorem locateFile_of_name (hname : isStay name = false) :
    d.locateFile ⟨root, pieces ++ [name]⟩ = d.locate ⟨root, pieces ++ [name]⟩ := by
  rw [locateFile, DiskPath.isClosed_append_name hname, if_neg Bool.false_ne_true]

theorem openEnd_eq_ok (hname : isStay name = false)
    (h : d.openEnd ⟨root, pieces ++ [name]⟩ = .ok (d', here)) :
    d.locate ⟨root, pieces ++ [name]⟩ = .ok here ∧ d.AddsTo (some here) d' ∧
      ∃ content, d'.at? here = some (.file content) ∧
        (d.at? here = none ∧ content = [] ∨ d.at? here = some (.file content)) := by
  rw [openEnd, locateFile_of_name hname] at h
  cases hlocate : d.locate ⟨root, pieces ++ [name]⟩ with
  | error e =>
    rw [hlocate] at h
    cases h
  | ok there =>
    rw [hlocate] at h
    dsimp only at h
    cases hnode : d.at? there with
    | none =>
      simp only [hnode, Except.ok.injEq, Prod.mk.injEq] at h
      obtain ⟨rfl, rfl⟩ := h
      refine ⟨rfl, fun other => ?_, [], ?_, Or.inl ⟨hnode, rfl⟩⟩
      · rw [at?_set hnode]
        split
        next heq => exact Or.inr ⟨by rw [heq], by rw [heq, hnode]; nofun, [], rfl⟩
        next => exact Or.inl rfl
      · rw [at?_set hnode, if_pos rfl]
    | some node =>
      cases node with
      | directory => simp [hnode] at h
      | file content =>
        simp only [hnode, Except.ok.injEq, Prod.mk.injEq] at h
        obtain ⟨rfl, rfl⟩ := h
        exact ⟨rfl, .refl d, content, hnode, Or.inr hnode⟩

theorem openEnd_of_file (hname : isStay name = false)
    (hlocate : d.locate ⟨root, pieces ++ [name]⟩ = .ok here)
    (hfile : d.at? here = some (.file content)) :
    d.openEnd ⟨root, pieces ++ [name]⟩ = .ok (d, here) := by
  rw [openEnd, locateFile_of_name hname, hlocate]
  dsimp only
  rw [hfile]

theorem at?_addAt (h : d.at? here = some (.file content)) :
    (d.addAt here more).at? there =
      if there = here then some (.file (content ++ more)) else d.at? there := by
  rw [addAt, h]
  exact at?_set_of_ne_directory (by rw [h]; nofun)

theorem addsTo_addAt : d.AddsTo (some here) (d.addAt here more) := by
  cases hnode : d.at? here with
  | none =>
    rw [addAt, hnode]
    exact .refl d
  | some node =>
    cases node with
    | directory =>
      rw [addAt, hnode]
      exact .refl d
    | file content =>
      intro there
      rw [at?_addAt hnode]
      split
      next heq => exact Or.inr ⟨by rw [heq], by rw [heq, hnode]; nofun, _, rfl⟩
      next => exact Or.inl rfl

/-! ## Disks as maps -/

theorem MapsPath.of_gainsDirectories (h : d.MapsPath path) (hgains : d.GainsDirectories d') :
    d'.MapsPath path := by
  intro d'' content hgains' hread
  have hread' := h d'' content (hgains.trans hgains') hread
  rw [read_eq_ok_iff] at hread' ⊢
  exact look_ok_of_within hgains.within hread'

theorem at?_of_not_isBase (hbase : ¬ here.isBase = true) :
    d.at? here = (d.nodes.find? fun place => place.1 == here).map Prod.snd := by
  rw [at?, if_neg hbase]

def directories (d : Disk) : List (Location × DiskNode) :=
  (d.nodes.filter fun place => d.at? place.1 == some .directory).map
    fun place => (place.1, .directory)

theorem mem_directories_iff {place : Location × DiskNode} (hbase : ¬ place.1.isBase = true) :
    place ∈ d.directories ↔ d.at? place.1 = some .directory ∧ place.2 = .directory := by
  obtain ⟨here, node⟩ := place
  simp only [directories, List.mem_map, List.mem_filter, beq_iff_eq, Prod.mk.injEq]
  constructor
  · rintro ⟨⟨there, node'⟩, ⟨-, hthere⟩, rfl, rfl⟩
    exact ⟨hthere, rfl⟩
  · rintro ⟨hhere, rfl⟩
    have hfound := hhere
    rw [at?_of_not_isBase hbase, Option.map_eq_some_iff] at hfound
    obtain ⟨place, hfind, -⟩ := hfound
    have hplace : place.1 = here := by simpa using List.find?_some hfind
    exact ⟨place, ⟨List.mem_of_find?_eq_some hfind, by rw [hplace, hhere]⟩, hplace, rfl⟩

/-- A disk with the directories of another one where it has nothing itself. -/
def withDirectories (d d' : Disk) : Disk :=
  ⟨d.nodes ++ d'.directories⟩

theorem at?_withDirectories (d d' : Disk) (here : Location) :
    (d.withDirectories d').at? here =
      (d.at? here).or (if d'.at? here = some .directory then some .directory else none) := by
  by_cases hbase : here.isBase = true
  · rw [at?_of_isBase hbase, at?_of_isBase hbase, Option.some_or]
  · rw [at?_of_not_isBase hbase, withDirectories, List.find?_append, Option.map_or,
      ← at?_of_not_isBase hbase]
    congr 1
    cases hfind : d'.directories.find? fun place => place.1 == here with
    | none =>
      rw [List.find?_eq_none] at hfind
      rw [if_neg]
      · rfl
      · intro hhere
        exact hfind (here, .directory) ((mem_directories_iff hbase).2 ⟨hhere, rfl⟩) (by simp)
    | some place =>
      obtain rfl : place.1 = here := by simpa using List.find?_some hfind
      obtain ⟨hhere, hnode⟩ := (mem_directories_iff hbase).1 (List.mem_of_find?_eq_some hfind)
      rw [if_pos hhere, Option.map_some, hnode]

theorem gainsDirectories_withDirectories (d d' : Disk) :
    d.GainsDirectories (d.withDirectories d') := by
  intro here
  rw [at?_withDirectories]
  cases hnode : d.at? here with
  | some node => exact Or.inl rfl
  | none =>
    rw [Option.none_or]
    split
    · exact Or.inr ⟨rfl, rfl⟩
    · exact Or.inl rfl

/-- That files are added to does not make a path lead to other contents, as long as it does not lead
to one of these files. -/
theorem MapsPath.of_addsTo (h : d.MapsPath path) (hadds : d.AddsTo file d')
    (hother : ∀ (e : Disk) here, e.locate path = .ok here → file ≠ some here) :
    d'.MapsPath path := by
  intro e content hgains hread
  obtain ⟨here, hlocate, hnode⟩ := look_eq_ok_iff.1 (read_eq_ok_iff.1 hread)
  have hnew := hother e here hlocate
  have hold : d.at? here = some (.file content) := by
    rw [← hadds.at?_eq hnew]
    exact hgains.file hnode
  -- Without what has been added, the path leads to the same content.
  have hdirectories : ∀ there, e.at? there = some .directory →
      (d.withDirectories e).at? there = some .directory := by
    intro there hthere
    rw [at?_withDirectories, if_pos hthere]
    cases hnode' : d.at? there with
    | none => rfl
    | some node =>
      obtain ⟨node', hnode', hkind⟩ := hadds.keeps there node hnode'
      have hkept := hgains.within there node' hnode'
      rw [hthere, Option.some.injEq] at hkept
      rw [Option.some_or, hkind.1 hkept.symm]
  have hbefore := (gainsDirectories_withDirectories d e).within here _ hold
  have hread' := h (d.withDirectories e) content (gainsDirectories_withDirectories d e)
    (read_eq_ok_iff.2 (look_eq_ok_iff.2
      ⟨here, locate_of_directories hdirectories hlocate, hbefore⟩))
  rw [read_eq_ok_iff] at hread' ⊢
  refine (hadds.look_iff fun there hthere => ?_).2 hread'
  exact hother d there hthere

end TreeBrowser.Disk
