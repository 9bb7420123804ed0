import TreeBrowser.Proofs.Disk.Directories

/-!
# Providing a file

A file is provided by making the directories around its path that are missing and writing it where
nothing is. This leaves alone all that is there, and to do it again does nothing more. That the path
then leads to the new content rests on reading the disk as a map from paths to contents: no content
comes to be at a path because directories are made.
-/

namespace TreeBrowser.Disk

open DiskPath (isStay)

variable {d d' : Disk} {here there : Location} {node : DiskNode} {path : DiskPath} {root : Bool}
  {pieces : List String} {name : String} {content old : List UInt8}

/-! ## Filling a place -/

def fill (d : Disk) (path : DiskPath) (content : List UInt8) : Disk :=
  match d.locate path with
  | .error _ => d
  | .ok here => if d.at? here = none then d.set here (.file content) else d

theorem fill_cases (d : Disk) (path : DiskPath) (content : List UInt8) :
    (∃ here, d.locate path = .ok here ∧ d.at? here = none ∧
      d.fill path content = d.set here (.file content)) ∨
    (∀ here, d.locate path = .ok here → d.at? here ≠ none) ∧ d.fill path content = d := by
  rw [fill]
  cases hlocate : d.locate path with
  | error e => exact Or.inr ⟨nofun, rfl⟩
  | ok here =>
    by_cases hnode : d.at? here = none
    · exact Or.inl ⟨here, rfl, hnode, if_pos hnode⟩
    · refine Or.inr ⟨?_, if_neg hnode⟩
      rintro _ ⟨⟩
      exact hnode

theorem fill_of_exists (h : d.exists? path = true) : d.fill path content = d := by
  obtain ⟨node, hlook⟩ := exists?_iff.1 h
  obtain ⟨here, hlocate, hnode⟩ := look_eq_ok_iff.1 hlook
  rw [fill, hlocate]
  exact if_neg (by simp [hnode])

theorem within_fill : d.Within (d.fill path content) := by
  rcases d.fill_cases path content with ⟨here, -, hnone, hfill⟩ | ⟨-, hfill⟩
  · rw [hfill]
    exact within_set hnone
  · rw [hfill]
    exact .refl d

theorem look_fill (hlocate : d.locate path = .ok here) (hnone : d.at? here = none) :
    (d.fill path content).look path = .ok (.file content) := by
  rw [fill, hlocate]
  dsimp only
  rw [if_pos hnone]
  exact look_set hlocate hnone

theorem fill_of_keeps (hne : d.locate path ≠ .error .notFound)
    (hkeeps : (d.fill path content).Keeps d') : d'.fill path content = d' := by
  rcases d.fill_cases path content with ⟨here, hlocate, hnone, -⟩ | ⟨hall, hfill⟩
  · have hlook : (d.fill path content).look path = .ok (.file content) := look_fill hlocate hnone
    rcases look_of_keeps hkeeps (by rw [hlook]; nofun) with heq | ⟨-, content', -, heq⟩
    · exact fill_of_exists (exists?_iff.2 ⟨_, heq.trans hlook⟩)
    · exact fill_of_exists (exists?_iff.2 ⟨_, heq⟩)
  · rw [hfill] at hkeeps
    rcases d'.fill_cases path content with ⟨here, hlocate, hnone, -⟩ | ⟨-, hfill'⟩
    · rw [locate_of_keeps hkeeps hne] at hlocate
      obtain ⟨node, hnode⟩ := Option.ne_none_iff_exists'.1 (hall here hlocate)
      obtain ⟨node', hnode', -⟩ := hkeeps here node hnode
      rw [hnone] at hnode'
      cases hnode'
    · exact hfill'

theorem after_write_of_absent (hname : isStay name = false)
    (habsent : d.exists? ⟨root, pieces ++ [name]⟩ = false) :
    (d.after (d.write ⟨root, pieces ++ [name]⟩ content)).1 =
      d.fill ⟨root, pieces ++ [name]⟩ content := by
  rw [write, locateFile, DiskPath.isClosed_append_name hname, fill]
  cases hlocate : d.locate ⟨root, pieces ++ [name]⟩ with
  | error e => simp [after]
  | ok here =>
    cases hnode : d.at? here with
    | none => simp [hnode, after]
    | some node =>
      rw [exists?_iff.2 ⟨node, look_eq_ok_iff.2 ⟨here, hlocate, hnode⟩⟩] at habsent
      cases habsent

/-! ## Providing a file -/

/-- The disk with a file at a path, if nothing is there, and with the directories around it. -/
def provide (d : Disk) (path : DiskPath) (content : List UInt8) : Disk :=
  (d.makeAround path).1.fill path content

theorem makeAround_of_exists (hname : isStay name = false)
    (h : d.exists? ⟨root, pieces ++ [name]⟩ = true) :
    (d.makeAround ⟨root, pieces ++ [name]⟩).1 = d := by
  obtain ⟨node, hlook⟩ := exists?_iff.1 h
  obtain ⟨here, hlocate, -⟩ := look_eq_ok_iff.1 hlook
  apply makeAround_of_settled hname
  rw [look_around_of_locate hlocate]
  nofun

theorem provide_of_exists (hname : isStay name = false)
    (h : d.exists? ⟨root, pieces ++ [name]⟩ = true) :
    d.provide ⟨root, pieces ++ [name]⟩ content = d := by
  rw [provide, makeAround_of_exists hname h, fill_of_exists h]

/-- A file that has been provided, or could not be, need not be provided again. -/
theorem provide_of_keeps (hname : isStay name = false)
    (hkeeps : (d.provide ⟨root, pieces ++ [name]⟩ content).Keeps d') :
    d'.provide ⟨root, pieces ++ [name]⟩ content = d' := by
  -- What is around the path is settled by the first time, and stays settled.
  have haround := d.makesDirectory_makeAround root pieces hname
  have hkept : (d.makeAround ⟨root, pieces ++ [name]⟩).1.Keeps d' := within_fill.keeps.trans hkeeps
  rw [provide, makeAround_of_settled hname (look_ne_notFound_of_keeps hkept haround.settled)]
  exact fill_of_keeps (fun h => haround.settled (look_around_of_notFound h)) hkeeps

theorem within_provide (hname : isStay name = false) :
    d.Within (d.provide ⟨root, pieces ++ [name]⟩ content) :=
  (d.makesDirectory_makeAround root pieces hname).gains.within.trans within_fill

/-- The only file that is new is the one at the path. -/
theorem file_of_provide (hname : isStay name = false)
    (h : (d.provide ⟨root, pieces ++ [name]⟩ content).at? here = some (.file old)) :
    d.at? here = some (.file old) ∨
      (d.provide ⟨root, pieces ++ [name]⟩ content).locate ⟨root, pieces ++ [name]⟩ = .ok here ∧
        old = content := by
  have hgains := (d.makesDirectory_makeAround root pieces hname).gains
  rw [provide] at h ⊢
  rcases fill_cases _ ⟨root, pieces ++ [name]⟩ content with
    ⟨there, hlocate, hnone, hfill⟩ | ⟨-, hfill⟩
  · rw [hfill, at?_set hnone] at h
    split at h
    next heq =>
      cases h
      rw [heq]
      exact Or.inr ⟨locate_ok_of_keeps within_fill.keeps hlocate, rfl⟩
    next => exact Or.inl (hgains.file h)
  · rw [hfill] at h
    exact Or.inl (hgains.file h)

theorem look_provide (hname : isStay name = false)
    (hlocate : d.locate ⟨root, pieces ++ [name]⟩ = .ok here) (hnone : d.at? here = none) :
    (d.provide ⟨root, pieces ++ [name]⟩ content).look ⟨root, pieces ++ [name]⟩ =
      .ok (.file content) := by
  rw [provide, makeAround_of_settled hname (by rw [look_around_of_locate hlocate]; nofun)]
  exact look_fill hlocate hnone

/-! ## Disks as maps -/

/-- A path leads to no content that comes to be there because directories are made. Where all is in
directories, this is so for every path without steps back. -/
def MapsPath (d : Disk) (path : DiskPath) : Prop :=
  ∀ d' content, d.GainsDirectories d' → d'.read path = .ok content → d.read path = .ok content

/-- With more on the disk, a path can lead to a file. -/
def CanHold (d : Disk) (path : DiskPath) : Prop :=
  ∃ d' content, d.Within d' ∧ d'.read path = .ok content

theorem read_of_provide (hname : isStay name = false)
    (hmaps : d.MapsPath ⟨root, pieces ++ [name]⟩)
    (h : (d.provide ⟨root, pieces ++ [name]⟩ content).read ⟨root, pieces ++ [name]⟩ = .ok old) :
    d.read ⟨root, pieces ++ [name]⟩ = .ok old ∨ old = content := by
  have hgains := (d.makesDirectory_makeAround root pieces hname).gains
  rw [provide] at h
  rcases fill_cases _ ⟨root, pieces ++ [name]⟩ content with
    ⟨there, hlocate, hnone, -⟩ | ⟨-, hfill⟩
  · rw [read_eq_ok_iff, look_fill hlocate hnone] at h
    cases h
    exact Or.inr rfl
  · rw [hfill] at h
    exact Or.inl (hmaps _ old hgains h)

/-! ## Disks on which all is in directories -/

/-- All that is there is in a directory. -/
def Rooted (d : Disk) : Prop :=
  ∀ here name node, d.at? (here ++ [name]) = some node → d.at? here = some .directory

theorem rooted_empty : empty.Rooted := by
  intro here name node h
  by_cases hbase : Location.isBase (here ++ [name]) = true
  · rw [Location.isBase, List.all_append, Bool.and_eq_true] at hbase
    exact at?_of_isBase hbase.1
  · rw [at?, if_neg hbase] at h
    cases h

theorem Rooted.set (h : d.Rooted) (here : Location) (hhere : d.at? here = some .directory)
    (hnone : d.at? (here ++ [name]) = none) : (d.set (here ++ [name]) node).Rooted := by
  intro there other node' hnode
  have hkeeps (h : d.at? there = some .directory) :
      (d.set (here ++ [name]) node).at? there = some .directory :=
    within_set hnone there .directory h
  rw [at?_set hnone] at hnode
  split at hnode
  next heq =>
    obtain ⟨rfl, -⟩ := List.append_inj' heq rfl
    exact hkeeps hhere
  next => exact hkeeps (h there other node' hnode)

theorem Rooted.directory_of_below (h : d.Rooted) {names : List String}
    (hnode : d.at? (here ++ name :: names) = some node) : d.at? here = some .directory := by
  induction names using List.reverseRecOn generalizing node with
  | nil => exact h here name node hnode
  | append_singleton names last ih =>
    rw [← List.cons_append, ← List.append_assoc] at hnode
    exact ih (h _ last node hnode)

theorem enter_cases {piece : String} (hpiece : piece ≠ "..") (h : here.enter piece = .ok there) :
    there = here ∨ there = here ++ [piece] := by
  unfold Location.enter at h
  split at h
  · cases h
    exact Or.inl rfl
  · rw [if_neg (by simpa using hpiece)] at h
    split at h
    · cases h
    · cases h
      exact Or.inr rfl

/-- Without steps back, a path goes through the directories that what is at its end is in. -/
theorem Rooted.follow (hd : d.Rooted) (hgains : d.GainsDirectories d')
    (hnode : d.at? there = some node) (hpieces : ".." ∉ pieces)
    (h : d'.follow here pieces = .ok there) :
    d.follow here pieces = .ok there ∧ ∃ names, there = here ++ names := by
  induction pieces generalizing here with
  | nil =>
    cases h
    exact ⟨rfl, [], (List.append_nil _).symm⟩
  | cons piece rest ih =>
    rw [List.mem_cons, not_or] at hpieces
    rw [follow_cons] at h ⊢
    cases hstep : d'.step here piece with
    | error e =>
      rw [hstep] at h
      cases h
    | ok next =>
      rw [hstep] at h
      obtain ⟨hdirectory, henter⟩ := step_eq_ok_iff.1 hstep
      obtain ⟨hrest, names, rfl⟩ := ih hpieces.2 h
      have hbelow : ∃ names', next ++ names = here ++ names' := by
        rcases enter_cases (Ne.symm hpieces.1) henter with rfl | rfl
        · exact ⟨names, rfl⟩
        · exact ⟨piece :: names, by simp⟩
      obtain ⟨names', hnames'⟩ := hbelow
      rw [hnames'] at hnode
      have hhere : d.at? here = some .directory := by
        cases names' with
        | nil =>
          rw [List.append_nil] at hnode
          rw [hgains.within here node hnode] at hdirectory
          rw [hnode, hdirectory]
        | cons => exact hd.directory_of_below hnode
      rw [step_eq_ok_iff.2 ⟨hhere, henter⟩]
      exact ⟨hrest, names', hnames'⟩

theorem Rooted.mapsPath (h : d.Rooted) (hpieces : ".." ∉ path.pieces) : d.MapsPath path := by
  intro d' content hgains hread
  obtain ⟨here, hlocate, hfile⟩ := look_eq_ok_iff.1 (read_eq_ok_iff.1 hread)
  have hnode := hgains.file hfile
  refine read_eq_ok_iff.2 (look_eq_ok_iff.2 ⟨here, ?_, hnode⟩)
  have hfault := fault?_of_locate hlocate
  rw [locate_of_text hfault] at hlocate ⊢
  exact (h.follow hgains hnode hpieces hlocate).1

/-- With a step back, a path may come to a file once a directory is made that it only goes
through. -/
example :
    let d := (empty.set ["a"] .directory).set ["a", "settings.json"] (.file [])
    let path : DiskPath := ⟨false, ["new", "..", "a", "settings.json"]⟩
    d.exists? path = false ∧ (d.makeAround path).1.exists? path = true := by
  decide +kernel

end TreeBrowser.Disk
