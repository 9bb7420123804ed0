import TreeBrowser.Log
import TreeBrowser.Proofs.Disk.Additions
import TreeBrowser.Proofs.Settings.File

/-!
# Opening the log

A directory for logs is settled by the first run: every later one finds the same directory there, or
the same want of one, and makes nothing. The log file that is opened in it is the only file that may
be new, it is never the settings file, and on the same day it can be opened again.
-/

namespace TreeBrowser

open DiskPath (isStay)

variable {d d' d₀ d₁ : Disk} {env : Environment} {path temporary : String} {log : Log}
  {directory : Option String} {file : Option Location} {here : Location}

/-! ## The directory of a user -/

namespace Settings

theorem ensureLogDirectory_of_none (h : env.logDirectory? = none) :
    ensureLogDirectory d env = (d, .error .notFound) := by
  rw [ensureLogDirectory, h]

theorem ensureLogDirectory_of_some (h : env.logDirectory? = some path) :
    ensureLogDirectory d env = ((d.makeDirectories (DiskPath.ofText path)).1,
      (d.makeDirectories (DiskPath.ofText path)).2.map fun _ => path) := by
  rw [ensureLogDirectory, h]
  dsimp only
  rcases d.makeDirectories (DiskPath.ofText path) with ⟨d₁, e | ⟨⟩⟩ <;> rfl

theorem ofText_logDirectory (h : env.logDirectory? = some path) :
    ∃ root pieces, DiskPath.ofText path = ⟨root, pieces ++ ["logs"]⟩ := by
  obtain ⟨dir, -, rfl⟩ := Option.map_eq_some_iff.1 h
  obtain ⟨root, pieces, hjoin⟩ := DiskPath.ofText_joinText dir
  exact ⟨root, pieces, hjoin "logs" (by decide) (by decide)⟩

theorem gains_ensureLogDirectory (d : Disk) (env : Environment) :
    d.GainsDirectories (ensureLogDirectory d env).1 := by
  cases hlogs : env.logDirectory? with
  | none =>
    rw [ensureLogDirectory_of_none hlogs]
    exact .refl d
  | some path =>
    obtain ⟨root, pieces, hpath⟩ := ofText_logDirectory hlogs
    rw [ensureLogDirectory_of_some hlogs, hpath]
    exact (d.makesDirectory_of_name root pieces (by decide)).gains

theorem ensureLogDirectory_again (h : (ensureLogDirectory d env).1.Keeps d') :
    (ensureLogDirectory d' env).1 = d' ∧
      (ensureLogDirectory d' env).2.toOption = (ensureLogDirectory d env).2.toOption := by
  cases hlogs : env.logDirectory? with
  | none =>
    rw [ensureLogDirectory_of_none hlogs, ensureLogDirectory_of_none hlogs]
    exact ⟨rfl, rfl⟩
  | some path =>
    obtain ⟨root, pieces, hpath⟩ := ofText_logDirectory hlogs
    rw [ensureLogDirectory_of_some hlogs, hpath] at h
    rw [ensureLogDirectory_of_some hlogs, ensureLogDirectory_of_some hlogs, hpath]
    obtain ⟨hsame, hmade⟩ := Disk.makeDirectories_again (by decide) h
    refine ⟨hsame, ?_⟩
    have hmap (result : Except DiskError Unit) :
        (result.map fun _ => path).toOption = result.toOption.map fun _ => path := by
      rcases result with e | ⟨⟩ <;> rfl
    rw [hmap, hmap, hmade]

/-- Making the directory for logs does not keep a settings file from being made. -/
theorem look_own_ensureLogDirectory {root : Bool} {pieces : List String} (hwithin : d.Within d')
    (hsettings : env.settingsPath? = some path)
    (hpath : DiskPath.ofText path = ⟨root, pieces ++ ["settings.json"]⟩)
    (h : d'.locate ⟨root, pieces ++ ["settings.json"]⟩ = .ok here) :
    (ensureLogDirectory d env).1.look ⟨root, pieces.rdropWhile isStay⟩ = .ok .directory := by
  obtain ⟨root', pieces', logs, hpath', hlogs, hlogsPath⟩ := env.ofText_ownPaths hsettings
  obtain ⟨rfl, rfl⟩ : root' = root ∧ pieces' = pieces := by
    rw [hpath', DiskPath.mk.injEq] at hpath
    exact ⟨hpath.1, (List.append_inj' hpath.2 rfl).1⟩
  rw [ensureLogDirectory_of_some hlogs, hlogsPath]
  have hfault := DiskPath.fault?_of_shorter_name (Disk.fault?_of_locate h)
    (show '\x00' ∉ "logs".toList by decide) (by decide)
  exact Disk.look_around_makeDirectories (by decide) hfault hwithin (Disk.look_around_of_locate h)

end Settings

namespace Log

/-! ## The directory of a log -/

theorem directory_of_ok (h : Settings.ensureLogDirectory d env = (d₀, .ok path)) :
    Log.directory d env temporary = (d₀, some path) := by
  rw [Log.directory, h]

theorem directory_of_error {e : DiskError}
    (h : Settings.ensureLogDirectory d env = (d₀, .error e)) :
    Log.directory d env temporary =
      ((d₀.makeDirectories (DiskPath.ofText (temporaryDirectory temporary))).1,
        (d₀.makeDirectories (DiskPath.ofText (temporaryDirectory temporary))).2.toOption.map
          fun _ => temporaryDirectory temporary) := by
  rw [Log.directory, h]
  dsimp only
  rcases d₀.makeDirectories (DiskPath.ofText (temporaryDirectory temporary)) with ⟨d₁, e | ⟨⟩⟩ <;>
    rfl

theorem ofText_temporaryDirectory (temporary : String) :
    ∃ root pieces, DiskPath.ofText (temporaryDirectory temporary) = ⟨root, pieces ++ ["logs"]⟩ := by
  obtain ⟨root, pieces, hjoin⟩ :=
    DiskPath.ofText_joinText (DiskPath.joinText temporary "giant-tree")
  exact ⟨root, pieces, hjoin "logs" (by decide) (by decide)⟩

theorem gains_directory (d : Disk) (env : Environment) (temporary : String) :
    (Settings.ensureLogDirectory d env).1.GainsDirectories (Log.directory d env temporary).1 := by
  rcases hensure : Settings.ensureLogDirectory d env with ⟨d₀, e | path⟩
  · obtain ⟨root, pieces, htemporary⟩ := ofText_temporaryDirectory temporary
    rw [directory_of_error hensure, htemporary]
    exact (d₀.makesDirectory_of_name root pieces (by decide)).gains
  · rw [directory_of_ok hensure]
    exact .refl d₀

theorem directory_again (h : (Log.directory d env temporary).1.Keeps d') :
    Log.directory d' env temporary = (d', (Log.directory d env temporary).2) := by
  have hown := (gains_directory d env temporary).within.keeps.trans h
  obtain ⟨hsame, hmade⟩ := Settings.ensureLogDirectory_again hown
  rcases hagain : Settings.ensureLogDirectory d' env with ⟨d₁, result⟩
  rw [hagain] at hsame hmade
  obtain rfl : d₁ = d' := hsame
  rcases hensure : Settings.ensureLogDirectory d env with ⟨d₀, e | path⟩
  · rw [hensure] at hmade
    obtain ⟨e', rfl⟩ : ∃ e', result = .error e' := by
      rcases result with e' | path
      · exact ⟨e', rfl⟩
      · cases hmade
    obtain ⟨root, pieces, htemporary⟩ := ofText_temporaryDirectory temporary
    rw [directory_of_error hensure, htemporary] at h
    obtain ⟨hstays, hresult⟩ := Disk.makeDirectories_again (by decide) h
    rw [directory_of_error hensure, directory_of_error hagain, htemporary, hstays, hresult]
  · rw [hensure] at hmade
    obtain rfl : result = .ok path := by
      rcases result with e' | path'
      · cases hmade
      · cases hmade
        rfl
    rw [directory_of_ok hensure, directory_of_ok hagain]

/-! ## The file of a log -/

theorem fileName_ne {text : String} (h : text.toList.head? ≠ some 'g') : log.fileName ≠ text := by
  rintro rfl
  exact h (by simp [fileName])

theorem slash_not_mem_fileName (log : Log) : '/' ∉ log.fileName.toList := by
  have hday := log.noSlash
  simp [fileName, hday]

theorem isStay_fileName (log : Log) : isStay log.fileName = false := by
  rw [isStay, Bool.or_eq_false_iff]
  exact ⟨beq_false_of_ne (fileName_ne (by decide)), beq_false_of_ne (fileName_ne (by decide))⟩

theorem openIn_some_cases (log : Log) (directory : String) :
    ∃ root pieces, ∀ d : Disk,
      (∃ d₁ here, d.openEnd ⟨root, pieces ++ [log.fileName]⟩ = .ok (d₁, here) ∧
        log.openIn (d, some directory) = (d₁, .ok (some here))) ∨
      ∃ e, d.openEnd ⟨root, pieces ++ [log.fileName]⟩ = .error e ∧
        log.openIn (d, some directory) = (d, .error e) := by
  obtain ⟨root, pieces, hjoin⟩ := DiskPath.ofText_joinText directory
  refine ⟨root, pieces, fun d => ?_⟩
  rw [openIn, hjoin _ (fileName_ne (by decide)) (slash_not_mem_fileName log)]
  rcases d.openEnd ⟨root, pieces ++ [log.fileName]⟩ with e | ⟨d₁, here⟩
  · exact Or.inr ⟨e, rfl, rfl⟩
  · exact Or.inl ⟨d₁, here, rfl, rfl⟩

/-- The file that is opened may be new, and there is always one then. -/
theorem openIn_eq_ok (h : log.openIn (d, directory) = (d₁, .ok file)) :
    d.AddsTo file d₁ ∧ ∀ here, file = some here →
      here.getLast? = some log.fileName ∧
        ∃ content, d₁.at? here = some (.file content) ∧
          (d.at? here = none ∧ content = [] ∨ d.at? here = some (.file content)) := by
  cases directory with
  | none =>
    rw [openIn, Prod.mk.injEq, Except.ok.injEq] at h
    obtain ⟨rfl, rfl⟩ := h
    exact ⟨.refl d, nofun⟩
  | some directory =>
    obtain ⟨root, pieces, hcases⟩ := log.openIn_some_cases directory
    rcases hcases d with ⟨d₂, place, hend, hopen⟩ | ⟨e, -, hopen⟩
    · rw [hopen] at h
      cases h
      have hname := isStay_fileName log
      obtain ⟨hlocate, hadds, hcontent⟩ := Disk.openEnd_eq_ok hname hend
      refine ⟨hadds, ?_⟩
      rintro _ ⟨⟩
      exact ⟨Disk.getLast?_of_locate hname (fileName_ne (by decide)) hlocate, hcontent⟩
    · rw [hopen] at h
      cases h

theorem openIn_fst_of_error {e : DiskError} (h : (log.openIn (d, directory)).2 = .error e) :
    (log.openIn (d, directory)).1 = d := by
  cases directory with
  | none => rfl
  | some directory =>
    obtain ⟨root, pieces, hcases⟩ := log.openIn_some_cases directory
    rcases hcases d with ⟨d₁, here, -, hopen⟩ | ⟨e', -, hopen⟩
    · rw [hopen] at h
      cases h
    · rw [hopen]

/-- A log that has been opened can be opened again. -/
theorem openIn_again (h : log.openIn (d, directory) = (d₁, .ok file)) (hkeeps : d₁.Keeps d') :
    (log.openIn (d', directory)).2 = .ok file := by
  obtain ⟨hadds, -⟩ := openIn_eq_ok h
  cases directory with
  | none =>
    rw [openIn, Prod.mk.injEq] at h
    exact h.2
  | some directory =>
    obtain ⟨root, pieces, hcases⟩ := log.openIn_some_cases directory
    rcases hcases d with ⟨d₂, here, hend, hopen⟩ | ⟨e, -, hopen⟩
    · rw [hopen] at h
      cases h
      have hname := isStay_fileName log
      obtain ⟨hlocate, -, content, hcontent, -⟩ := Disk.openEnd_eq_ok hname hend
      obtain ⟨node, hnode, hkind⟩ := hkeeps here _ hcontent
      have hlocate' := Disk.locate_ok_of_keeps (hadds.keeps.trans hkeeps) hlocate
      cases node with
      | directory => cases hkind.1 rfl
      | file content' =>
        have hend' := Disk.openEnd_of_file hname hlocate' hnode
        rcases hcases d' with ⟨d₃, place, hplace, hopen'⟩ | ⟨e, hfails, -⟩
        · rw [hend'] at hplace
          cases hplace
          rw [hopen']
        · rw [hend'] at hfails
          cases hfails
    · rw [hopen] at h
      cases h

theorem openIn_of_day {later : Log} (h : later.day = log.day) (directory : Option String)
    (d : Disk) : later.openIn (d, directory) = log.openIn (d, directory) := by
  have hname : later.fileName = log.fileName := by rw [fileName, fileName, h]
  cases directory with
  | none => rfl
  | some directory => rw [openIn, openIn, hname]

theorem addsTo_writeTo (log : Log) (file : Option Location) (d : Disk) :
    d.AddsTo file (log.writeTo file d) := by
  cases file with
  | none => exact .refl d
  | some here => exact Disk.addsTo_addAt

end Log

end TreeBrowser
