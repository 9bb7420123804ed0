import TreeBrowser.CommandLine
import TreeBrowser.Proofs.Log
import TreeBrowser.Proofs.Workspace.Samples

/-!
# Runs of the program

The first run of a user writes the default settings and takes them without having read them; all
later ones read what was written. The runs come to the same all the same: what one of them leaves on
the disk stays as it is, but for the log, and what it shows is shown again.
-/

namespace TreeBrowser.Invocation

variable {i : Invocation} {d d' : Disk} {log : Option Location} {here : Location}
  {path : String}

/-! ## The settings file -/

theorem within_withSettingsFile (i : Invocation) (d : Disk) : d.Within (i.withSettingsFile d) := by
  rw [withSettingsFile]
  cases hsettings : i.environment.settingsPath? with
  | none =>
    rw [Settings.ensureFile_fst_of_none hsettings]
    exact .refl d
  | some path =>
    obtain ⟨root, pieces, -, hensure⟩ := Settings.ensureFile_fst hsettings
    rw [hensure]
    exact Disk.within_provide (by decide)

/-- Once there is a settings file, or cannot be one, nothing more is done. -/
theorem withSettingsFile_of_keeps (h : (i.withSettingsFile d).Keeps d') :
    i.withSettingsFile d' = d' := by
  rw [withSettingsFile] at h ⊢
  cases hsettings : i.environment.settingsPath? with
  | none => rw [Settings.ensureFile_fst_of_none hsettings]
  | some path =>
    obtain ⟨root, pieces, -, hensure⟩ := Settings.ensureFile_fst hsettings
    rw [hensure] at h ⊢
    exact Disk.provide_of_keeps (by decide) h

/-! ## The disks of a run -/

def made (i : Invocation) (d : Disk) : Disk :=
  (Log.directory d i.environment i.temporary).1

/-- The disk once the log is open. -/
def opened (i : Invocation) (d : Disk) : Disk :=
  (i.openLog d).1

/-- The disk from which the workspace and the script are read. -/
def provided (i : Invocation) (d : Disk) : Disk :=
  i.withSettingsFile (i.opened d)

theorem gains_made (i : Invocation) (d : Disk) : d.GainsDirectories (i.made d) :=
  (Settings.gains_ensureLogDirectory d i.environment).trans
    (Log.gains_directory d i.environment i.temporary)

theorem openIn_made (hlog : (i.openLog d).2 = .ok log) :
    i.log.openIn (i.made d, (Log.directory d i.environment i.temporary).2) =
      (i.opened d, .ok log) := by
  rw [← hlog]
  rfl

theorem opened_of_error {e : DiskError} (hlog : (i.openLog d).2 = .error e) :
    i.opened d = i.made d :=
  Log.openIn_fst_of_error hlog

theorem addsTo_opened (hlog : (i.openLog d).2 = .ok log) :
    (i.made d).AddsTo log (i.opened d) :=
  (Log.openIn_eq_ok (openIn_made hlog)).1

theorem within_provided (i : Invocation) (d : Disk) : (i.opened d).Within (i.provided d) :=
  i.within_withSettingsFile (i.opened d)

theorem run_eq {rest : List String} (hargs : i.arguments = path :: rest)
    (hlog : (i.openLog d).2 = .ok log) :
    i.run d =
      ⟨i.log.writeTo log (i.provided d),
        (i.shown path ((Settings.load? d i.environment).getD {}) (i.provided d)).1,
        (i.shown path ((Settings.load? d i.environment).getD {}) (i.provided d)).2⟩ := by
  have hopen : i.openLog d = (i.opened d, .ok log) := by
    rw [← hlog]
    rfl
  rw [run, hargs]
  dsimp only
  rw [hopen]
  rfl

/-- A log that cannot be opened is the end of a run. -/
theorem run_of_error (hargs : i.arguments ≠ []) {e : DiskError}
    (hlog : (i.openLog d).2 = .error e) : i.run d = ⟨i.made d, "", 101⟩ := by
  obtain ⟨path, rest, hargs⟩ := List.exists_cons_of_ne_nil hargs
  have hopen : i.openLog d = (i.made d, .error e) := by
    rw [← hlog, ← opened_of_error hlog]
    rfl
  rw [run, hargs]
  dsimp only
  rw [hopen]

theorem gains_run_of_error (hargs : i.arguments ≠ []) {e : DiskError}
    (hlog : (i.openLog d).2 = .error e) : d.GainsDirectories (i.run d).disk := by
  rw [run_of_error hargs hlog]
  exact i.gains_made d

theorem addsTo_run (hargs : i.arguments ≠ []) (hlog : (i.openLog d).2 = .ok log) :
    (i.provided d).AddsTo log (i.run d).disk := by
  obtain ⟨path, rest, hargs⟩ := List.exists_cons_of_ne_nil hargs
  rw [run_eq hargs hlog]
  exact i.log.addsTo_writeTo log _

/-- No path to the settings leads to the log. -/
theorem ne_log_of_locate_settings (hlog : (i.openLog d).2 = .ok log)
    (hsettings : i.environment.settingsPath? = some path) (e : Disk)
    (h : e.locate (DiskPath.ofText path) = .ok here) : log ≠ some here := by
  intro hhere
  obtain ⟨root, pieces, hpath⟩ := i.environment.ofText_settingsPath hsettings
  rw [hpath] at h
  have hname := ((Log.openIn_eq_ok (openIn_made hlog)).2 here hhere).1
  rw [Disk.getLast?_of_locate (by decide) (by decide) h, Option.some.injEq] at hname
  exact Log.fileName_ne (by decide) hname.symm

/-! ## One run -/

theorem look_run_settings (hargs : i.arguments ≠ []) (hlog : (i.openLog d).2 = .ok log)
    (hsettings : i.environment.settingsPath? = some path) {node : DiskNode} :
    (i.run d).disk.look (DiskPath.ofText path) = .ok node ↔
      (i.provided d).look (DiskPath.ofText path) = .ok node :=
  (addsTo_run hargs hlog).look_iff fun _ => ne_log_of_locate_settings hlog hsettings _

theorem look_opened_settings (hlog : (i.openLog d).2 = .ok log)
    (hsettings : i.environment.settingsPath? = some path) {node : DiskNode} :
    (i.opened d).look (DiskPath.ofText path) = .ok node ↔
      (i.made d).look (DiskPath.ofText path) = .ok node :=
  (addsTo_opened hlog).look_iff fun _ => ne_log_of_locate_settings hlog hsettings _

theorem provided_of_exists (hsettings : i.environment.settingsPath? = some path)
    (h : (i.opened d).exists? (DiskPath.ofText path) = true) : i.provided d = i.opened d := by
  obtain ⟨root, pieces, hpath, hensure⟩ := Settings.ensureFile_fst hsettings
  rw [hpath] at h
  rw [provided, withSettingsFile, hensure]
  exact Disk.provide_of_exists (by decide) h

theorem exists_opened (hlog : (i.openLog d).2 = .ok log)
    (hsettings : i.environment.settingsPath? = some path)
    (h : d.exists? (DiskPath.ofText path) = true) :
    (i.opened d).exists? (DiskPath.ofText path) = true := by
  obtain ⟨node, hnode⟩ := Disk.exists?_iff.1 h
  have hmade := Disk.look_ok_of_within (i.gains_made d).within hnode
  exact Disk.exists?_iff.2 ⟨node, (look_opened_settings hlog hsettings).2 hmade⟩

theorem run_of_exists (hargs : i.arguments ≠ [])
    (hsettings : i.environment.settingsPath? = some path)
    (h : d.exists? (DiskPath.ofText path) = true) :
    (i.run d).disk.look (DiskPath.ofText path) = d.look (DiskPath.ofText path) ∧
      ∀ here, (i.openLog d).2 ≠ .ok (some here) → (i.run d).disk.at? here = d.at? here ∨
        d.at? here = none ∧ (i.run d).disk.at? here = some .directory := by
  obtain ⟨node, hnode⟩ := Disk.exists?_iff.1 h
  cases hlog : (i.openLog d).2 with
  | error e =>
    have hgains := gains_run_of_error hargs hlog
    rw [hnode]
    exact ⟨Disk.look_ok_of_within hgains.within hnode, fun here _ => hgains here⟩
  | ok log =>
    have hprovided := provided_of_exists hsettings (exists_opened hlog hsettings h)
    constructor
    · rw [hnode, look_run_settings hargs hlog hsettings, hprovided,
        look_opened_settings hlog hsettings]
      exact Disk.look_ok_of_within (i.gains_made d).within hnode
    · intro here hhere
      rw [Ne, Except.ok.injEq] at hhere
      rw [(addsTo_run hargs hlog).at?_eq hhere, hprovided, (addsTo_opened hlog).at?_eq hhere]
      exact i.gains_made d here

/-- When there is no settings file and one can be made, the default settings are written to it,
unless the directory for logs has taken its place. -/
theorem read_run_of_absent (hargs : i.arguments ≠ []) (hlog : (i.openLog d).2 = .ok log)
    (hsettings : i.environment.settingsPath? = some path)
    (hmaps : d.MapsPath (DiskPath.ofText path))
    (habsent : d.exists? (DiskPath.ofText path) = false)
    (hcan : d.CanHold (DiskPath.ofText path))
    (hroom : (i.opened d).look (DiskPath.ofText path) ≠ .ok .directory) :
    (i.run d).disk.read (DiskPath.ofText path) = .ok Settings.defaultContent := by
  obtain ⟨root, pieces, hpath, hensure⟩ := Settings.ensureFile_fst hsettings
  rw [Disk.read_eq_ok_iff, look_run_settings hargs hlog hsettings]
  have hfile (content : List UInt8) :
      (i.opened d).look (DiskPath.ofText path) ≠ .ok (.file content) := by
    rw [Ne, look_opened_settings hlog hsettings, ← Disk.read_eq_ok_iff]
    intro hread
    exact Disk.read_ne_ok_of_absent habsent (hmaps _ content (i.gains_made d) hread)
  rw [hpath] at hcan hroom hfile ⊢
  obtain ⟨d', old, hwithin, hread⟩ := hcan
  obtain ⟨there, hthere, -⟩ := Disk.look_eq_ok_iff.1 (Disk.read_eq_ok_iff.1 hread)
  -- The directory around the settings file is there by the time that the log is open.
  have hown := Settings.look_own_ensureLogDirectory hwithin hsettings hpath hthere
  have hkeeps : (Settings.ensureLogDirectory d i.environment).1.Keeps (i.opened d) :=
    (Log.gains_directory d i.environment i.temporary).within.keeps.trans
      (addsTo_opened hlog).keeps
  have haround := (Disk.look_eq_directory_iff_of_keeps hkeeps (by rw [hown]; nofun)).2 hown
  obtain ⟨here, hlocate⟩ := Disk.locate_of_look_around (Disk.fault?_of_locate hthere) (by decide)
    (by decide) (by decide) haround
  have hnone : (i.opened d).at? here = none := by
    by_contra hnode
    obtain ⟨node, hnode⟩ := Option.ne_none_iff_exists'.1 hnode
    have hlook := Disk.look_eq_ok_iff.2 ⟨here, hlocate, hnode⟩
    cases node with
    | directory => exact hroom hlook
    | file content => exact hfile content hlook
  rw [provided, withSettingsFile, hensure]
  exact Disk.look_provide (by decide) hlocate hnone

/-- Of the files only the log and the settings file may be new, and that holds the default
settings. -/
theorem file_of_run (hargs : i.arguments ≠ []) {content : List UInt8}
    (h : (i.run d).disk.at? here = some (.file content)) :
    d.at? here = some (.file content) ∨ (i.openLog d).2 = .ok (some here) ∨
      ∃ path, i.environment.settingsPath? = some path ∧
        (i.run d).disk.locate (DiskPath.ofText path) = .ok here ∧
        content = Settings.defaultContent := by
  cases hlog : (i.openLog d).2 with
  | error e => exact Or.inl ((gains_run_of_error hargs hlog).file h)
  | ok log =>
    by_cases hhere : log = some here
    · exact Or.inr (Or.inl (congrArg Except.ok hhere))
    have hopened (hfile : (i.opened d).at? here = some (.file content)) :
        d.at? here = some (.file content) := by
      rw [(addsTo_opened hlog).at?_eq hhere] at hfile
      exact (i.gains_made d).file hfile
    rw [(addsTo_run hargs hlog).at?_eq hhere] at h
    cases hsettings : i.environment.settingsPath? with
    | none =>
      rw [provided, withSettingsFile, Settings.ensureFile_fst_of_none hsettings] at h
      exact Or.inl (hopened h)
    | some path =>
      obtain ⟨root, pieces, hpath, hensure⟩ := Settings.ensureFile_fst hsettings
      have hprovided : i.provided d =
          (i.opened d).provide ⟨root, pieces ++ ["settings.json"]⟩ Settings.defaultContent :=
        hensure (i.opened d)
      rw [hprovided] at h
      rcases Disk.file_of_provide (by decide) h with hfile | ⟨hlocate, rfl⟩
      · exact Or.inl (hopened hfile)
      · refine Or.inr (Or.inr ⟨path, rfl, ?_, rfl⟩)
        rw [(addsTo_run hargs hlog).locate_iff, hprovided, hpath, hlocate]

theorem at?_run_of_at? (hargs : i.arguments ≠ []) {node : DiskNode} (h : d.at? here = some node)
    (hhere : (i.openLog d).2 ≠ .ok (some here)) : (i.run d).disk.at? here = some node := by
  cases hlog : (i.openLog d).2 with
  | error e => exact (gains_run_of_error hargs hlog).within here node h
  | ok log =>
    rw [hlog, Ne, Except.ok.injEq] at hhere
    rw [(addsTo_run hargs hlog).at?_eq hhere]
    apply i.within_provided d
    rw [(addsTo_opened hlog).at?_eq hhere]
    exact (i.gains_made d).within here node h

theorem at?_run_of_log (hargs : i.arguments ≠ []) (hlog : (i.openLog d).2 = .ok (some here)) :
    ∃ old, (d.at? here = none ∧ old = [] ∨ d.at? here = some (.file old)) ∧
      (i.run d).disk.at? here = some (.file (old ++ i.log.text)) := by
  obtain ⟨-, old, hopened, hold⟩ := (Log.openIn_eq_ok (openIn_made hlog)).2 here rfl
  have hprovided := i.within_provided d here _ hopened
  refine ⟨old, ?_, ?_⟩
  · rcases hold with ⟨hnone, rfl⟩ | hfile
    · refine Or.inl ⟨?_, rfl⟩
      by_contra hnode
      obtain ⟨node, hnode⟩ := Option.ne_none_iff_exists'.1 hnode
      rw [(i.gains_made d).within here node hnode] at hnone
      cases hnone
    · exact Or.inr ((i.gains_made d).file hfile)
  · obtain ⟨path, rest, hargs⟩ := List.exists_cons_of_ne_nil hargs
    rw [run_eq hargs hlog]
    exact (Disk.at?_addAt hprovided).trans (if_pos rfl)

theorem load?_run (hargs : i.arguments ≠ []) (hlog : (i.openLog d).2 = .ok log)
    (hmaps : ∀ path, i.environment.settingsPath? = some path →
      d.MapsPath (DiskPath.ofText path)) :
    (Settings.load? (i.run d).disk i.environment).getD {} =
      (Settings.load? d i.environment).getD {} := by
  have hrun : Settings.load? (i.run d).disk i.environment =
      Settings.load? (i.provided d) i.environment := by
    refine Settings.load?_congr fun path hsettings => ?_
    rw [Disk.toOption_read, Disk.toOption_read,
      toOption_eq_of_ok_iff fun _ => look_run_settings hargs hlog hsettings]
  have hopened : Settings.load? (i.opened d) i.environment = Settings.load? d i.environment := by
    refine Settings.load?_congr fun path hsettings => toOption_eq_of_ok_iff fun content => ?_
    rw [Disk.read_eq_ok_iff, look_opened_settings hlog hsettings, ← Disk.read_eq_ok_iff]
    refine ⟨hmaps path hsettings _ content (i.gains_made d), fun hread => ?_⟩
    rw [Disk.read_eq_ok_iff] at hread ⊢
    exact Disk.look_ok_of_within (i.gains_made d).within hread
  have hprovided : (Settings.load? (i.provided d) i.environment).getD {} =
      (Settings.load? (i.opened d) i.environment).getD {} := by
    refine Settings.load?_ensureFile fun path hsettings => ?_
    exact ((hmaps path hsettings).of_gainsDirectories (i.gains_made d)).of_addsTo
      (addsTo_opened hlog) fun e _ => ne_log_of_locate_settings hlog hsettings e
  rw [hrun, hprovided, hopened]

/-! ## What is shown -/

theorem toOption_script (i : Invocation) (d : Disk) :
    (i.script d).toOption = i.arguments[1]?.elim (some (some i.input)) fun text =>
      (d.look (DiskPath.ofText text)).toOption.map DiskNode.content? := by
  rw [script]
  cases i.arguments[1]? with
  | none => rfl
  | some text =>
    have hne := d.look_ne_isADirectory (DiskPath.ofText text)
    rw [Option.elim_some]
    dsimp only
    rw [Disk.read]
    cases hlook : d.look (DiskPath.ofText text) with
    | ok node => cases node <;> rfl
    | error e =>
      rw [hlook] at hne
      cases e with
      | isADirectory => cases hne rfl
      | _ => rfl

theorem shown_eq (i : Invocation) (path : String) (settings : Settings) (d : Disk) :
    i.shown path settings d =
      (((workspace? d path).bind fun workspace => (i.script d).toOption.map
        (transcript (Browser.start workspace settings))).getD ("", 1)) := by
  unfold shown
  generalize workspace? d path = workspace?, i.script d = script
  cases workspace? with
  | none => rfl
  | some workspace => cases script <;> rfl

theorem shown_congr {rest : List String} (hargs : i.arguments = path :: rest)
    (h : ∀ text ∈ i.arguments.take 2, ∀ node,
      d'.look (DiskPath.ofText text) = .ok node ↔ d.look (DiskPath.ofText text) = .ok node)
    (settings : Settings) : i.shown path settings d' = i.shown path settings d := by
  have hlook {text : String} (htext : text ∈ i.arguments.take 2) :
      (d'.look (DiskPath.ofText text)).toOption = (d.look (DiskPath.ofText text)).toOption :=
    toOption_eq_of_ok_iff (h text htext)
  have hworkspace : workspace? d' path = workspace? d path := by
    rw [workspace?, workspace?, Disk.toOption_readText, Disk.toOption_readText,
      Disk.toOption_read, Disk.toOption_read, hlook (by simp [hargs])]
  have hscript : (i.script d').toOption = (i.script d).toOption := by
    rw [toOption_script, toOption_script]
    cases htext : i.arguments[1]? with
    | none => rfl
    | some text =>
      have hmem : text ∈ i.arguments.take 2 := by
        apply List.mem_of_getElem? (i := 1)
        rw [List.getElem?_take_of_lt (by decide), htext]
      rw [Option.elim_some, Option.elim_some, hlook hmem]
  rw [shown_eq, shown_eq, hworkspace, hscript]

/-! ## Another run -/

def withLog (i : Invocation) (log : Log) : Invocation :=
  { i with log }

section Again

variable {later : Log} {log' : Option Location}

theorem keeps_opened (hargs : i.arguments ≠ []) (hlog : (i.openLog d).2 = .ok log) :
    (i.opened d).Keeps (i.run d).disk :=
  (i.within_provided d).keeps.trans (addsTo_run hargs hlog).keeps

/-- The directory for logs is there by now, or there still cannot be one. -/
theorem directory_again (hargs : i.arguments ≠ []) (d : Disk) :
    Log.directory (i.run d).disk i.environment i.temporary =
      ((i.run d).disk, (Log.directory d i.environment i.temporary).2) := by
  apply Log.directory_again
  cases hlog : (i.openLog d).2 with
  | error e =>
    rw [run_of_error hargs hlog]
    exact (Disk.Within.refl _).keeps
  | ok log => exact (addsTo_opened hlog).keeps.trans (keeps_opened hargs hlog)

/-- Runs of one day have one log. -/
theorem openLog_again (hargs : i.arguments ≠ []) (hday : later.day = i.log.day) :
    ((i.withLog later).openLog (i.run d).disk).2 = (i.openLog d).2 := by
  have hopen : (i.withLog later).openLog (i.run d).disk =
      i.log.openIn ((i.run d).disk, (Log.directory d i.environment i.temporary).2) := by
    rw [openLog]
    change later.openIn (Log.directory (i.run d).disk i.environment i.temporary) = _
    rw [directory_again hargs d]
    exact Log.openIn_of_day hday _ _
  rw [hopen]
  cases hlog : (i.openLog d).2 with
  | error e =>
    rw [run_of_error hargs hlog]
    exact hlog
  | ok log => exact Log.openIn_again (openIn_made hlog) (keeps_opened hargs hlog)

theorem made_again (hargs : i.arguments ≠ []) (d : Disk) :
    (i.withLog later).made (i.run d).disk = (i.run d).disk :=
  congrArg Prod.fst (directory_again hargs d)

theorem run_again_of_error (hargs : i.arguments ≠ []) {e e' : DiskError}
    (hlog : (i.openLog d).2 = .error e)
    (hlog' : ((i.withLog later).openLog (i.run d).disk).2 = .error e') :
    (i.withLog later).run (i.run d).disk = i.run d := by
  rw [run_of_error (i := i.withLog later) hargs hlog', made_again hargs, run_of_error hargs hlog]

theorem addsTo_opened_again (hargs : i.arguments ≠ [])
    (hlog' : ((i.withLog later).openLog (i.run d).disk).2 = .ok log') :
    (i.run d).disk.AddsTo log' ((i.withLog later).opened (i.run d).disk) := by
  have hadds := addsTo_opened hlog'
  rwa [made_again hargs] at hadds

theorem provided_again (hargs : i.arguments ≠ []) (hlog : (i.openLog d).2 = .ok log)
    (hlog' : ((i.withLog later).openLog (i.run d).disk).2 = .ok log') :
    (i.withLog later).provided (i.run d).disk = (i.withLog later).opened (i.run d).disk :=
  withSettingsFile_of_keeps (i := i) (d := i.opened d)
    ((addsTo_run hargs hlog).keeps.trans (addsTo_opened_again hargs hlog').keeps)

theorem shown_again {rest : List String} (harguments : i.arguments = path :: rest)
    (hlog : (i.openLog d).2 = .ok log)
    (hlog' : ((i.withLog later).openLog (i.run d).disk).2 = .ok log')
    (hinputs : ∀ text ∈ i.arguments.take 2, ∀ here,
      (i.run d).disk.locate (DiskPath.ofText text) = .ok here →
        log ≠ some here ∧ log' ≠ some here) (settings : Settings) :
    i.shown path settings ((i.withLog later).provided (i.run d).disk) =
      i.shown path settings (i.provided d) := by
  have hargs : i.arguments ≠ [] := by
    rw [harguments]
    nofun
  have hopened := addsTo_opened_again hargs hlog'
  have hadds := addsTo_run hargs hlog
  rw [provided_again hargs hlog hlog']
  refine shown_congr harguments (fun text htext node => ?_) settings
  rw [hopened.look_iff fun here hlocate => (hinputs text htext here hlocate).2]
  refine hadds.look_iff fun here hlocate => ?_
  exact (hinputs text htext here (hadds.locate_iff.2 hlocate)).1

/-- A run on what another one has left shows what that has shown, as long as nothing that the two
are given leads to a log. -/
theorem run_again (hargs : i.arguments ≠ [])
    (hmaps : ∀ path, i.environment.settingsPath? = some path →
      d.MapsPath (DiskPath.ofText path))
    (hopens : ((i.withLog later).openLog (i.run d).disk).2.isOk = (i.openLog d).2.isOk)
    (hinputs : ∀ text ∈ i.arguments.take 2, ∀ here,
      (i.run d).disk.locate (DiskPath.ofText text) = .ok here →
        (i.openLog d).2 ≠ .ok (some here) ∧
          ((i.withLog later).openLog (i.run d).disk).2 ≠ .ok (some here)) :
    ((i.withLog later).run (i.run d).disk).output = (i.run d).output ∧
      ((i.withLog later).run (i.run d).disk).exitCode = (i.run d).exitCode ∧
      ∀ here, ((i.withLog later).openLog (i.run d).disk).2 ≠ .ok (some here) →
        ((i.withLog later).run (i.run d).disk).disk.at? here = (i.run d).disk.at? here := by
  cases hlog : (i.openLog d).2 with
  | error e =>
    cases hlog' : ((i.withLog later).openLog (i.run d).disk).2 with
    | ok log' =>
      rw [hlog, hlog'] at hopens
      cases hopens
    | error e' =>
      rw [run_again_of_error hargs hlog hlog']
      exact ⟨rfl, rfl, fun _ _ => rfl⟩
  | ok log =>
    cases hlog' : ((i.withLog later).openLog (i.run d).disk).2 with
    | error e' =>
      rw [hlog, hlog'] at hopens
      cases hopens
    | ok log' =>
      simp only [hlog, hlog', Ne, Except.ok.injEq] at hinputs ⊢
      obtain ⟨path, rest, harguments⟩ := List.exists_cons_of_ne_nil hargs
      have hshown : i.shown path ((Settings.load? (i.run d).disk i.environment).getD {})
          ((i.withLog later).provided (i.run d).disk) =
            i.shown path ((Settings.load? d i.environment).getD {}) (i.provided d) := by
        rw [load?_run hargs hlog hmaps]
        exact shown_again harguments hlog hlog' hinputs _
      have hagain := run_eq (i := i.withLog later) harguments hlog'
      have hfirst := run_eq harguments hlog
      refine ⟨?_, ?_, fun here hhere => ?_⟩
      · rw [hagain, congrArg RunResult.output hfirst]
        exact congrArg Prod.fst hshown
      · rw [hagain, congrArg RunResult.exitCode hfirst]
        exact congrArg Prod.snd hshown
      · rw [(addsTo_run (i := i.withLog later) hargs hlog').at?_eq hhere,
          provided_again hargs hlog hlog', (addsTo_opened_again hargs hlog').at?_eq hhere]

end Again

/-- For a user whose disk maps the settings path to its content, a run with a workspace leaves what
is at that path as it is, and writes the default settings to it when nothing is there but can be,
unless the log cannot be opened or a directory for logs comes to be there. No other file is new on
the disk but the log, to which what is logged is added, and nothing is taken away. On the disk that
it leaves, the same run at another time has the same log if it is the same day. If it can open its
log just when the first one can, and nothing that the two are given leads to a log, it shows the same
and ends alike, and changes nothing but its own log. -/
theorem settings_file_written_once (i : Invocation) (d : Disk) (hargs : i.arguments ≠ [])
    (hmaps : ∀ path, i.environment.settingsPath? = some path →
      d.MapsPath (DiskPath.ofText path)) :
    let log := (i.openLog d).2
    let after := (i.run d).disk
    (∀ path, i.environment.settingsPath? = some path →
      (d.exists? (DiskPath.ofText path) = true →
        after.look (DiskPath.ofText path) = d.look (DiskPath.ofText path) ∧
        ∀ here, log ≠ .ok (some here) → after.at? here = d.at? here ∨
          d.at? here = none ∧ after.at? here = some .directory) ∧
      (d.exists? (DiskPath.ofText path) = false → d.CanHold (DiskPath.ofText path) →
        log.isOk = true → (i.openLog d).1.look (DiskPath.ofText path) ≠ .ok .directory →
        after.read (DiskPath.ofText path) = .ok (Text.Utf8.encode ({} : Settings).toText))) ∧
    (∀ here content, after.at? here = some (.file content) →
      d.at? here = some (.file content) ∨ log = .ok (some here) ∨
      ∃ path, i.environment.settingsPath? = some path ∧
        after.locate (DiskPath.ofText path) = .ok here ∧
        content = Text.Utf8.encode ({} : Settings).toText) ∧
    (∀ here node, d.at? here = some node → log ≠ .ok (some here) →
      after.at? here = some node) ∧
    (∀ here, log = .ok (some here) →
      ∃ old, (d.at? here = none ∧ old = [] ∨ d.at? here = some (.file old)) ∧
        after.at? here = some (.file (old ++ i.log.text))) ∧
    ∀ later : Log,
      let again : Invocation := { i with log := later }
      let log' := (again.openLog after).2
      (later.day = i.log.day → log' = log) ∧
      (log'.isOk = log.isOk →
        (∀ text ∈ i.arguments.take 2, ∀ here, after.locate (DiskPath.ofText text) = .ok here →
          log ≠ .ok (some here) ∧ log' ≠ .ok (some here)) →
        (again.run after).output = (i.run d).output ∧
        (again.run after).exitCode = (i.run d).exitCode ∧
        ∀ here, log' ≠ .ok (some here) → (again.run after).disk.at? here = after.at? here) := by
  intro log after
  refine ⟨fun path hsettings => ⟨run_of_exists hargs hsettings, ?_⟩,
    fun here content => file_of_run hargs,
    fun here node => at?_run_of_at? hargs,
    fun here => at?_run_of_log hargs,
    fun later => ⟨openLog_again hargs, run_again hargs hmaps⟩⟩
  intro habsent hcan hopens hroom
  cases hlog : (i.openLog d).2 with
  | error e =>
    rw [show log = .error e from hlog] at hopens
    cases hopens
  | ok file =>
    exact read_run_of_absent hargs hlog hsettings (hmaps path hsettings) habsent hcan hroom

def expandA : Invocation where
  arguments := ["w.json", "s.txt"]
  environment := ⟨some "cache", none⟩
  input := []

def nextDay : Log where
  day := "1970-01-02"
  noSlash := by decide
  text := Text.Utf8.encode "workspace loaded"

def bareDisk : Disk :=
  (Disk.empty.set ["w.json"] (.file (Text.Utf8.encode
    (Browser.workspaceOf Browser.twoFoldersTree).toSnapshot.toJson.toText))).set
      ["s.txt"] (.file (Text.Utf8.encode "expand a"))

theorem bareDisk_rooted : bareDisk.Rooted := by
  have hworkspace (node : DiskNode) : (Disk.empty.set ["w.json"] node).Rooted :=
    Disk.rooted_empty.set [] rfl rfl
  exact (hworkspace _).set [] rfl rfl

/-- The first run writes the default settings, and one on the next day comes to the same. -/
theorem settings_file_written_once_bareDisk :
    let path := DiskPath.ofText "cache/giant-tree/settings.json"
    let after := (expandA.run bareDisk).disk
    let again : Invocation := { expandA with log := nextDay }
    expandA.environment.settingsPath? = some "cache/giant-tree/settings.json" ∧
      bareDisk.exists? path = false ∧ bareDisk.CanHold path ∧
      after.read path = .ok (Text.Utf8.encode ({} : Settings).toText) ∧
      after.at? ["cache", "giant-tree", "logs", "giant-tree.log.1970-01-01"] = some (.file []) ∧
      (again.run after).output = (expandA.run bareDisk).output ∧
      (again.run after).exitCode = (expandA.run bareDisk).exitCode := by
  intro path after again
  have hpath : path = ⟨false, ["cache", "giant-tree", "settings.json"]⟩ := by decide +kernel
  have hsettings : expandA.environment.settingsPath? = some "cache/giant-tree/settings.json" := by
    decide +kernel
  have hmaps : ∀ text, expandA.environment.settingsPath? = some text →
      bareDisk.MapsPath (DiskPath.ofText text) := by
    intro text htext
    rw [hsettings] at htext
    cases htext
    exact bareDisk_rooted.mapsPath (by decide +kernel)
  have habsent : bareDisk.exists? path = false := by
    rw [hpath]
    rfl
  have hcan : bareDisk.CanHold path := by
    rw [hpath]
    have hwithin : bareDisk.Within (bareDisk.provide
        ⟨false, ["cache", "giant-tree"] ++ ["settings.json"]⟩ []) :=
      Disk.within_provide (by decide)
    exact ⟨_, [], hwithin, rfl⟩
  have hlog : (expandA.openLog bareDisk).2 =
      .ok (some ["cache", "giant-tree", "logs", "giant-tree.log.1970-01-01"]) := by
    decide +kernel
  have hlog' : (again.openLog after).2 =
      .ok (some ["cache", "giant-tree", "logs", "giant-tree.log.1970-01-02"]) := by
    decide +kernel
  have hroom : (expandA.openLog bareDisk).1.look path ≠ .ok .directory := by decide +kernel
  have hinputs : ∀ text ∈ expandA.arguments.take 2,
      after.locate (DiskPath.ofText text) = .ok [text] := by
    decide +kernel
  obtain ⟨hfile, -, -, hadded, hagain⟩ :=
    settings_file_written_once expandA bareDisk (by decide) hmaps
  obtain ⟨old, hold, hadded⟩ := hadded _ hlog
  have hopens : (again.openLog after).2.isOk = (expandA.openLog bareDisk).2.isOk := by
    rw [hlog, hlog']
    rfl
  obtain ⟨houtput, hexit, -⟩ := (hagain nextDay).2 hopens fun text htext here hlocate => by
    rw [hinputs text htext, Except.ok.injEq] at hlocate
    rw [hlog, hlog']
    simp [← hlocate]
  have hnew : old = [] := by
    rcases hold with ⟨-, rfl⟩ | hold
    · rfl
    · cases hold
  rw [hnew] at hadded
  have hwritten := (hfile _ hsettings).2 habsent hcan (by rw [hlog]; rfl) hroom
  exact ⟨hsettings, habsent, hcan, hwritten, hadded, houtput, hexit⟩

end TreeBrowser.Invocation
