import TreeBrowser.Proofs.Disk.Files
import TreeBrowser.Settings.File

/-!
# Making sure of a settings file

The settings file of a user is provided with the default settings. The settings that count, those in
the file or else the default ones, are therefore the same before and after.
-/

namespace TreeBrowser

open DiskPath (isStay)

variable {d : Disk} {env : Environment} {path : String} {root : Bool} {pieces : List String}
  {name : String}

theorem Environment.ofText_ownPaths (h : env.settingsPath? = some path) :
    ∃ root pieces logs, DiskPath.ofText path = ⟨root, pieces ++ ["settings.json"]⟩ ∧
      env.logDirectory? = some logs ∧ DiskPath.ofText logs = ⟨root, pieces ++ ["logs"]⟩ := by
  obtain ⟨dir, hdir, rfl⟩ := Option.map_eq_some_iff.1 h
  obtain ⟨root, pieces, hjoin⟩ := DiskPath.ofText_joinText dir
  refine ⟨root, pieces, _, hjoin _ (by decide) (by decide), ?_, hjoin _ (by decide) (by decide)⟩
  rw [Environment.logDirectory?, hdir, Option.map_some]

theorem Environment.ofText_settingsPath (h : env.settingsPath? = some path) :
    ∃ root pieces, DiskPath.ofText path = ⟨root, pieces ++ ["settings.json"]⟩ := by
  obtain ⟨root, pieces, -, hpath, -⟩ := env.ofText_ownPaths h
  exact ⟨root, pieces, hpath⟩

namespace Settings

def defaultContent : List UInt8 :=
  Text.Utf8.encode ({} : Settings).toText

theorem read_defaultContent :
    (Text.Utf8.decode? defaultContent).bind ofText? = some ({} : Settings) := by
  decide +kernel

theorem writeDefault_fst (hpath : DiskPath.ofText path = ⟨root, pieces ++ [name]⟩)
    (hname : isStay name = false) (d : Disk) :
    (writeDefault d path).1 = d.provide ⟨root, pieces ++ [name]⟩ defaultContent := by
  have haround := d.makesDirectory_makeAround root pieces hname
  rw [writeDefault, hpath, Disk.provide]
  cases hmake : d.makeAround ⟨root, pieces ++ [name]⟩ with
  | mk d₁ result =>
    rw [hmake] at haround
    cases result with
    | error e =>
      -- There is no directory around the path, so that it leads nowhere.
      rcases d₁.fill_cases ⟨root, pieces ++ [name]⟩ defaultContent with
        ⟨here, hlocate, -⟩ | ⟨-, hfill⟩
      · cases haround.made (Disk.look_around_of_locate hlocate)
      · exact hfill.symm
    | ok =>
      dsimp only
      cases hexists : d₁.exists? ⟨root, pieces ++ [name]⟩ with
      | true => rw [if_pos rfl, Disk.fill_of_exists hexists]
      | false =>
        rw [if_neg Bool.false_ne_true]
        exact Disk.after_write_of_absent hname hexists

theorem ensureFile_fst (h : env.settingsPath? = some path) :
    ∃ root pieces, DiskPath.ofText path = ⟨root, pieces ++ ["settings.json"]⟩ ∧
      ∀ d, (ensureFile d env).1 = d.provide ⟨root, pieces ++ ["settings.json"]⟩ defaultContent := by
  obtain ⟨root, pieces, hpath⟩ := env.ofText_settingsPath h
  refine ⟨root, pieces, hpath, fun d => ?_⟩
  rw [← writeDefault_fst hpath (by decide), ensureFile, h]
  dsimp only
  rcases writeDefault d path with ⟨d₁, e | ⟨⟩⟩ <;> rfl

theorem ensureFile_fst_of_none (h : env.settingsPath? = none) : (ensureFile d env).1 = d := by
  rw [ensureFile, h]

/-! ## The settings that count -/

theorem load?_eq (h : env.settingsPath? = some path) :
    load? d env = (d.read (DiskPath.ofText path)).toOption.bind fun content =>
      (Text.Utf8.decode? content).bind ofText? := by
  rw [load?, h, Option.bind_some, loadFrom, ← Option.bind_assoc, ← Disk.toOption_readText]
  cases d.readText (DiskPath.ofText path) with
  | error e => rfl
  | ok text =>
    dsimp only [Except.toOption, Option.bind_some]
    cases ofText? text <;> rfl

theorem load?_congr {d' : Disk} (h : ∀ path, env.settingsPath? = some path →
    (d'.read (DiskPath.ofText path)).toOption = (d.read (DiskPath.ofText path)).toOption) :
    load? d' env = load? d env := by
  cases hsettings : env.settingsPath? with
  | none => simp only [load?, hsettings, Option.bind_none]
  | some path => rw [load?_eq hsettings, load?_eq hsettings, h path hsettings]

theorem load?_ensureFile (hmaps : ∀ path, env.settingsPath? = some path →
    d.MapsPath (DiskPath.ofText path)) :
    (load? (ensureFile d env).1 env).getD {} = (load? d env).getD {} := by
  cases hsettings : env.settingsPath? with
  | none => rw [ensureFile_fst_of_none hsettings]
  | some path =>
    have hmaps := hmaps path hsettings
    obtain ⟨root, pieces, hpath, hensure⟩ := ensureFile_fst hsettings
    rw [hensure, load?_eq hsettings, load?_eq hsettings]
    rw [hpath] at hmaps ⊢
    cases hexists : d.exists? ⟨root, pieces ++ ["settings.json"]⟩ with
    | true => rw [Disk.provide_of_exists (by decide) hexists]
    | false =>
      cases hread : d.read ⟨root, pieces ++ ["settings.json"]⟩ with
      | ok content => exact absurd hread (Disk.read_ne_ok_of_absent hexists)
      | error e =>
        cases hread' : (d.provide ⟨root, pieces ++ ["settings.json"]⟩ defaultContent).read
            ⟨root, pieces ++ ["settings.json"]⟩ with
        | error e' => rfl
        | ok content =>
          -- What is read now and was not before is what has been written.
          rcases Disk.read_of_provide (by decide) hmaps hread' with hbefore | rfl
          · exact absurd hbefore (Disk.read_ne_ok_of_absent hexists)
          · simp [Except.toOption, read_defaultContent]

end Settings

end TreeBrowser
