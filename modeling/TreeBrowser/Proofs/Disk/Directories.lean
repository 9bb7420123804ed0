import TreeBrowser.Proofs.Disk.Reading

/-!
# Making directories

Directories are made around a path one inside the other. However this ends, the disk has only gained
directories, and what the path leads to is settled: it is a directory when the making went well, and
something is in the way of one when it did not.
-/

namespace TreeBrowser.Disk

open DiskPath (isStay)

variable {d : Disk} {path : DiskPath} {root : Bool} {pieces : List String} {piece : String}

/-- What has come of the making of a directory: the disk after it, and whether it went well. The disk
has gained no more directories than any disk has to hold that holds the directory. -/
structure MakesDirectory (d : Disk) (path : DiskPath) (result : Disk × Except DiskError Unit) :
    Prop where
  gains : d.GainsDirectories result.1
  settled : result.1.look path ≠ .error .notFound
  made : result.1.look path = .ok .directory → result.2 = .ok ()
  least : ∀ d', d.Within d' → d'.look path = .ok .directory → result.1.Within d'

/-! ## One directory -/

theorem makeDirectory_eq (hopen : path.openPieces = path.pieces) :
    d.makeDirectory path = (d.locate path).bind fun here =>
      match d.at? here with
      | none => .ok (d.set here .directory)
      | some .directory => .ok d
      | some (.file _) => .error .alreadyExists := by
  rw [makeDirectory, hopen, ← locate]
  cases d.locate path <;> rfl

theorem makeDirectory_eq_notFound_iff (hopen : path.openPieces = path.pieces) :
    d.makeDirectory path = .error .notFound ↔ d.locate path = .error .notFound := by
  rw [makeDirectory_eq hopen]
  cases d.locate path with
  | error e => simp [Except.bind]
  | ok here =>
    cases hnode : d.at? here with
    | none => simp [Except.bind, hnode]
    | some node => cases node <;> simp [Except.bind, hnode]

theorem makesDirectory_refl {result : Except DiskError Unit}
    (hsettled : d.look path ≠ .error .notFound)
    (hmade : d.look path = .ok .directory → result = .ok ()) : d.MakesDirectory path (d, result) :=
  ⟨.refl d, hsettled, hmade, fun _ h _ => h⟩

/-- The directory is new, or is there already, or something is in its way. -/
theorem after_makeDirectory_cases (hopen : path.openPieces = path.pieces) :
    (∃ here, d.locate path = .ok here ∧ d.at? here = none ∧
      d.after (d.makeDirectory path) = (d.set here .directory, .ok ())) ∨
    (d.look path = .ok .directory ∧ d.after (d.makeDirectory path) = (d, .ok ())) ∨
    ∃ e, d.after (d.makeDirectory path) = (d, .error e) ∧
      (d.locate path = .error e ∨ ∃ content, d.look path = .ok (.file content)) := by
  rw [makeDirectory_eq hopen]
  cases hlocate : d.locate path with
  | error e => exact Or.inr (Or.inr ⟨e, rfl, Or.inl rfl⟩)
  | ok here =>
    dsimp only [Except.bind]
    cases hnode : d.at? here with
    | none => exact Or.inl ⟨here, rfl, hnode, rfl⟩
    | some node =>
      have hlook : d.look path = .ok node := look_eq_ok_iff.2 ⟨here, hlocate, hnode⟩
      cases node with
      | directory => exact Or.inr (Or.inl ⟨hlook, rfl⟩)
      | file content => exact Or.inr (Or.inr ⟨_, rfl, Or.inr ⟨content, hlook⟩⟩)

/-- The making of a directory settles what its path leads to, unless something on the way to it is
not found. -/
theorem makesDirectory_after (hopen : path.openPieces = path.pieces)
    (h : d.locate path ≠ .error .notFound) :
    d.MakesDirectory path (d.after (d.makeDirectory path)) := by
  rcases d.after_makeDirectory_cases hopen with
    ⟨here, hlocate, hnone, hafter⟩ | ⟨hlook, hafter⟩ | ⟨e, hafter, hfails⟩
  · have hlook : (d.set here .directory).look path = .ok .directory := look_set hlocate hnone
    rw [hafter]
    refine ⟨gainsDirectories_set hnone, by simp [hlook], fun _ => rfl, ?_⟩
    intro d' hd' hlook'
    obtain ⟨here', hlocate', hnode'⟩ := look_eq_ok_iff.1 hlook'
    rw [locate_ok_of_keeps hd'.keeps hlocate] at hlocate'
    cases hlocate'
    exact set_within hnone hd' hnode'
  · rw [hafter]
    exact makesDirectory_refl (by simp [hlook]) fun _ => rfl
  · rw [hafter]
    rcases hfails with hlocate | ⟨content, hlook⟩
    · have hlook : d.look path = .error e := by rw [look, hlocate]
      rw [hlocate] at h
      exact makesDirectory_refl (by simpa [hlook] using h) (by simp [hlook])
    · exact makesDirectory_refl (by simp [hlook]) (by simp [hlook])

theorem after_makeDirectory_of_settled (hopen : path.openPieces = path.pieces)
    (h : d.look path ≠ .error .notFound) : (d.after (d.makeDirectory path)).1 = d := by
  rcases d.after_makeDirectory_cases hopen with
    ⟨here, hlocate, hnone, -⟩ | ⟨-, hafter⟩ | ⟨e, hafter, -⟩
  · exact absurd (look_eq_notFound_iff.2 (Or.inr ⟨here, hlocate, hnone⟩)) h
  · rw [hafter]
  · rw [hafter]

theorem look_after_makeDirectory (hopen : path.openPieces = path.pieces)
    (h : (d.after (d.makeDirectory path)).2 = .ok ()) :
    (d.after (d.makeDirectory path)).1.look path = .ok .directory := by
  rcases d.after_makeDirectory_cases hopen with
    ⟨here, hlocate, hnone, hafter⟩ | ⟨hlook, hafter⟩ | ⟨e, hafter, -⟩
  · rw [hafter]
    exact look_set hlocate hnone
  · rw [hafter]
    exact hlook
  · rw [hafter] at h
    cases h

/-! ## Directories one inside the other -/

theorem makeInnermost_cons_of_locate (hopen : path.openPieces = path.pieces)
    (h : d.locate path ≠ .error .notFound) (around : List DiskPath) :
    d.makeInnermost (path :: around) = d.after (d.makeDirectory path) := by
  rw [makeInnermost]
  cases hmake : d.makeDirectory path with
  | ok => rfl
  | error e =>
    cases e with
    | notFound => exact absurd ((makeDirectory_eq_notFound_iff hopen).1 hmake) h
    | _ => rfl

theorem makeInnermost_cons_of_notFound (hopen : path.openPieces = path.pieces)
    (h : d.locate path = .error .notFound) (around : List DiskPath) :
    (∃ d₁, d.makeInnermost around = (d₁, .ok ()) ∧
      d.makeInnermost (path :: around) = d₁.after (d₁.makeDirectory path)) ∨
    ∃ d₁ e, d.makeInnermost around = (d₁, .error e) ∧
      d.makeInnermost (path :: around) = (d₁, .error e) := by
  rw [makeInnermost.eq_def d (path :: around)]
  simp only [(makeDirectory_eq_notFound_iff hopen).2 h]
  rcases d.makeInnermost around with ⟨d₁, e | ⟨⟩⟩
  · exact Or.inr ⟨d₁, e, rfl, rfl⟩
  · exact Or.inl ⟨d₁, rfl, rfl⟩

theorem MakesDirectory.inside {around inside : Disk × Except DiskError Unit}
    (haround : d.MakesDirectory ⟨root, pieces.rdropWhile isStay⟩ around)
    (hinside : around.1.MakesDirectory ⟨root, pieces ++ [piece]⟩ inside) :
    d.MakesDirectory ⟨root, pieces ++ [piece]⟩ inside := by
  refine ⟨haround.gains.trans hinside.gains, hinside.settled, hinside.made, ?_⟩
  intro d' hd' hlook
  obtain ⟨here, hhere, -⟩ := look_eq_ok_iff.1 hlook
  exact hinside.least d' (haround.least d' hd' (look_around_of_locate hhere)) hlook

/-- What stands in the way of a directory stands in the way of all that would be in it. -/
theorem MakesDirectory.fails_inside {d₁ : Disk} {e : DiskError}
    (haround : d.MakesDirectory ⟨root, pieces.rdropWhile isStay⟩ (d₁, .error e)) :
    d.MakesDirectory ⟨root, pieces ++ [piece]⟩ (d₁, .error e) := by
  have hlocate (here : Location) : d₁.locate ⟨root, pieces ++ [piece]⟩ ≠ .ok here := by
    intro hhere
    cases haround.made (look_around_of_locate hhere)
  refine haround.inside (makesDirectory_refl ?_ ?_)
  · rw [Ne, look_eq_notFound_iff]
    rintro (hnone | ⟨here, hhere, -⟩)
    · exact haround.settled (look_around_of_notFound hnone)
    · exact hlocate here hhere
  · intro hlook
    obtain ⟨here, hhere, -⟩ := look_eq_ok_iff.1 hlook
    exact absurd hhere (hlocate here)

/-- With what is around it made first where that is missing, every directory is settled. -/
theorem makesDirectory_makeDirectories (d : Disk) (root : Bool) (pieces : List String) :
    d.MakesDirectory ⟨root, pieces.rdropWhile isStay⟩
      (d.makeDirectories ⟨root, pieces.rdropWhile isStay⟩) := by
  induction pieces using List.reverseRecOn with
  | nil =>
    -- The directory in which paths start is always there.
    have hlocate : d.locate ⟨root, []⟩ ≠ .error .notFound := by
      intro h
      rw [locate_of_text (fault?_of_locate_error (by decide) (by decide) h)] at h
      cases h
    rw [List.rdropWhile_nil, makeDirectories, makeInnermost_cons_of_locate rfl hlocate]
    exact makesDirectory_after rfl hlocate
  | append_singleton pieces piece ih =>
    cases hpiece : isStay piece with
    | true => rwa [List.rdropWhile_concat_pos _ _ _ hpiece]
    | false =>
      rw [List.rdropWhile_concat_neg _ _ _ (by simp [hpiece]), makeDirectories,
        DiskPath.around_append_name hpiece]
      have hopen : DiskPath.openPieces ⟨root, pieces ++ [piece]⟩ = pieces ++ [piece] :=
        DiskPath.openPieces_append_name hpiece
      by_cases hlocate : d.locate ⟨root, pieces ++ [piece]⟩ = .error .notFound
      · rcases makeInnermost_cons_of_notFound hopen hlocate _ with
          ⟨d₁, haround, hmake⟩ | ⟨d₁, e, haround, hmake⟩
        · rw [makeDirectories, haround] at ih
          rw [hmake]
          apply ih.inside
          exact makesDirectory_after hopen fun h => ih.settled (look_around_of_notFound h)
        · rw [makeDirectories, haround] at ih
          rw [hmake]
          exact ih.fails_inside
      · rw [makeInnermost_cons_of_locate hopen hlocate]
        exact makesDirectory_after hopen hlocate

/-! ## The directory of a name -/

variable {name : String}

theorem makesDirectory_of_name (d : Disk) (root : Bool) (pieces : List String)
    (hname : isStay name = false) :
    d.MakesDirectory ⟨root, pieces ++ [name]⟩ (d.makeDirectories ⟨root, pieces ++ [name]⟩) := by
  have h := d.makesDirectory_makeDirectories root (pieces ++ [name])
  rwa [List.rdropWhile_concat_neg _ _ _ (by simp [hname])] at h

theorem makeDirectories_of_settled (hopen : path.openPieces = path.pieces)
    (h : d.look path ≠ .error .notFound) : (d.makeDirectories path).1 = d := by
  have hlocate : d.locate path ≠ .error .notFound :=
    fun hlocate => h (look_eq_notFound_iff.2 (Or.inl hlocate))
  rw [makeDirectories, makeInnermost_cons_of_locate hopen hlocate]
  exact after_makeDirectory_of_settled hopen h

theorem look_makeDirectories (hopen : path.openPieces = path.pieces)
    (h : (d.makeDirectories path).2 = .ok ()) :
    (d.makeDirectories path).1.look path = .ok .directory := by
  rw [makeDirectories] at h ⊢
  by_cases hlocate : d.locate path = .error .notFound
  · rcases makeInnermost_cons_of_notFound hopen hlocate path.around with
      ⟨d₁, -, hmake⟩ | ⟨d₁, e, -, hmake⟩
    · rw [hmake] at h ⊢
      exact look_after_makeDirectory hopen h
    · rw [hmake] at h
      cases h
  · rw [makeInnermost_cons_of_locate hopen hlocate] at h ⊢
    exact look_after_makeDirectory hopen h

/-- Making a directory again does nothing more, and ends in the same way. -/
theorem makeDirectories_again (hname : isStay name = false) {d' : Disk}
    (hkeeps : (d.makeDirectories ⟨root, pieces ++ [name]⟩).1.Keeps d') :
    (d'.makeDirectories ⟨root, pieces ++ [name]⟩).1 = d' ∧
      (d'.makeDirectories ⟨root, pieces ++ [name]⟩).2.toOption =
        (d.makeDirectories ⟨root, pieces ++ [name]⟩).2.toOption := by
  have hopen : DiskPath.openPieces ⟨root, pieces ++ [name]⟩ = pieces ++ [name] :=
    DiskPath.openPieces_append_name hname
  have hfirst := d.makesDirectory_of_name root pieces hname
  have hsecond := d'.makesDirectory_of_name root pieces hname
  have hsettled := look_ne_notFound_of_keeps hkeeps hfirst.settled
  have hsame := makeDirectories_of_settled hopen hsettled
  have hlook := look_eq_directory_iff_of_keeps hkeeps hfirst.settled
  refine ⟨hsame, toOption_eq_of_ok_iff fun _ => ⟨fun h => ?_, fun h => ?_⟩⟩
  · have hdirectory := look_makeDirectories hopen h
    rw [hsame] at hdirectory
    exact hfirst.made (hlook.1 hdirectory)
  · apply hsecond.made
    rw [hsame]
    exact hlook.2 (look_makeDirectories hopen h)

/-- A directory that cannot be made does not keep the one around it from being made, if any disk
that holds more has that one. -/
theorem look_around_makeDirectories (hname : isStay name = false)
    (hfault : DiskPath.fault? ⟨root, pieces ++ [name]⟩ = none) {d' : Disk} (hwithin : d.Within d')
    (h : d'.look ⟨root, pieces.rdropWhile isStay⟩ = .ok .directory) :
    (d.makeDirectories ⟨root, pieces ++ [name]⟩).1.look ⟨root, pieces.rdropWhile isStay⟩ =
      .ok .directory := by
  have hopen : DiskPath.openPieces ⟨root, pieces ++ [name]⟩ = pieces ++ [name] :=
    DiskPath.openPieces_append_name hname
  have hstays {e : Disk} (he : e.look ⟨root, pieces.rdropWhile isStay⟩ = .ok .directory) :
      (e.after (e.makeDirectory ⟨root, pieces ++ [name]⟩)).1.look
        ⟨root, pieces.rdropWhile isStay⟩ = .ok .directory := by
    have hmakes := makesDirectory_after (d := e) hopen fun hlocate => by
      rw [look_around_of_notFound hlocate] at he
      cases he
    exact look_ok_of_within hmakes.gains.within he
  rw [makeDirectories, DiskPath.around_append_name hname]
  by_cases hlocate : d.locate ⟨root, pieces ++ [name]⟩ = .error .notFound
  · have haround := d.makesDirectory_makeDirectories root pieces
    have hmade : (d.makeDirectories ⟨root, pieces.rdropWhile isStay⟩).1.look
        ⟨root, pieces.rdropWhile isStay⟩ = .ok .directory := by
      rw [← look_of_within (haround.least d' hwithin h) haround.settled, h]
    rcases makeInnermost_cons_of_notFound hopen hlocate _ with
      ⟨d₁, hinner, hmake⟩ | ⟨d₁, e, hinner, hmake⟩
    · rw [makeDirectories, hinner] at hmade
      rw [hmake]
      exact hstays hmade
    · rw [makeDirectories, hinner] at hmade
      rwa [hmake]
  · have hsettled : d.look ⟨root, pieces.rdropWhile isStay⟩ ≠ .error .notFound :=
      fun hnone => hlocate ((locate_eq_notFound_iff_around hfault).2 hnone)
    rw [look_of_within hwithin hsettled] at h
    rw [makeInnermost_cons_of_locate hopen hlocate]
    exact hstays h

/-! ## Directories around a path -/

/-- Directories are made around a path until it is settled what is around it. -/
theorem makesDirectory_makeAround (d : Disk) (root : Bool) (pieces : List String)
    (hpiece : isStay piece = false) :
    d.MakesDirectory ⟨root, pieces.rdropWhile isStay⟩
      (d.makeAround ⟨root, pieces ++ [piece]⟩) := by
  rw [makeAround, DiskPath.parent?_append_name hpiece]
  dsimp only
  split
  next hexists =>
    obtain ⟨node, hnode⟩ := exists?_iff.1 hexists
    exact makesDirectory_refl (by simp [hnode]) fun _ => rfl
  next => exact makesDirectory_makeDirectories d root pieces

theorem makeAround_of_settled (hpiece : isStay piece = false)
    (h : d.look ⟨root, pieces.rdropWhile isStay⟩ ≠ .error .notFound) :
    (d.makeAround ⟨root, pieces ++ [piece]⟩).1 = d := by
  rw [makeAround, DiskPath.parent?_append_name hpiece]
  dsimp only
  split
  next => rfl
  next => exact makeDirectories_of_settled DiskPath.openPieces_rdropWhile h

end TreeBrowser.Disk
