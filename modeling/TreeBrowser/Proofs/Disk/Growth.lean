import TreeBrowser.Disk.Change
import TreeBrowser.Proofs.Disk.Path

/-!
# Disks that grow

Where a path leads, and what is found there, is settled by what is on the disk, and stays so when
something is put where nothing was. Only that nothing was found may come to an end. Where a path
leads also stays the same when a file is given another content.
-/

namespace TreeBrowser.Disk

open DiskPath (isStay)

variable {d d' d'' : Disk} {here there : Location} {node : DiskNode} {path : DiskPath}
  {root : Bool} {pieces : List String} {piece : String} {content : List UInt8}

def Within (d d' : Disk) : Prop :=
  ∀ here node, d.at? here = some node → d'.at? here = some node

/-- The other disk has some directories more, and is as the first one otherwise. -/
def GainsDirectories (d d' : Disk) : Prop :=
  ∀ here, d'.at? here = d.at? here ∨ d.at? here = none ∧ d'.at? here = some .directory

/-- What is on a disk is also on the other one, where a file may hold something else. -/
def Keeps (d d' : Disk) : Prop :=
  ∀ here node, d.at? here = some node →
    ∃ node', d'.at? here = some node' ∧ (node' = .directory ↔ node = .directory)

theorem Within.refl (d : Disk) : d.Within d :=
  fun _ _ h => h

theorem Within.trans (h : d.Within d') (h' : d'.Within d'') : d.Within d'' :=
  fun here node hnode => h' here node (h here node hnode)

theorem Within.keeps (h : d.Within d') : d.Keeps d' :=
  fun here node hnode => ⟨node, h here node hnode, Iff.rfl⟩

theorem Keeps.trans (h : d.Keeps d') (h' : d'.Keeps d'') : d.Keeps d'' := by
  intro here node hnode
  obtain ⟨node', hnode', hkind⟩ := h here node hnode
  obtain ⟨node'', hnode'', hkind'⟩ := h' here node' hnode'
  exact ⟨node'', hnode'', hkind'.trans hkind⟩

theorem GainsDirectories.refl (d : Disk) : d.GainsDirectories d :=
  fun _ => Or.inl rfl

theorem GainsDirectories.trans (h : d.GainsDirectories d') (h' : d'.GainsDirectories d'') :
    d.GainsDirectories d'' := by
  intro here
  rcases h' here with heq | ⟨hnone, hdirectory⟩
  · rw [heq]
    exact h here
  · rcases h here with heq | ⟨hnone', hdirectory'⟩
    · rw [heq] at hnone
      exact Or.inr ⟨hnone, hdirectory⟩
    · rw [hdirectory'] at hnone
      cases hnone

theorem GainsDirectories.within (h : d.GainsDirectories d') : d.Within d' := by
  intro here node hnode
  rcases h here with heq | ⟨hnone, -⟩
  · rw [heq, hnode]
  · rw [hnode] at hnone
    cases hnone

theorem GainsDirectories.file (h : d.GainsDirectories d')
    (hfile : d'.at? here = some (.file content)) : d.at? here = some (.file content) := by
  rcases h here with heq | ⟨-, hdirectory⟩
  · rw [← heq, hfile]
  · rw [hdirectory] at hfile
    cases hfile

/-! ## Putting something where nothing is -/

theorem at?_of_isBase (h : here.isBase = true) : d.at? here = some .directory := by
  rw [at?, if_pos h]

theorem at?_set_of_ne_directory (h : d.at? here ≠ some .directory) :
    (d.set here node).at? there = if there = here then some node else d.at? there := by
  have hbase : ¬ here.isBase = true := fun hbase => h (at?_of_isBase hbase)
  by_cases hthere : there = here
  · rw [if_pos hthere, hthere, at?, if_neg hbase]
    simp [set]
  · have hne : ¬ here = there := fun heq => hthere heq.symm
    have hother (p : Location) : (!decide (p = here) && decide (p = there)) = (p == there) := by
      by_cases hp : p = there <;> simp [hp, hthere]
    rw [if_neg hthere, at?, at?, set, List.find?_cons_of_neg (by simp [hne]), List.find?_filter]
    simp [hother]

theorem at?_set (h : d.at? here = none) :
    (d.set here node).at? there = if there = here then some node else d.at? there :=
  at?_set_of_ne_directory (by rw [h]; nofun)

theorem within_set (h : d.at? here = none) : d.Within (d.set here node) := by
  intro there other hother
  rw [at?_set h]
  split
  next heq =>
    rw [heq, h] at hother
    cases hother
  next => exact hother

theorem set_within (hnone : d.at? here = none) (h : d.Within d')
    (hhere : d'.at? here = some node) : (d.set here node).Within d' := by
  intro there other hother
  rw [at?_set hnone] at hother
  split at hother
  next heq =>
    cases hother
    rw [heq, hhere]
  next => exact h there other hother

theorem gainsDirectories_set (h : d.at? here = none) :
    d.GainsDirectories (d.set here .directory) := by
  intro there
  rw [at?_set h]
  split
  next heq => exact Or.inr ⟨heq ▸ h, rfl⟩
  next => exact Or.inl rfl

/-! ## One piece of a path -/

def step (d : Disk) (here : Location) (piece : String) : Except DiskError Location :=
  match d.at? here with
  | none => .error .notFound
  | some (.file _) => .error .notADirectory
  | some .directory => here.enter piece

theorem follow_cons : d.follow here (piece :: pieces) =
    (d.step here piece).bind fun next => d.follow next pieces := by
  rw [follow, step]
  cases d.at? here with
  | none => rfl
  | some node =>
    cases node with
    | file => rfl
    | directory => cases here.enter piece <;> rfl

theorem follow_append (more : List String) : d.follow here (pieces ++ more) =
    (d.follow here pieces).bind fun there => d.follow there more := by
  induction pieces generalizing here with
  | nil => rfl
  | cons piece rest ih =>
    rw [List.cons_append, follow_cons, follow_cons]
    cases d.step here piece with
    | error e => rfl
    | ok next => exact ih

theorem enter_ne_error {e : DiskError} (hname : e ≠ .invalidFilename) (here : Location)
    (piece : String) : here.enter piece ≠ .error e := by
  unfold Location.enter
  split
  · simp
  · split
    · simp
    · split
      · simpa using hname.symm
      · simp

theorem step_eq_ok_iff :
    d.step here piece = .ok there ↔ d.at? here = some .directory ∧ here.enter piece = .ok there := by
  rw [step]
  cases d.at? here with
  | none => simp
  | some node => cases node <;> simp

theorem step_eq_notFound_iff : d.step here piece = .error .notFound ↔ d.at? here = none := by
  rw [step]
  cases d.at? here with
  | none => simp
  | some node =>
    have henter := enter_ne_error (e := .notFound) nofun here piece
    cases node <;> simp [henter]

theorem step_of_keeps (h : d.Keeps d') (hne : d.step here piece ≠ .error .notFound) :
    d'.step here piece = d.step here piece := by
  rw [Ne, step_eq_notFound_iff, ← Ne, Option.ne_none_iff_exists'] at hne
  obtain ⟨node, hnode⟩ := hne
  obtain ⟨node', hnode', hkind⟩ := h here node hnode
  rw [step, step, hnode, hnode']
  cases node <;> cases node' <;> simp_all

/-! ## Where paths lead -/

theorem follow_of_keeps (h : d.Keeps d') (hne : d.follow here pieces ≠ .error .notFound) :
    d'.follow here pieces = d.follow here pieces := by
  induction pieces generalizing here with
  | nil => rfl
  | cons piece rest ih =>
    rw [follow_cons] at hne
    rw [follow_cons, follow_cons]
    cases hstep : d.step here piece with
    | error e =>
      rw [hstep] at hne
      rw [step_of_keeps h (by rw [hstep]; exact hne), hstep]
      rfl
    | ok next =>
      rw [hstep] at hne
      rw [step_of_keeps h (by rw [hstep]; nofun), hstep]
      exact ih hne

/-- Where a path leads to depends on the directories alone. -/
theorem follow_of_directories
    (h : ∀ there, d.at? there = some .directory → d'.at? there = some .directory)
    (hfollow : d.follow here pieces = .ok there) : d'.follow here pieces = .ok there := by
  induction pieces generalizing here with
  | nil => exact hfollow
  | cons piece rest ih =>
    rw [follow_cons] at hfollow ⊢
    cases hstep : d.step here piece with
    | error e =>
      rw [hstep] at hfollow
      cases hfollow
    | ok next =>
      obtain ⟨hdirectory, henter⟩ := step_eq_ok_iff.1 hstep
      rw [hstep] at hfollow
      rw [step_eq_ok_iff.2 ⟨h here hdirectory, henter⟩]
      exact ih hfollow

theorem locate_of_fault {e : DiskError} (h : path.fault? = some e) : d.locate path = .error e := by
  rw [locate, locatePieces, h]

theorem fault?_of_locate (h : d.locate path = .ok here) : path.fault? = none := by
  by_contra hfault
  obtain ⟨e, hfault⟩ := Option.ne_none_iff_exists'.1 hfault
  rw [locate_of_fault hfault] at h
  cases h

theorem fault?_of_locate_error {e : DiskError} (hinput : e ≠ .invalidInput)
    (hname : e ≠ .invalidFilename) (h : d.locate path = .error e) : path.fault? = none := by
  by_contra hfault
  obtain ⟨e', hfault⟩ := Option.ne_none_iff_exists'.1 hfault
  rw [locate_of_fault hfault, Except.error.injEq] at h
  rw [h] at hfault
  exact DiskPath.fault?_ne_some hinput hname path hfault

theorem locate_of_text (h : path.fault? = none) :
    d.locate path = d.follow path.start path.pieces := by
  rw [locate, locatePieces, h]

theorem locate_of_directories
    (h : ∀ there, d.at? there = some .directory → d'.at? there = some .directory)
    (hlocate : d.locate path = .ok here) : d'.locate path = .ok here := by
  have hfault := fault?_of_locate hlocate
  rw [locate_of_text hfault] at hlocate ⊢
  exact follow_of_directories h hlocate

theorem locate_of_keeps (h : d.Keeps d') (hne : d.locate path ≠ .error .notFound) :
    d'.locate path = d.locate path := by
  cases hfault : path.fault? with
  | some e => rw [locate_of_fault hfault, locate_of_fault hfault]
  | none =>
    rw [locate_of_text hfault] at hne ⊢
    rw [locate_of_text hfault, follow_of_keeps h hne]

theorem locate_ok_of_keeps (h : d.Keeps d') (hlocate : d.locate path = .ok here) :
    d'.locate path = .ok here := by
  rw [locate_of_keeps h (by rw [hlocate]; nofun), hlocate]

theorem look_eq_ok_iff :
    d.look path = .ok node ↔ ∃ here, d.locate path = .ok here ∧ d.at? here = some node := by
  rw [look]
  cases d.locate path with
  | error e => simp
  | ok here => cases h : d.at? here <;> simp [h]

theorem look_eq_notFound_iff :
    d.look path = .error .notFound ↔ d.locate path = .error .notFound ∨
      ∃ here, d.locate path = .ok here ∧ d.at? here = none := by
  rw [look]
  cases d.locate path with
  | error e => simp
  | ok here => cases h : d.at? here <;> simp [h]

theorem look_set (hlocate : d.locate path = .ok here) (hnone : d.at? here = none) :
    (d.set here node).look path = .ok node := by
  refine look_eq_ok_iff.2 ⟨here, locate_ok_of_keeps (within_set hnone).keeps hlocate, ?_⟩
  rw [at?_set hnone, if_pos rfl]

/-- What a path leads to, it leads to as long as nothing is taken away, and so does what stands in
its way. -/
theorem look_of_within (h : d.Within d') (hne : d.look path ≠ .error .notFound) :
    d'.look path = d.look path := by
  rw [Ne, look_eq_notFound_iff, not_or, not_exists] at hne
  rw [look, look, locate_of_keeps h.keeps hne.1]
  cases hlocate : d.locate path with
  | error e => rfl
  | ok here =>
    cases hnode : d.at? here with
    | none => exact absurd ⟨hlocate, hnode⟩ (hne.2 here)
    | some node => simp only [h here node hnode, hnode]

theorem look_ok_of_within (h : d.Within d') (hlook : d.look path = .ok node) :
    d'.look path = .ok node := by
  rw [look_of_within h (by rw [hlook]; nofun), hlook]

/-- What is settled stays settled: a path goes on leading to the same, or to a file that may hold
something else. -/
theorem look_of_keeps (h : d.Keeps d') (hne : d.look path ≠ .error .notFound) :
    d'.look path = d.look path ∨
      ∃ content content', d.look path = .ok (.file content) ∧
        d'.look path = .ok (.file content') := by
  rw [Ne, look_eq_notFound_iff, not_or, not_exists] at hne
  rw [look, look, locate_of_keeps h hne.1]
  cases hlocate : d.locate path with
  | error e => exact Or.inl rfl
  | ok here =>
    cases hnode : d.at? here with
    | none => exact absurd ⟨hlocate, hnode⟩ (hne.2 here)
    | some node =>
      obtain ⟨node', hnode', hkind⟩ := h here node hnode
      dsimp only
      rw [hnode, hnode']
      cases node with
      | directory => exact Or.inl (by rw [hkind.2 rfl])
      | file content =>
        cases node' with
        | directory => cases hkind.1 rfl
        | file content' => exact Or.inr ⟨content, content', rfl, rfl⟩

theorem look_ne_notFound_of_keeps (h : d.Keeps d') (hne : d.look path ≠ .error .notFound) :
    d'.look path ≠ .error .notFound := by
  rcases look_of_keeps h hne with heq | ⟨content, content', -, heq⟩
  · rwa [heq]
  · rw [heq]
    nofun

theorem look_eq_directory_iff_of_keeps (h : d.Keeps d') (hne : d.look path ≠ .error .notFound) :
    d'.look path = .ok .directory ↔ d.look path = .ok .directory := by
  rcases look_of_keeps h hne with heq | ⟨content, content', heq, heq'⟩
  · rw [heq]
  · simp [heq, heq']

theorem read_eq_ok_iff : d.read path = .ok content ↔ d.look path = .ok (.file content) := by
  rw [read]
  cases d.look path with
  | error e => simp
  | ok node => cases node <;> simp

theorem exists?_iff : d.exists? path = true ↔ ∃ node, d.look path = .ok node := by
  rw [exists?]
  cases d.look path <;> simp [Except.isOk, Except.toBool]

theorem read_ne_ok_of_absent (h : d.exists? path = false) : d.read path ≠ .ok content := by
  intro hread
  rw [exists?_iff.2 ⟨_, read_eq_ok_iff.1 hread⟩] at h
  cases h

/-! ## The directory around a path -/

/-- Pieces that lead nowhere else make no difference to the piece behind them. -/
theorem follow_stays {stays : List String} (h : ∀ stay ∈ stays, isStay stay = true) :
    d.follow here (stays ++ [piece]) = d.step here piece := by
  induction stays with
  | nil =>
    rw [List.nil_append, follow_cons]
    cases d.step here piece <;> rfl
  | cons stay rest ih =>
    rw [List.forall_mem_cons] at h
    rw [List.cons_append, follow_cons, step]
    cases hnode : d.at? here with
    | none => rw [step, hnode]; rfl
    | some node =>
      cases node with
      | file => rw [step, hnode]; rfl
      | directory =>
        have henter : here.enter stay = .ok here := by
          rw [Location.enter, if_pos h.1]
        rw [henter]
        exact ih h.2

theorem follow_append_piece : d.follow here (pieces ++ [piece]) =
    (d.follow here (pieces.rdropWhile isStay)).bind fun there => d.step there piece := by
  have hstays : ∀ stay ∈ pieces.rtakeWhile isStay, isStay stay = true :=
    fun stay => List.mem_rtakeWhile_imp
  calc d.follow here (pieces ++ [piece])
      = d.follow here
          (pieces.rdropWhile isStay ++ (pieces.rtakeWhile isStay ++ [piece])) := by
        rw [← List.append_assoc, List.rdropWhile_append_rtakeWhile]
    _ = (d.follow here (pieces.rdropWhile isStay)).bind fun there =>
          d.follow there (pieces.rtakeWhile isStay ++ [piece]) :=
        follow_append _
    _ = (d.follow here (pieces.rdropWhile isStay)).bind fun there => d.step there piece := by
        simp only [follow_stays hstays]

theorem locate_append_piece (h : DiskPath.fault? ⟨root, pieces ++ [piece]⟩ = none) :
    d.locate ⟨root, pieces ++ [piece]⟩ =
      (d.locate ⟨root, pieces.rdropWhile isStay⟩).bind fun there => d.step there piece := by
  have hprefix : pieces.rdropWhile isStay <+: pieces ++ [piece] :=
    (List.rdropWhile_prefix isStay pieces).trans (List.prefix_append _ _)
  rw [locate_of_text h, locate_of_text (DiskPath.fault?_of_prefix hprefix h)]
  exact follow_append_piece

theorem locate_append_piece_eq_ok_iff :
    d.locate ⟨root, pieces ++ [piece]⟩ = .ok there ↔
      DiskPath.fault? ⟨root, pieces ++ [piece]⟩ = none ∧
        ∃ around, d.locate ⟨root, pieces.rdropWhile isStay⟩ = .ok around ∧
          d.at? around = some .directory ∧ around.enter piece = .ok there := by
  constructor
  · intro h
    have hfault := fault?_of_locate h
    rw [locate_append_piece hfault] at h
    cases haround : d.locate ⟨root, pieces.rdropWhile isStay⟩ with
    | error e =>
      rw [haround] at h
      cases h
    | ok around =>
      rw [haround] at h
      exact ⟨hfault, around, rfl, step_eq_ok_iff.1 h⟩
  · rintro ⟨hfault, around, haround, hstep⟩
    rw [locate_append_piece hfault, haround]
    exact step_eq_ok_iff.2 hstep

theorem look_around_of_locate (h : d.locate ⟨root, pieces ++ [piece]⟩ = .ok there) :
    d.look ⟨root, pieces.rdropWhile isStay⟩ = .ok .directory := by
  obtain ⟨-, around, haround, hdirectory, -⟩ := locate_append_piece_eq_ok_iff.1 h
  exact look_eq_ok_iff.2 ⟨around, haround, hdirectory⟩

/-- A path goes through something that is not found exactly when what is around it is not found. -/
theorem locate_eq_notFound_iff_around
    (hfault : DiskPath.fault? ⟨root, pieces ++ [piece]⟩ = none) :
    d.locate ⟨root, pieces ++ [piece]⟩ = .error .notFound ↔
      d.look ⟨root, pieces.rdropWhile isStay⟩ = .error .notFound := by
  rw [locate_append_piece hfault, look_eq_notFound_iff]
  cases haround : d.locate ⟨root, pieces.rdropWhile isStay⟩ with
  | error e => simp [Except.bind]
  | ok around => simp [Except.bind, step_eq_notFound_iff]

theorem look_around_of_notFound
    (h : d.locate ⟨root, pieces ++ [piece]⟩ = .error .notFound) :
    d.look ⟨root, pieces.rdropWhile isStay⟩ = .error .notFound :=
  (locate_eq_notFound_iff_around
    (fault?_of_locate_error (by decide) (by decide) h)).1 h

/-! ## A name at the end of a path -/

theorem enter_of_name (hstay : isStay piece = false) (hup : piece ≠ "..") :
    here.enter piece =
      if Location.nameLimit < piece.utf8ByteSize then .error .invalidFilename
      else .ok (here ++ [piece]) := by
  rw [Location.enter, hstay, if_neg Bool.false_ne_true, if_neg (by simpa using hup)]

theorem locate_of_look_around (hfault : DiskPath.fault? ⟨root, pieces ++ [piece]⟩ = none)
    (hstay : isStay piece = false) (hup : piece ≠ "..")
    (hshort : piece.utf8ByteSize ≤ Location.nameLimit)
    (h : d.look ⟨root, pieces.rdropWhile isStay⟩ = .ok .directory) :
    ∃ there, d.locate ⟨root, pieces ++ [piece]⟩ = .ok there := by
  obtain ⟨around, haround, hdirectory⟩ := look_eq_ok_iff.1 h
  have henter : around.enter piece = .ok (around ++ [piece]) := by
    rw [enter_of_name hstay hup, if_neg (Nat.not_lt.2 hshort)]
  exact ⟨_, locate_append_piece_eq_ok_iff.2 ⟨hfault, around, haround, hdirectory, henter⟩⟩

theorem getLast?_of_locate (hstay : isStay piece = false) (hup : piece ≠ "..")
    (h : d.locate ⟨root, pieces ++ [piece]⟩ = .ok there) : there.getLast? = some piece := by
  obtain ⟨-, around, -, -, henter⟩ := locate_append_piece_eq_ok_iff.1 h
  rw [enter_of_name hstay hup] at henter
  split at henter
  · cases henter
  · cases henter
    rw [List.getLast?_concat]

end TreeBrowser.Disk
