import DDSFunctionGen.Fat.CardRuns

/-!
# A card that is mounted

From `f_mount` on, over every sequence of accesses, the file system answers as the card
does; what is listed can be opened.
-/

namespace DDSFunctionGen.Fat

open DDSFunctionGen.SdCard DDSFunctionGen.Semantics DDSFunctionGen.Sequences

variable {Disk : Type} {drive : Drive Disk} {image : Image} {limit : Nat} {Ready : Disk → Prop}
  {mount : Mount} {card : Card} {directory : List CString → Option (Table mount image)}
  {vols : Volumes Disk} {fp : Fil} {fil : SdCard.Fil} {dir : Dir} {fno : FilInfo}

section Listed

variable {names : List CString} {entries : List FileInfo} {file : FileInfo}

/-- The names of a directory, and those that it lists. -/
theorem Holds.isShown_names (holds : Holds card directory)
    (isDirectory : (directory names).isSome) : ∀ name ∈ names, IsShown name := by
  induction names using List.reverseRecOn with
  | nil => simp
  | append_singleton front name inductionHypothesis =>
      obtain ⟨sub, isSub⟩ := Option.isSome_iff_exists.mp isDirectory
      obtain ⟨table, isTable, entry, member, rfl, -⟩ := holds.reached isSub
      obtain ⟨stored, isNamed⟩ := (holds.named isTable entry member).2
      have above := inductionHypothesis (Option.isSome_of_eq_some isTable)
      exact List.forall_mem_append.mpr ⟨above,
        List.forall_mem_singleton.mpr ⟨stored, isNamed.visible, isNamed.shows.symm⟩⟩

theorem Holds.isShown_listed (holds : Holds card directory)
    (listed : card.listing names = some entries) (member : file ∈ entries) :
    ∀ name ∈ names ++ [file.fname], IsShown name := by
  rw [holds.listing, Option.map_eq_some_iff] at listed
  obtain ⟨table, isTable, rfl⟩ := listed
  obtain ⟨entry, inTable, rfl⟩ := List.mem_map.mp member
  obtain ⟨stored, isNamed⟩ := (holds.named isTable entry inTable).2
  exact List.forall_mem_append.mpr ⟨holds.isShown_names (Option.isSome_of_eq_some isTable),
    List.forall_mem_singleton.mpr ⟨stored, isNamed.visible, isNamed.shows.symm⟩⟩

theorem segments_of_shown (shown : ∀ name ∈ names, IsShown name) :
    segments slash (joined slash names) = names :=
  segments_joined fun name member => (shown name member).plain

theorem pathTo_segments (shown : ∀ name ∈ names, IsShown name) :
    PathTo (joined slash names) (segments slash (joined slash names)) :=
  (segments_of_shown shown).symm ▸ pathTo_joined shown

/-- The path of the file in the directory. -/
def treePath : CString := joined slash [directoryName, waveName]

theorem treeNames_shown : ∀ name ∈ [directoryName, waveName], IsShown name :=
  List.forall_mem_cons.mpr ⟨⟨directoryEightThree, by decide, rfl⟩,
    List.forall_mem_singleton.mpr ⟨waveEightThree, by decide, rfl⟩⟩

theorem treePath_leads : PathTo treePath (segments slash treePath) :=
  pathTo_segments treeNames_shown

end Listed

/-- Over any accesses to a volume that `f_mount` has registered, on a drive that does not
fail, the file system answers as the card does. -/
theorem registered_volume_answers (serves : drive.Serves image limit Ready)
    (unfailing : drive.Unfailing image limit Ready) {vols : Volumes Disk}
    (starts : drive.Starts Ready vols.fs.pdrv)
    (mounts : image.Mounts ((vols.fsid + 1) % 2 ^ 16) mount) (fits : mount.Fits image)
    (holds : Holds card directory) (closed : fp.obj.fs = false) (invalid : fil.valid = false)
    {ops : List CardOp}
    (proper : ExpectsAlong (cardRespond card) (CardOp.Proper limit mount.csize) fil ops) :
    (transfer (volumeRespond drive dir fno) (fp, (fMount drive true [] 0 vols).2) ops).1.map seen =
      (transfer (cardRespond card) fil ops).1 := by
  have unmounted := (fMount_unmounted vols starts unfailing mounts).2
  exact volume_answers_eq serves unfailing fits holds (.unmounted unmounted closed invalid) dir fno
    proper

/-- The file opened and read across its clusters, and its directory listed. -/
theorem registered_volume_answers_tree :
    (transfer (volumeRespond (treeImage longContent).drive {} {})
      ({}, (fMount (treeImage longContent).drive true [] 0 startVols).2)
      [.openFile treePath, .file (.seek 510), .file (.read 8), .close,
        .list (joined slash [directoryName])]).1.map seen =
        [{ succeeds := true }, { succeeds := true }, { succeeds := true, bytes := riff },
          { succeeds := true },
          { succeeds := true, files := [{ fname := waveName, fattrib := 0x20 }] }] := by
  have directory : PathTo (joined slash [directoryName])
      (segments slash (joined slash [directoryName])) :=
    pathTo_segments (List.forall_mem_singleton.mpr (treeNames_shown _ List.mem_cons_self))
  have proper : ExpectsAlong (cardRespond (treeCard longContent))
      (CardOp.Proper 1 (treeMount 1).csize) {} [.openFile treePath, .file (.seek 510),
        .file (.read 8), .close, .list (joined slash [directoryName])] :=
    ⟨treePath_leads, trivial, FileOp.read_short (Nat.min_le_right _ _), trivial, directory, trivial⟩
  rw [registered_volume_answers ((treeImage longContent).drive_serves Nat.one_pos)
    ((treeImage longContent).drive_unfailing 1) (tree_starts longContent)
    (tree_mounts 1 longContent) (treeMount_fits 1 longContent) (tree_holds 1 longContent_short) rfl
    (rfl : ({} : SdCard.Fil).valid = false) proper]
  decide +kernel

/-- Over any accesses to a mounted volume every answer is the card's, or one that breaks
off because the drive fails. -/
theorem mounted_volume_answers (serves : drive.Serves image limit Ready) (fits : mount.Fits image)
    (holds : Holds card directory) (mounted : vols.Mounted image Ready mount)
    (agrees : FileAgrees drive image limit Ready mount fp fil) {ops : List CardOp}
    (proper : Expects (CardStep card (¬ drive.Unfailing image limit Ready))
      (CardOp.Proper limit mount.csize) fil ops) :
    Semantics.Answers (CardStep card (¬ drive.Unfailing image limit Ready)) fil ops
      ((transfer (volumeRespond drive dir fno) (fp, vols) ops).1.map seen) :=
  volume_answers serves fits holds (.mounted mounted agrees) dir fno proper

/-- The volume with a directory mounted. -/
def treeVols (id : Nat) : Volumes Nat where
  enabled := true
  fsid := id
  fs := treeFs id

theorem treeVols_mounted (id : Nat) (content : List UInt8) :
    (treeVols id).Mounted (treeImage content) (fun _ => True) (treeMount id) :=
  ⟨rfl, treeFs_sound id content⟩

/-- The file opened and read, on a drive whose fourth read fails. -/
theorem mounted_volume_answers_tree :
    Semantics.Answers (CardStep (treeCard longContent)
        (¬ ((treeImage longContent).drive (· == 3)).Unfailing (treeImage longContent) 1
          fun _ => True)) {} [.openFile treePath, .file (.read 514)]
      ((transfer (volumeRespond ((treeImage longContent).drive (· == 3)) {} {}) ({}, treeVols 1)
        [.openFile treePath, .file (.read 514)]).1.map seen) := by
  have proper : ∀ op ∈ [CardOp.openFile treePath, .file (.read 514)], ∀ fil,
      op.Proper 1 (treeMount 1).csize fil :=
    List.forall_mem_cons.mpr ⟨fun _ => treePath_leads, List.forall_mem_singleton.mpr fun _ =>
      FileOp.read_short (Nat.min_le_right _ _)⟩
  exact mounted_volume_answers ((treeImage longContent).drive_serves Nat.one_pos (· == 3))
    (treeMount_fits 1 longContent) (tree_holds 1 longContent_short) (treeVols_mounted 1 longContent)
    (.closed rfl rfl) (.of_forall proper _)

section Entries

variable {names : List CString} {entries : List FileInfo} {file : FileInfo}

/-- A directory that is listed is no file. -/
theorem locateNames_directory (listed : card.listing names = some entries) (member : file ∈ entries)
    (isDirectory : file.isDirectory = true) : card.locateNames (names ++ [file.fname]) = none := by
  have only : ¬ ∃ entry ∈ entries, entry.fname = file.fname ∧ entry.isDirectory = false := by
    rintro ⟨entry, other, same, isFile⟩
    obtain rfl := List.inj_on_of_nodup_map (card.distinct listed) other member same
    exact absurd isDirectory (by simp [isFile])
  simp only [Card.locateNames, List.getLast?_concat, List.dropLast_concat, listed, if_neg only]

/-- Whatever is listed can be accessed at the path that leads to it: a file can be opened
and read, a directory can be listed. -/
theorem listed_entry_accessed (serves : drive.Serves image limit Ready)
    (unfailing : drive.Unfailing image limit Ready) (fits : mount.Fits image)
    (holds : Holds card directory) (mounted : vols.Mounted image Ready mount)
    (agrees : FileAgrees drive image limit Ready mount fp fil)
    (listed : card.listing names = some entries) (member : file ∈ entries) {btr : Nat}
    (short : min (btr / 512) mount.csize ≤ limit) :
    let found := names ++ [file.fname]
    let path := joined slash found
    (transfer (volumeRespond drive dir fno) (fp, vols)
      [.openFile path, .file (.read btr), .list path]).1.map seen =
        if file.isDirectory then
          [{ succeeds := false }, { succeeds := false },
            { succeeds := true, files := (card.listing found).getD [] }]
        else
          [{ succeeds := true }, { succeeds := true, bytes := (card.content found).take btr },
            { succeeds := false }] := by
  have shown := holds.isShown_listed listed member
  have path := segments_of_shown shown
  have leads := pathTo_segments shown
  have whole := card.subdirectories listed file member
  have proper : ExpectsAlong (cardRespond card) (CardOp.Proper limit mount.csize) fil
      [.openFile (joined slash (names ++ [file.fname])), .file (.read btr),
        .list (joined slash (names ++ [file.fname]))] :=
    ⟨leads, FileOp.read_short short, leads, trivial⟩
  dsimp only
  rw [volume_answers_eq serves unfailing fits holds (.mounted mounted agrees) dir fno proper]
  by_cases isDirectory : file.isDirectory = true
  · have missing : card.volume (joined slash (names ++ [file.fname])) = none := by
      rw [Card.volume, Card.locate, path, locateNames_directory listed member isDirectory]
      rfl
    rw [isDirectory] at whole
    obtain ⟨files, isListed⟩ := Option.isSome_iff_exists.mp whole
    simp only [transfer_cons, transfer_nil, cardRespond, SdCard.Fil.fOpen, missing, contentRespond,
      SdCard.Fil.fRead, path, isListed, isDirectory, if_true, Option.getD_some]
    rfl
  · have isFile : file.isDirectory = false := Bool.eq_false_iff.mpr isDirectory
    have located : card.volume (joined slash (names ++ [file.fname])) =
        some (card.content (names ++ [file.fname])) := by
      rw [Card.volume, Card.locate, path, Card.locateNames_of_entry listed member isFile]
      rfl
    have unlisted : card.listing (names ++ [file.fname]) = none := by
      rw [isFile] at whole
      exact Option.isNone_iff_eq_none.mp (Option.isSome_eq_false_iff.mp whole)
    simp only [transfer_cons, transfer_nil, cardRespond, SdCard.Fil.fOpen_of_some located,
      contentRespond, SdCard.Fil.fRead, path, unlisted, isFile, if_true, List.drop_zero]
    rfl

/-- The file, by its name in its directory. -/
theorem listed_entry_accessed_tree :
    (transfer (volumeRespond (treeImage longContent).drive {} {}) ({}, treeVols 1)
      [.openFile treePath, .file (.read 513), .list treePath]).1.map seen =
        [{ succeeds := true }, { succeeds := true, bytes := longContent.take 513 },
          { succeeds := false }] :=
  listed_entry_accessed ((treeImage longContent).drive_serves Nat.one_pos)
    ((treeImage longContent).drive_unfailing 1) (treeMount_fits 1 longContent)
    (tree_holds 1 longContent_short) (treeVols_mounted 1 longContent)
    (.closed rfl (rfl : ({} : SdCard.Fil).valid = false))
    (rfl : (treeCard longContent).listing [directoryName] = _) List.mem_cons_self
    (by simp [treeMount] : min (513 / 512) (treeMount 1).csize ≤ 1)

end Entries

end DDSFunctionGen.Fat
