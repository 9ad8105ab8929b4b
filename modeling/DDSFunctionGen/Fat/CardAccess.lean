import DDSFunctionGen.Fat.FollowPath

/-!
# Files and directories of a card

`f_open` gives the file that the card has at a path and `f_opendir` its directory; where
the card has none they fail.
-/

namespace DDSFunctionGen.Fat

open DDSFunctionGen.SdCard

variable {Disk : Type} {drive : Drive Disk} {image : Image} {limit : Nat} {Ready : Disk → Prop}
  {mount : Mount} {vols : Volumes Disk} {card : Card}
  {directory : List CString → Option (Table mount image)} {path : CString} {names : List CString}

section Path

theorem EightThree.noColon (name : EightThree) : (0x3A : UInt8) ∉ name.shown :=
  name.not_mem_shown (fun single => absurd single.legal (by decide)) (by decide) (by decide)
    (by decide)

theorem noColon_separators {separators : List UInt8} (only : ∀ c ∈ separators, isSeparator c) :
    (0x3A : UInt8) ∉ separators := fun member => absurd (only _ member) (by decide)

theorem PathTo.noColon (leads : PathTo path names) : (0x3A : UInt8) ∉ path := by
  have below {path : List UInt8} {names : List CString} (named : Named path names) :
      (0x3A : UInt8) ∉ path := by
    induction named with
    | @last name => exact name.noColon
    | @step name _ _ _ _ _ only _ inductionHypothesis =>
        simp [name.noColon, noColon_separators only, inductionHypothesis]
  cases leads with
  | root only => exact noColon_separators only
  | below only named => simp [noColon_separators only, below named]

/-- A path without a colon has no drive prefix. -/
theorem getLdnumber_plain (plain : (0x3A : UInt8) ∉ path) : getLdnumber path = some (0, path) :=
  if_neg fun colon => plain (List.mem_of_getElem? colon)

end Path

/-- The volume is mounted. -/
structure Volumes.Mounted (image : Image) (Ready : Disk → Prop) (mount : Mount)
    (vols : Volumes Disk) : Prop where
  enabled : vols.enabled = true
  sound : vols.fs.Sound image Ready mount

/-- `find_volume` leaves a mounted volume as it is. -/
theorem findVolume_mounted (serves : drive.Serves image limit Ready) (fits : mount.Fits image)
    (mounted : vols.Mounted image Ready mount) (plain : (0x3A : UInt8) ∉ path) :
    findVolume drive path vols = (.ok, path, vols) := by
  have typed : vols.fs.mount.fsType ≠ .none := mounted.sound.mounted ▸ fits.mounted
  have ready := serves.status _ mounted.sound.ready
  rw [findVolume, getLdnumber_plain plain]
  dsimp only
  rw [if_neg (by simp [mounted.enabled]), if_pos ⟨typed, ready⟩]

/-- The outcomes of `f_open` at some names. -/
inductive Opened (drive : Drive Disk) (image : Image) (limit : Nat) (Ready : Disk → Prop)
    (mount : Mount) (card : Card) (names : List CString) (fp : Fil) : FResult → Prop where
  | file {file : File mount image} (located : card.locateNames names = some names)
      (content : file.content = card.content names) (cursor : fp.At file) (start : fp.fptr = 0) :
      Opened drive image limit Ready mount card names fp .ok
  | refused {res : FResult} (none : card.locateNames names = none) (other : res ≠ .ok)
      (closed : fp.obj.fs = false) : Opened drive image limit Ready mount card names fp res
  | failed (failing : ¬ drive.Unfailing image limit Ready) (closed : fp.obj.fs = false) :
      Opened drive image limit Ready mount card names fp .diskErr

theorem entryFile_isDirectory (entry : List UInt8) :
    (entryFile entry).isDirectory = false ↔ dirAttr entry &&& amDir = 0 := by
  rw [FileInfo.isDirectory, bne_eq_false_iff_eq]
  rfl

/-- The file at some names, by the entry of its directory. -/
theorem Holds.locateNames_of_entry (holds : Holds card directory) {parent : Table mount image}
    (isParent : directory names.dropLast = some parent) {entry : List UInt8}
    (member : entry ∈ parent.entries) (named : names.getLast? = some (entryName entry)) :
    card.locateNames names = if dirAttr entry &&& amDir = 0 then some names else none := by
  rw [Card.locateNames, named, holds.listing, isParent]
  dsimp only [Option.map_some]
  by_cases isFile : dirAttr entry &&& amDir = 0
  · rw [if_pos isFile, if_pos ⟨entryFile entry, List.mem_map_of_mem member, rfl,
      (entryFile_isDirectory entry).mpr isFile⟩]
  · rw [if_neg isFile, if_neg]
    rintro ⟨info, listed, same, isOther⟩
    obtain ⟨other, otherMember, rfl⟩ := List.mem_map.mp listed
    obtain rfl := holds.unique isParent otherMember member same
    exact isFile ((entryFile_isDirectory other).mp isOther)

theorem Holds.locateNames_eq_none (holds : Holds card directory)
    (absent : ∀ parent, directory names.dropLast = some parent → ∀ entry ∈ parent.entries,
      names.getLast? ≠ some (entryName entry)) : card.locateNames names = none := by
  rw [Card.locateNames, holds.listing]
  cases isParent : directory names.dropLast with
  | none => cases names.getLast? <;> rfl
  | some parent =>
      cases isLast : names.getLast? with
      | none => rfl
      | some name =>
          dsimp only [Option.map_some]
          rw [if_neg]
          rintro ⟨info, listed, same, -⟩
          obtain ⟨entry, member, rfl⟩ := List.mem_map.mp listed
          exact absent parent isParent entry member (isLast.trans (congrArg some same.symm))

/-- `f_open` opens the file that the card has at a path. -/
theorem fOpen_spec (serves : drive.Serves image limit Ready) (fits : mount.Fits image)
    (holds : Holds card directory) (mounted : vols.Mounted image Ready mount)
    (leads : PathTo path names) (fp : Fil) :
    let opened := fOpen drive path faRead fp vols
    opened.2.2.Mounted image Ready mount ∧
      Opened drive image limit Ready mount card names opened.2.1 opened.1 := by
  obtain ⟨sound, -, follows⟩ :=
    followPath_spec serves fits holds mounted.sound { obj := { fs := true } } leads
  dsimp only
  rw [fOpen]
  dsimp only
  rw [findVolume_mounted serves fits mounted leads.noColon]
  dsimp only
  rw [if_neg (by decide)]
  generalize followPath drive path { obj := { fs := true } } vols.fs = result at sound follows ⊢
  obtain ⟨res, dj, fs⟩ := result
  dsimp only at sound follows ⊢
  have after : ({ vols with fs } : Volumes Disk).Mounted image Ready mount :=
    ⟨mounted.enabled, sound⟩
  cases follows with
  | origin root sclust flag =>
      subst root
      rw [flag, if_neg (by decide : ¬ FResult.ok ≠ .ok),
        if_pos (by decide : nsNoname &&& nsNoname ≠ 0), if_pos (by decide)]
      exact ⟨after, .refused rfl (by simp) rfl⟩
  | follows below follows =>
      cases follows with
      | @found parent entry isParent member named shows flag =>
          have located := holds.locateNames_of_entry isParent member named
          rw [flag, if_neg (by decide : ¬ FResult.ok ≠ .ok),
            if_neg (by decide : ¬ nsLast &&& nsNoname ≠ 0), shows.amDir_eq, sound.mounted,
            shows.ldClust_eq, shows.ldDword_eq]
          by_cases isFile : dirAttr entry &&& amDir = 0
          · obtain ⟨file, size, first, content⟩ := holds.file isParent entry member isFile
            have whole : names.dropLast ++ [entryName entry] = names :=
              List.dropLast_append_getLast? _ named
            rw [if_pos isFile] at located
            rw [if_neg (not_not.mpr isFile), if_neg (by decide : ¬ FResult.ok ≠ .ok)]
            rw [whole] at content
            refine ⟨after, .file located content ?_ rfl⟩
            have readable : faRead &&& faRead &&& faRead ≠ 0 := by decide
            exact ⟨rfl, rfl, readable, rfl, size.symm, first, Nat.zero_le _,
              fun moved => absurd moved (Nat.lt_irrefl 0), fun cached => absurd rfl cached,
              fun inside => absurd rfl inside⟩
          · rw [if_neg isFile] at located
            rw [if_pos isFile, if_pos (by decide : FResult.noFile ≠ .ok)]
            exact ⟨after, .refused located (by simp) rfl⟩
      | missing other absent =>
          have refused : res ≠ .ok := by rcases other with rfl | rfl <;> decide
          rw [if_pos refused, if_pos refused]
          exact ⟨after, .refused (holds.locateNames_eq_none absent) refused rfl⟩
      | failed failing => exact ⟨after, .failed failing rfl⟩
  | failed failing => exact ⟨after, .failed failing rfl⟩

/-- The outcomes of `f_opendir` at some names. -/
inductive OpenedDir (drive : Drive Disk) (image : Image) (limit : Nat) (Ready : Disk → Prop)
    (mount : Mount) (card : Card) (names : List CString) (dp : Dir) : FResult → Prop where
  | directory {table : Table mount image} (room : table.count < maxDir / 32)
      (listed : card.listing names = some (table.entries.map entryFile))
      (named : ∀ entry ∈ table.entries, ∃ name, Visible entry name)
      (opened : dp.obj.fs = true) (id : dp.obj.id = mount.id)
      (before : dp.Before table false table.entries) :
      OpenedDir drive image limit Ready mount card names dp .ok
  | refused (none : card.listing names = none) (closed : dp.obj.fs = false) :
      OpenedDir drive image limit Ready mount card names dp .noPath
  | failed (failing : ¬ drive.Unfailing image limit Ready) (closed : dp.obj.fs = false) :
      OpenedDir drive image limit Ready mount card names dp .diskErr

/-- The end of `f_opendir` at a table of the card. -/
theorem openDirectory_spec (serves : drive.Serves image limit Ready) (fits : mount.Fits image)
    (holds : Holds card directory) {fs : FatFs Disk} (sound : fs.Sound image Ready mount)
    {table : Table mount image} (isDirectory : directory names = some table) (dp : Dir)
    (opens : table.Opens dp.obj.sclust) (opened : dp.obj.fs = true) (id : dp.obj.id = mount.id) :
    let set := dirSdi drive 0 dp fs
    set.2.2.Sound image Ready mount ∧
      (set.1 = .ok ∧ OpenedDir drive image limit Ready mount card names set.2.1 .ok ∨
        set.1 = .diskErr ∧ ¬ drive.Unfailing image limit Ready) := by
  obtain ⟨sound, moved, outcome⟩ := dirSdi_spec serves fits sound dp opens (Table.count_pos fits)
    (Nat.mul_zero 32).symm
  refine ⟨sound, ?_⟩
  rcases outcome with ⟨succeeds, stands⟩ | ⟨fails, failing⟩
  · have listed : card.listing names = some (table.entries.map entryFile) := by
      rw [holds.listing, isDirectory]
      rfl
    have named := fun entry member => (holds.named isDirectory entry member).2
    refine .inl ⟨succeeds, .directory (holds.room isDirectory) listed named ?_ ?_ (.stands stands)⟩
    · rw [moved.obj, opened]
    · rw [moved.obj, id]
  · exact .inr ⟨fails, failing⟩

/-- The directory at some names, by the entry that leads to it. -/
theorem Holds.directory_of_entry (holds : Holds card directory) {parent : Table mount image}
    (isParent : directory names.dropLast = some parent) {entry : List UInt8}
    (member : entry ∈ parent.entries) (named : names.getLast? = some (entryName entry)) :
    (dirAttr entry &&& amDir = 0 ∧ card.listing names = none) ∨
      (dirAttr entry &&& amDir ≠ 0 ∧
        ∃ sub, directory names = some sub ∧ sub.Opens (ldClust mount entry)) := by
  have whole : names.dropLast ++ [entryName entry] = names :=
    List.dropLast_append_getLast? _ named
  by_cases isFile : dirAttr entry &&& amDir = 0
  · refine .inl ⟨isFile, ?_⟩
    cases isSub : directory names with
    | none => rw [holds.listing, isSub]; rfl
    | some sub =>
        rw [← whole] at isSub
        obtain ⟨other, otherMember, same, isDir⟩ := holds.leads isParent isSub
        obtain rfl := holds.unique isParent member otherMember same.symm
        exact absurd isFile isDir
  · have sub := holds.subdirectory isParent entry member isFile
    rw [whole] at sub
    exact .inr ⟨isFile, sub⟩

/-- Nothing is listed at names that are not found. -/
theorem Holds.listing_eq_none (holds : Holds card directory) (below : names ≠ [])
    (absent : ∀ parent, directory names.dropLast = some parent → ∀ entry ∈ parent.entries,
      names.getLast? ≠ some (entryName entry)) : card.listing names = none := by
  rw [holds.listing]
  cases isSub : directory names with
  | none => rfl
  | some sub =>
      rw [← List.dropLast_append_getLast below] at isSub
      obtain ⟨parent, isParent, entry, member, same, -⟩ := holds.reached isSub
      refine absurd ?_ (absent parent isParent entry member)
      rw [same, List.getLast?_eq_getLast_of_ne_nil below]

section OpenFound

variable {dp : Dir} {fs : FatFs Disk}

theorem openFound_origin (drive : Drive Disk) (flag : dp.nsFlag = nsNoname) :
    openFound drive dp fs =
      dirSdi drive 0 { dp with obj := { dp.obj with id := fs.mount.id } } fs := by
  have origin : ¬ dp.nsFlag &&& nsNoname = 0 := by
    rw [flag]
    decide
  rw [openFound, if_neg fun other => origin other.1]
  dsimp only
  rw [if_neg origin]

theorem openFound_file (drive : Drive Disk) (flag : dp.nsFlag = nsLast)
    (isFile : dp.obj.attr &&& amDir = 0) : openFound drive dp fs = (.noPath, dp, fs) := by
  have below : dp.nsFlag &&& nsNoname = 0 := by
    rw [flag]
    decide
  rw [openFound, if_pos ⟨below, isFile⟩]

theorem openFound_directory (drive : Drive Disk) (flag : dp.nsFlag = nsLast)
    (isDir : dp.obj.attr &&& amDir ≠ 0) :
    openFound drive dp fs = dirSdi drive 0 { dp with
      obj := { dp.obj with sclust := ldClust fs.mount (fs.win.drop dp.dir), id := fs.mount.id } }
      fs := by
  have below : dp.nsFlag &&& nsNoname = 0 := by
    rw [flag]
    decide
  rw [openFound, if_neg fun other => isDir other.2]
  dsimp only
  rw [if_pos below]

end OpenFound

/-- The end of `f_opendir` keeps a directory that was found. -/
theorem closeUnlessFound_spec (enabled : vols.enabled = true)
    {found : FResult × Dir × FatFs Disk} (sound : found.2.2.Sound image Ready mount)
    (outcome : found.1 = .ok ∧ OpenedDir drive image limit Ready mount card names found.2.1 .ok ∨
      (found.1 = .noFile ∨ found.1 = .noPath) ∧ card.listing names = none ∨
      found.1 = .diskErr ∧ ¬ drive.Unfailing image limit Ready) :
    (closeUnlessFound vols found).2.2.Mounted image Ready mount ∧
      OpenedDir drive image limit Ready mount card names (closeUnlessFound vols found).2.1
        (closeUnlessFound vols found).1 := by
  obtain ⟨res, dp, fs⟩ := found
  have mounted : ({ vols with fs } : Volumes Disk).Mounted image Ready mount := ⟨enabled, sound⟩
  dsimp only at outcome
  rcases outcome with ⟨rfl, opened⟩ | ⟨rfl | rfl, absent⟩ | ⟨rfl, failing⟩
  · exact ⟨mounted, opened⟩
  · exact ⟨mounted, .refused absent rfl⟩
  · exact ⟨mounted, .refused absent rfl⟩
  · exact ⟨mounted, .failed failing rfl⟩

/-- `f_opendir` opens the directory that the card has at a path. -/
theorem fOpendir_spec (serves : drive.Serves image limit Ready) (fits : mount.Fits image)
    (holds : Holds card directory) (mounted : vols.Mounted image Ready mount)
    (leads : PathTo path names) (dp : Dir) :
    let opened := fOpendir drive path dp vols
    opened.2.2.Mounted image Ready mount ∧
      OpenedDir drive image limit Ready mount card names opened.2.1 opened.1 := by
  obtain ⟨sound, same, follows⟩ := followPath_spec serves fits holds mounted.sound
    { dp with obj := { dp.obj with fs := true } } leads
  dsimp only at sound same follows ⊢
  rw [fOpendir, findVolume_mounted serves fits mounted leads.noColon]
  dsimp only
  rw [if_neg (by decide)]
  generalize followPath drive path { dp with obj := { dp.obj with fs := true } } vols.fs = result
    at sound same follows ⊢
  obtain ⟨res, found, fs⟩ := result
  dsimp only at sound same follows ⊢
  cases follows with
  | origin root sclust flag =>
      subst root
      obtain ⟨table, isRoot, opens⟩ := holds.root
      rw [if_neg (by decide), openFound_origin drive flag]
      obtain ⟨sound, outcome⟩ := openDirectory_spec serves fits holds sound isRoot
        { found with obj := { found.obj with id := fs.mount.id } } (sclust ▸ opens) same
        (congrArg Mount.id sound.mounted)
      exact closeUnlessFound_spec mounted.enabled sound (outcome.imp_right .inr)
  | follows below follows =>
      cases follows with
      | @found parent entry isParent member named shows flag =>
          rw [if_neg (by decide)]
          rcases holds.directory_of_entry isParent member named with
            ⟨isFile, absent⟩ | ⟨isDir, sub, isSub, opens⟩
          · rw [openFound_file drive flag (shows.amDir_eq.trans isFile)]
            exact closeUnlessFound_spec mounted.enabled sound (.inr (.inl ⟨.inr rfl, absent⟩))
          · rw [openFound_directory drive flag (shows.amDir_eq ▸ isDir), sound.mounted,
              shows.ldClust_eq]
            obtain ⟨sound, outcome⟩ := openDirectory_spec serves fits holds sound isSub
              { found with obj := { found.obj with sclust := ldClust mount entry, id := mount.id } }
              opens same rfl
            exact closeUnlessFound_spec mounted.enabled sound (outcome.imp_right .inr)
      | missing other absent =>
          have refused : res ≠ .ok := by rcases other with rfl | rfl <;> decide
          rw [if_pos refused]
          exact closeUnlessFound_spec mounted.enabled sound
            (.inr (.inl ⟨other, holds.listing_eq_none below absent⟩))
      | failed failing =>
          exact closeUnlessFound_spec mounted.enabled sound (.inr (.inr ⟨rfl, failing⟩))
  | failed failing =>
      exact closeUnlessFound_spec mounted.enabled sound (.inr (.inr ⟨rfl, failing⟩))

end DDSFunctionGen.Fat
