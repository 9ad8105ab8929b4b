import DDSFunctionGen.Fat.CardAccess
import DDSFunctionGen.Fat.FileRuns
import DDSFunctionGen.Semantics.Refinement

/-!
# Runs on a card

The firmware has one open file, and it lists directories as `drawFileNames` does. Over any
sequence of these accesses the file system answers as the card does, except where the
drive fails.
-/

namespace DDSFunctionGen.Fat

open DDSFunctionGen.SdCard DDSFunctionGen.Semantics DDSFunctionGen.Sequences

/-- An access to the card. -/
inductive CardOp where
  | openFile (path : CString)
  | file (op : FileOp)
  | close
  | list (path : CString)
deriving DecidableEq, Repr

/-- What an access gives: whether it succeeds, the bytes it stores and the files it lists. -/
structure CardResponse where
  succeeds : Bool
  bytes : List UInt8 := []
  files : List FileInfo := []
deriving DecidableEq, Repr

section Operations

variable {Disk : Type} (drive : Drive Disk)

/-- The listing of a directory in `drawFileNames`, whose `DIR` and `FILINFO` are not
initialised. A table has at most `MAX_DIR / SZDIRE` entries. -/
def listDirectory (dir : Dir) (fno : FilInfo) (path : CString) (vols : Volumes Disk) :
    FResult × List FilInfo × Volumes Disk :=
  let (res, dir, vols) := fOpendir drive path dir vols
  if res = .ok then
    let (res, files, dir, fs) := readEntries drive (maxDir / 32 + 1) dir fno vols.fs
    -- What `f_closedir` does to the local object is not seen again.
    let _closed := fClosedir drive dir fs
    (res, files, { vols with fs })
  else (res, [], vols)

/-- The results of the accesses; that of `f_close` is not looked at. -/
def volumeRespond (dir : Dir) (fno : FilInfo) (state : Fil × Volumes Disk) :
    CardOp → (FResult × List UInt8 × List FilInfo) × Fil × Volumes Disk
  | .openFile path =>
      let (res, fp, vols) := fOpen drive path faRead state.1 state.2
      ((res, [], []), fp, vols)
  | .file op =>
      let ((res, bytes), fp, fs) := fileRespond drive (state.1, state.2.fs) op
      ((res, bytes, []), fp, { state.2 with fs })
  | .close => ((.ok, [], []), (fClose drive state.1 state.2.fs).2, state.2)
  | .list path =>
      let (res, files, vols) := listDirectory drive dir fno path state.2
      ((res, [], files), state.1, vols)

end Operations

/-- What the firmware sees of a result. -/
def seen (result : FResult × List UInt8 × List FilInfo) : CardResponse where
  succeeds := result.1 == .ok
  bytes := result.2.1
  files := result.2.2.map fun fno => { fname := fno.fname, fattrib := fno.fattrib }

/-- What the card answers. -/
def cardRespond (card : Card) (fil : SdCard.Fil) : CardOp → CardResponse × SdCard.Fil
  | .openFile path =>
      let (succeeds, fil) := fil.fOpen card.volume path
      ({ succeeds }, fil)
  | .file op =>
      let (bytes, fil') := contentRespond fil op
      ({ succeeds := fil.valid, bytes }, fil')
  | .close => ({ succeeds := true }, fil.fClose)
  | .list path =>
      match card.listing (segments slash path) with
      | some files => ({ succeeds := true, files }, fil)
      | none => ({ succeeds := false }, fil)

/-- The open file after an access that failed. -/
def CardOp.broken (fil : SdCard.Fil) : CardOp → SdCard.Fil
  | .list _ => fil
  | _ => fil.fClose

/-- The answer breaks off. -/
structure CardResponse.Cut (whole response : CardResponse) : Prop where
  fails : response.succeeds = false
  bytes : response.bytes <+: whole.bytes
  files : response.files <+: whole.files

/-- The answers that are allowed: those of the card, and ones that break off where an
access may fail. -/
inductive CardStep (card : Card) (mayFail : Prop) :
    SdCard.Fil → CardOp → CardResponse → SdCard.Fil → Prop where
  | answers (fil : SdCard.Fil) (op : CardOp) :
      CardStep card mayFail fil op (cardRespond card fil op).1 (cardRespond card fil op).2
  | fails {fil : SdCard.Fil} {op : CardOp} {response : CardResponse} (failing : mayFail)
      (cut : (cardRespond card fil op).1.Cut response) :
      CardStep card mayFail fil op response (op.broken fil)

theorem CardStep.of_eq {card : Card} {mayFail : Prop} {fil next : SdCard.Fil} {op : CardOp}
    {response : CardResponse} (answer : cardRespond card fil op = (response, next)) :
    CardStep card mayFail fil op response next := by
  have step : CardStep card mayFail fil op _ _ := .answers fil op
  rwa [answer] at step

/-- A path of names as they are listed, each after a separator or more, and a read within
what the drive serves. -/
def CardOp.Proper (limit csize : Nat) (fil : SdCard.Fil) : CardOp → Prop
  | .openFile path | .list path => PathTo path (segments slash path)
  | .file op => op.Short limit csize fil
  | .close => True

variable {Disk : Type} {drive : Drive Disk} {image : Image} {limit : Nat} {Ready : Disk → Prop}
  {mount : Mount} {card : Card} {directory : List CString → Option (Table mount image)}

/-- The volume will be mounted by the next access. -/
structure Volumes.Unmounted (drive : Drive Disk) (image : Image) (limit : Nat)
    (Ready : Disk → Prop) (mount : Mount) (vols : Volumes Disk) : Prop where
  enabled : vols.enabled = true
  unmounted : vols.fs.mount.fsType = .none
  mounts : image.Mounts ((vols.fsid + 1) % 2 ^ 16) mount
  unfailing : drive.Unfailing image limit Ready
  starts : drive.Starts Ready vols.fs.pdrv

/-- The file object and the open file of the card. -/
inductive FileAgrees (drive : Drive Disk) (image : Image) (limit : Nat) (Ready : Disk → Prop)
    (mount : Mount) (fp : Fil) (fil : SdCard.Fil) : Prop where
  | closed (closed : fp.obj.fs = false) (invalid : fil.valid = false)
  | opened {file : File mount image} (cursor : fp.At file) (stands : fil = file.standing fp.fptr)
  | broken {res : FResult} (aborted : Aborted drive image limit Ready mount res fp)
      (invalid : fil.valid = false)

/-- The states of the file system and of the card. -/
inductive Agrees (drive : Drive Disk) (image : Image) (limit : Nat) (Ready : Disk → Prop)
    (mount : Mount) : Fil × Volumes Disk → SdCard.Fil → Prop where
  | unmounted {fp : Fil} {vols : Volumes Disk} {fil : SdCard.Fil}
      (unmounted : vols.Unmounted drive image limit Ready mount) (closed : fp.obj.fs = false)
      (invalid : fil.valid = false) : Agrees drive image limit Ready mount (fp, vols) fil
  | mounted {fp : Fil} {vols : Volumes Disk} {fil : SdCard.Fil}
      (mounted : vols.Mounted image Ready mount)
      (agrees : FileAgrees drive image limit Ready mount fp fil) :
      Agrees drive image limit Ready mount (fp, vols) fil

variable {vols : Volumes Disk} {fs : FatFs Disk} {fp : Fil} {fil : SdCard.Fil} {path : CString}
  {dir : Dir} {fno : FilInfo}

/-- The first access mounts the volume. -/
theorem findVolume_unmounted (serves : drive.Serves image limit Ready)
    (unmounted : vols.Unmounted drive image limit Ready mount) (plain : (0x3A : UInt8) ∉ path) :
    ∃ after : Volumes Disk, after.Mounted image Ready mount ∧
      findVolume drive path vols = (.ok, path, after) := by
  obtain ⟨succeeds, enabled, -, sound⟩ := mountVolume_spec serves unmounted.unfailing
    unmounted.starts unmounted.mounts
  refine ⟨(mountVolume drive vols).2, ⟨enabled.trans unmounted.enabled, sound⟩, ?_⟩
  rw [findVolume, getLdnumber_plain plain]
  dsimp only
  rw [if_neg (by simp [unmounted.enabled]), if_neg fun wrong => wrong.1 unmounted.unmounted,
    succeeds]

section Invalid

/-- An object that is not valid. -/
theorem validate_closed (drive : Drive Disk) (closed : fp.obj.fs = false) :
    validate drive fp.obj fs = .invalidObject := by
  rw [validate, if_neg fun wrong => by rw [closed] at wrong; exact absurd wrong.1 (by decide)]

theorem validate_unmounted (drive : Drive Disk) (unmounted : fs.mount.fsType = .none) :
    validate drive fp.obj fs = .invalidObject := by
  rw [validate, if_neg fun wrong => wrong.2.1 unmounted]

/-- An object that is not valid refuses every operation. -/
theorem fileRespond_invalid (invalid : validate drive fp.obj fs = .invalidObject) (op : FileOp) :
    fileRespond drive (fp, fs) op = ((.invalidObject, []), fp, fs) := by
  cases op with
  | read btr => simp [fileRespond, fRead, invalid]
  | seek ofs => simp [fileRespond, fLseek, invalid]

theorem contentRespond_invalid (invalid : fil.valid = false) (op : FileOp) :
    contentRespond fil op = ([], fil) := by
  cases op with
  | read btr => simp [contentRespond, SdCard.Fil.fRead, invalid]
  | seek ofs => simp [contentRespond, SdCard.Fil.fLseek, invalid]

theorem fClose_invalid (invalid : validate drive fp.obj fs = .invalidObject) :
    (fClose drive fp fs).2 = fp := by
  simp [fClose, invalid]

end Invalid

/-- A step from a state to one that agrees again. -/
def Steps (drive : Drive Disk) (image : Image) (limit : Nat) (Ready : Disk → Prop) (mount : Mount)
    (card : Card) (fil : SdCard.Fil) (op : CardOp)
    (after : (FResult × List UInt8 × List FilInfo) × Fil × Volumes Disk) : Prop :=
  ∃ next, CardStep card (¬ drive.Unfailing image limit Ready) fil op (seen after.1) next ∧
    Agrees drive image limit Ready mount after.2 next

/-- The object opened at a path, on a mounted volume. -/
theorem open_steps (serves : drive.Serves image limit Ready) (fits : mount.Fits image)
    (holds : Holds card directory) (mounted : vols.Mounted image Ready mount)
    (leads : PathTo path (segments slash path)) :
    Steps drive image limit Ready mount card fil (.openFile path)
      (volumeRespond drive dir fno (fp, vols) (.openFile path)) := by
  obtain ⟨mounted, opened⟩ := fOpen_spec serves fits holds mounted leads fp
  rw [volumeRespond]
  generalize fOpen drive path faRead fp vols = result at mounted opened ⊢
  obtain ⟨res, fp, vols⟩ := result
  dsimp only at mounted opened ⊢
  cases opened with
  | @file file located content cursor start =>
      have found : card.volume path = some file.content := by
        rw [Card.volume, Card.locate, located, content]
        rfl
      refine ⟨file.standing fp.fptr, .of_eq ?_, .mounted mounted (.opened cursor rfl)⟩
      rw [cardRespond, Fil.fOpen_of_some found, start]
      rfl
  | refused absent other closed =>
      have missing : card.volume path = none := by
        rw [Card.volume, Card.locate, absent]
        rfl
      have fails : (res == .ok) = false := beq_eq_false_iff_ne.mpr other
      refine ⟨{ fil with valid := false }, .of_eq ?_, .mounted mounted (.closed closed rfl)⟩
      rw [cardRespond, SdCard.Fil.fOpen, missing, seen, fails]
      rfl
  | failed failing closed =>
      exact ⟨_, .fails failing ⟨rfl, List.nil_prefix, List.nil_prefix⟩,
        .mounted mounted (.closed closed rfl)⟩

/-- An operation on the file object. -/
theorem file_steps (serves : drive.Serves image limit Ready) (fits : mount.Fits image)
    (mounted : vols.Mounted image Ready mount)
    (agrees : FileAgrees drive image limit Ready mount fp fil) {op : FileOp}
    (short : op.Short limit mount.csize fil) :
    Steps drive image limit Ready mount card fil (.file op)
      (volumeRespond drive dir fno (fp, vols) (.file op)) := by
  rw [volumeRespond]
  cases agrees with
  | closed closed invalid =>
      rw [fileRespond_invalid (validate_closed drive closed)]
      refine ⟨fil, .of_eq ?_, .mounted mounted (.closed closed invalid)⟩
      rw [cardRespond, contentRespond_invalid invalid, invalid]
      rfl
  | @opened file cursor stands =>
      subst stands
      obtain ⟨sound, ⟨response, cursor, answer⟩ | ⟨cut, aborted⟩⟩ :=
        fileRespond_spec serves fits mounted.sound cursor short
      · generalize fileRespond drive (fp, vols.fs) op = result at sound response cursor answer ⊢
        obtain ⟨results, after, fs⟩ := result
        dsimp only at sound response cursor answer ⊢
        subst response
        refine ⟨file.standing after.fptr, .of_eq ?_,
          .mounted ⟨mounted.enabled, sound⟩ (.opened cursor rfl)⟩
        rw [cardRespond, ← answer]
        rfl
      · generalize fileRespond drive (fp, vols.fs) op = result at sound cut aborted ⊢
        obtain ⟨⟨res, bytes⟩, after, fs⟩ := result
        dsimp only at sound cut aborted ⊢
        obtain rfl := aborted.diskErr
        exact ⟨_, .fails aborted.failing ⟨rfl, cut, List.nil_prefix⟩,
          .mounted ⟨mounted.enabled, sound⟩ (.broken aborted rfl)⟩
  | broken aborted invalid =>
      rw [fileRespond_aborted serves fits mounted.sound aborted]
      refine ⟨fil, .of_eq ?_, .mounted mounted (.broken aborted invalid)⟩
      rw [cardRespond, contentRespond_invalid invalid, invalid]
      rfl

/-- The file object closed. -/
theorem close_steps (serves : drive.Serves image limit Ready) (fits : mount.Fits image)
    (mounted : vols.Mounted image Ready mount)
    (agrees : FileAgrees drive image limit Ready mount fp fil) :
    Steps drive image limit Ready mount card fil .close
      (volumeRespond drive dir fno (fp, vols) .close) := by
  refine ⟨fil.fClose, .of_eq rfl, .mounted mounted (.closed ?_ rfl)⟩
  have closes (valid : validate drive fp.obj vols.fs = .ok) :
      (fClose drive fp vols.fs).2.obj.fs = false := by
    rw [fClose, valid, if_pos rfl]
  cases agrees with
  | closed closed =>
      rw [fClose_invalid (validate_closed drive closed)]
      exact closed
  | opened cursor => exact closes (validate_ok serves fits mounted.sound cursor.opened cursor.id)
  | broken aborted =>
      exact closes (validate_ok serves fits mounted.sound aborted.opened aborted.id)

/-- The names that are listed are not empty. -/
theorem shownInfos_of_named {entries : List (List UInt8)}
    (named : ∀ entry ∈ entries, ∃ name, Visible entry name) :
    shownInfos entries = entries.map entryInfo := by
  refine List.takeWhile_eq_self_iff.mpr fun fno member => ?_
  obtain ⟨entry, listed, rfl⟩ := List.mem_map.mp member
  obtain ⟨name, isNamed⟩ := named entry listed
  obtain ⟨c, rest, shown, printable, -⟩ := EightThree.shown_first isNamed.visible
  have first : (entryInfo entry).fname.getD 0 0 = c := by
    change (entryName entry).getD 0 0 = c
    rw [isNamed.shows, shown]
    rfl
  rw [first]
  exact bne_iff_ne.mpr (by grind)

theorem Table.length_entries_le (table : Table mount image) :
    table.entries.length ≤ maxDir / 32 := by
  have filtered : table.entries.length ≤ table.slots.length :=
    (List.length_filter_le _ _).trans (List.takeWhile_sublist _).length_le
  rw [Table.length_slots] at filtered
  exact filtered.trans (Nat.min_le_right _ _)

/-- The listing of a directory on a mounted volume. -/
theorem list_steps (serves : drive.Serves image limit Ready) (fits : mount.Fits image)
    (holds : Holds card directory) (mounted : vols.Mounted image Ready mount)
    (agrees : FileAgrees drive image limit Ready mount fp fil)
    (leads : PathTo path (segments slash path)) :
    Steps drive image limit Ready mount card fil (.list path)
      (volumeRespond drive dir fno (fp, vols) (.list path)) := by
  obtain ⟨mounted, opened⟩ := fOpendir_spec serves fits holds mounted leads dir
  rw [volumeRespond, listDirectory]
  generalize fOpendir drive path dir vols = result at mounted opened ⊢
  obtain ⟨res, dp, vols⟩ := result
  dsimp only at mounted opened ⊢
  cases opened with
  | @directory table room listed named isOpen id before =>
      obtain ⟨sound, read⟩ := readEntries_spec serves fits mounted.sound isOpen id room before fno
        (Nat.lt_succ_of_le table.length_entries_le)
      rw [shownInfos_of_named named] at read
      rw [if_pos rfl]
      generalize readEntries drive (maxDir / 32 + 1) dp fno vols.fs = result at sound read ⊢
      obtain ⟨res, files, after, fs⟩ := result
      dsimp only at sound read ⊢
      have kept : Agrees drive image limit Ready mount (fp, { vols with fs }) fil :=
        .mounted ⟨mounted.enabled, sound⟩ agrees
      rcases read with ⟨rfl, rfl⟩ | ⟨rfl, cut, failing⟩
      · refine ⟨fil, .of_eq ?_, kept⟩
        rw [cardRespond, listed, seen, List.map_map]
        rfl
      · refine ⟨fil, .fails failing ⟨rfl, List.nil_prefix, ?_⟩, kept⟩
        have whole := cut.map fun fno : FilInfo =>
          ({ fname := fno.fname, fattrib := fno.fattrib } : FileInfo)
        rw [List.map_map] at whole
        rw [cardRespond, listed]
        exact whole
  | refused absent closed =>
      rw [if_neg (by decide)]
      refine ⟨fil, .of_eq ?_, .mounted mounted agrees⟩
      rw [cardRespond, absent]
      rfl
  | failed failing closed =>
      rw [if_neg (by decide)]
      exact ⟨fil, .fails failing ⟨rfl, List.nil_prefix, List.nil_prefix⟩, .mounted mounted agrees⟩

/-- An access that finds the volume the same way gives the same. -/
theorem fOpen_congr {other : Volumes Disk}
    (same : findVolume drive path vols = findVolume drive path other) :
    fOpen drive path faRead fp vols = fOpen drive path faRead fp other := by
  rw [fOpen, fOpen, same]

theorem listDirectory_congr {other : Volumes Disk}
    (same : findVolume drive path vols = findVolume drive path other) :
    listDirectory drive dir fno path vols = listDirectory drive dir fno path other := by
  rw [listDirectory, listDirectory, fOpendir, fOpendir, same]

/-- Every access leads to a state that agrees again. -/
theorem volume_steps (serves : drive.Serves image limit Ready) (fits : mount.Fits image)
    (holds : Holds card directory) {state : Fil × Volumes Disk}
    (agrees : Agrees drive image limit Ready mount state fil) {op : CardOp}
    (proper : op.Proper limit mount.csize fil) :
    Steps drive image limit Ready mount card fil op (volumeRespond drive dir fno state op) := by
  cases agrees with
  | mounted mounted agrees =>
      cases op with
      | openFile path => exact open_steps serves fits holds mounted proper
      | file op => exact file_steps serves fits mounted agrees proper
      | close => exact close_steps serves fits mounted agrees
      | list path => exact list_steps serves fits holds mounted agrees proper
  | @unmounted fp vols _ unmounted closed invalid =>
      have refused := @validate_unmounted _ vols.fs fp drive unmounted.unmounted
      cases op with
      | openFile path =>
          obtain ⟨after, mounted, mounts⟩ := findVolume_unmounted serves unmounted proper.noColon
          have same := mounts.trans (findVolume_mounted serves fits mounted proper.noColon).symm
          have steps : Steps drive image limit Ready mount card fil (.openFile path)
              (volumeRespond drive dir fno (fp, after) (.openFile path)) :=
            open_steps serves fits holds mounted proper
          rw [volumeRespond] at steps ⊢
          rwa [fOpen_congr same]
      | file op =>
          rw [volumeRespond, fileRespond_invalid refused]
          refine ⟨fil, .of_eq ?_, .unmounted unmounted closed invalid⟩
          rw [cardRespond, contentRespond_invalid invalid, invalid]
          rfl
      | close =>
          rw [volumeRespond, fClose_invalid refused]
          exact ⟨fil.fClose, .of_eq rfl, .unmounted unmounted closed rfl⟩
      | list path =>
          obtain ⟨after, mounted, mounts⟩ := findVolume_unmounted serves unmounted proper.noColon
          have same := mounts.trans (findVolume_mounted serves fits mounted proper.noColon).symm
          have steps : Steps drive image limit Ready mount card fil (.list path)
              (volumeRespond drive dir fno (fp, after) (.list path)) :=
            list_steps serves fits holds mounted (.closed closed invalid) proper
          rw [volumeRespond] at steps ⊢
          dsimp only at steps ⊢
          rwa [listDirectory_congr same]

/-- `f_mount` as `mountRootDir` calls it leaves the volume to be mounted by the next
access. -/
theorem fMount_unmounted (vols : Volumes Disk) (starts : drive.Starts Ready vols.fs.pdrv)
    (unfailing : drive.Unfailing image limit Ready)
    (mounts : image.Mounts ((vols.fsid + 1) % 2 ^ 16) mount) :
    (fMount drive true [] 0 vols).1 = .ok ∧
      (fMount drive true [] 0 vols).2.Unmounted drive image limit Ready mount := by
  have plain : getLdnumber [] = some (0, []) := rfl
  rw [fMount, plain]
  dsimp only
  rw [if_pos rfl, if_pos (.inr rfl)]
  exact ⟨rfl, rfl, rfl, mounts, unfailing, starts⟩

section Runs

variable {ops : List CardOp} {state : Fil × Volumes Disk}

/-- Over any accesses a volume gives answers that are allowed. -/
theorem volume_answers (serves : drive.Serves image limit Ready) (fits : mount.Fits image)
    (holds : Holds card directory) (agrees : Agrees drive image limit Ready mount state fil)
    (dir : Dir) (fno : FilInfo)
    (proper : Expects (CardStep card (¬ drive.Unfailing image limit Ready))
      (CardOp.Proper limit mount.csize) fil ops) :
    Semantics.Answers (CardStep card (¬ drive.Unfailing image limit Ready)) fil ops
      ((transfer (volumeRespond drive dir fno) state ops).1.map seen) := by
  have keeps (state : Fil × Volumes Disk) (fil : SdCard.Fil) (op : CardOp)
      (agrees : Agrees drive image limit Ready mount state fil)
      (proper : op.Proper limit mount.csize fil) :
      Steps drive image limit Ready mount card fil op (volumeRespond drive dir fno state op) :=
    volume_steps serves fits holds agrees proper
  exact transfer_refines seen keeps agrees proper

/-- Where no access may fail the answers are those of the card. -/
theorem CardStep.eq_cardRespond {mayFail : Prop} (never : ¬ mayFail) {fil next : SdCard.Fil}
    {op : CardOp} {response : CardResponse} (step : CardStep card mayFail fil op response next) :
    (response, next) = cardRespond card fil op := by
  cases step with
  | answers => rfl
  | fails failing => exact absurd failing never

/-- On a drive that does not fail, the answers are the card's. -/
theorem volume_answers_eq (serves : drive.Serves image limit Ready)
    (unfailing : drive.Unfailing image limit Ready) (fits : mount.Fits image)
    (holds : Holds card directory) (agrees : Agrees drive image limit Ready mount state fil)
    (dir : Dir) (fno : FilInfo)
    (proper : ExpectsAlong (cardRespond card) (CardOp.Proper limit mount.csize) fil ops) :
    (transfer (volumeRespond drive dir fno) state ops).1.map seen =
      (transfer (cardRespond card) fil ops).1 := by
  have only (fil : SdCard.Fil) (op : CardOp) (response : CardResponse) (next : SdCard.Fil)
      (step : CardStep card (¬ drive.Unfailing image limit Ready) fil op response next) :
      (response, next) = cardRespond card fil op :=
    step.eq_cardRespond (not_not.mpr unfailing)
  have answers := volume_answers serves fits holds agrees dir fno (proper.expects only)
  exact answers.eq_transfer only

end Runs

end DDSFunctionGen.Fat
