import DDSFunctionGen.Fat.SpiDrive
import DDSFunctionGen.Player.WavPlayer

/-!
# Playing a file from the card

The player reads the header, seeks to the start of the data, reads on in chunks of 512 or
1024 bytes and seeks back at the end. No read of it asks the driver for more than one
sector, unless the samples have 16 bits and the data starts on a sector boundary.
-/

namespace DDSFunctionGen.Fat

open DDSFunctionGen.Player DDSFunctionGen.SdCard DDSFunctionGen.Semantics DDSFunctionGen.Sequences

/-- The calls of `f_read` in `ramUpdate`. -/
def refillReads (header : FileHeader) : List FileOp :=
  if header.bitsPerSample = 8 then [.read 512]
  else if header.bitsPerSample = 16 then
    if header.numChannels = 1 then [.read 1024]
    else if header.numChannels = 2 then [.read 1024, .read 1024]
    else []
  else []

/-- What the player does with the file it has opened. -/
inductive PlayerOp (header : FileHeader) : FileOp → Prop where
  | rewind : PlayerOp header (.seek header.dataOffset.toNat)
  | refill {op : FileOp} (reads : op ∈ refillReads header) : PlayerOp header op

/-- No read of the player reaches over two whole sectors. -/
def Streams (header : FileHeader) : Prop :=
  header.bitsPerSample = 8 ∨ header.dataOffset.toNat % 512 ≠ 0

/-- Where the player stands: some half kilobytes into the data, or at the end of the file. -/
structure Playing (content : List UInt8) (header : FileHeader) (fil : SdCard.Fil) : Prop where
  valid : fil.valid = true
  same : fil.content = content
  position : ∃ count, fil.fptr = min (header.dataOffset.toNat + 512 * count) content.length

variable {content : List UInt8} {header : FileHeader} {fil : SdCard.Fil} {op : FileOp}

/-- A refill leaves the file where its reads do. -/
theorem ramUpdate_reads (ramL ramR : Option Firmware.RamHalf) (stack : Nat → UInt8)
    (rams : Firmware.LookupRams) :
    (ramUpdate ramL ramR header fil stack rams).2.1 =
      (transfer contentRespond fil (refillReads header)).2 := by
  unfold ramUpdate refillReads
  split
  · rfl
  split
  · split
    · rfl
    split
    · rfl
    · rfl
  · rfl

/-- A read of the player. -/
theorem mem_refillReads (reads : op ∈ refillReads header) :
    op = .read 512 ∨ op = .read 1024 ∧ header.bitsPerSample ≠ 8 := by
  unfold refillReads at reads
  split at reads
  · exact .inl (List.mem_singleton.mp reads)
  · rename_i other
    refine .inr ⟨?_, other⟩
    split at reads
    · split at reads
      · exact List.mem_singleton.mp reads
      split at reads
      · exact (List.mem_cons.mp reads).elim id List.mem_singleton.mp
      · exact absurd reads List.not_mem_nil
    · exact absurd reads List.not_mem_nil

namespace Playing

/-- A read of half kilobytes keeps it. -/
theorem read (playing : Playing content header fil) (halves : Nat) :
    Playing content header (contentRespond fil (.read (512 * halves))).2 := by
  obtain ⟨count, position⟩ := playing.position
  have whole := playing.same
  rw [contentRespond, Fil.fRead, if_pos playing.valid]
  refine ⟨playing.valid, whole, count + halves, ?_⟩
  simp only [whole, position, List.length_take, List.length_drop, Nat.mul_add]
  omega

/-- Every operation keeps it. -/
theorem step (playing : Playing content header fil) (isOp : PlayerOp header op) :
    Playing content header (contentRespond fil op).2 := by
  cases isOp with
  | rewind =>
      rw [contentRespond, Fil.fLseek, if_pos playing.valid]
      exact ⟨playing.valid, playing.same, 0, by simp [playing.same]⟩
  | refill reads =>
      obtain rfl | ⟨rfl, -⟩ := mem_refillReads reads
      · exact playing.read 1
      · exact playing.read 2

/-- A read covers at most one whole sector. -/
theorem short (playing : Playing content header fil) (streams : Streams header) (csize : Nat)
    (isOp : PlayerOp header op) : op.Short 1 csize fil := by
  obtain ⟨count, position⟩ := playing.position
  cases isOp with
  | rewind => trivial
  | refill reads =>
      obtain rfl | ⟨rfl, other⟩ := mem_refillReads reads
      · intro _
        refine (Nat.min_le_left _ _).trans ?_
        unfold wholeSectors
        omega
      · -- Off the sector boundaries a kilobyte covers one whole sector.
        have unaligned := streams.resolve_left other
        intro _
        rw [playing.same, position]
        refine (Nat.min_le_left _ _).trans ?_
        unfold wholeSectors
        omega

end Playing

section Answers

variable (card : Card) {limit csize : Nat}

theorem contentRespond_valid (fil : SdCard.Fil) (op : FileOp) :
    (contentRespond fil op).2.valid = fil.valid := by
  cases op with
  | read btr =>
      rw [contentRespond, Fil.fRead]
      split
      · rfl
      · rfl
  | seek ofs => exact fil.fLseek_valid ofs

/-- The card answers operations on its open file from the contents. -/
theorem transfer_files (valid : fil.valid = true) (ops : List FileOp) :
    transfer (cardRespond card) fil (ops.map .file) =
      ((transfer contentRespond fil ops).1.map fun bytes => { succeeds := true, bytes },
        (transfer contentRespond fil ops).2) := by
  induction ops generalizing fil with
  | nil => rfl
  | cons op rest inductionHypothesis =>
      have later := inductionHypothesis ((contentRespond_valid fil op).trans valid)
      simp only [List.map_cons, transfer_cons, cardRespond, valid, later]

theorem expects_files {ops : List FileOp}
    (short : ExpectsAlong contentRespond (FileOp.Short limit csize) fil ops) :
    ExpectsAlong (cardRespond card) (CardOp.Proper limit csize) fil (ops.map .file) := by
  induction ops generalizing fil with
  | nil => trivial
  | cons op rest inductionHypothesis => exact ⟨short.1, inductionHypothesis short.2⟩

end Answers

/-- What the player does with the file stays within single sectors. -/
theorem Playing.short_along (playing : Playing content header fil) (streams : Streams header)
    (csize : Nat) {ops : List FileOp} (areOps : ∀ op ∈ ops, PlayerOp header op) :
    ExpectsAlong contentRespond (FileOp.Short 1 csize) fil ops := by
  induction ops generalizing fil with
  | nil => trivial
  | cons op rest inductionHypothesis =>
      obtain ⟨isOp, later⟩ := List.forall_mem_cons.mp areOps
      exact ⟨playing.short streams csize isOp, inductionHypothesis (playing.step isOp) later⟩

section Opened

/-- A file that has just been opened. -/
def justOpened (content : List UInt8) : SdCard.Fil := { valid := true, content, fptr := 0 }

/-- What is seen of operations on a file that has just been opened. -/
def answersFrom (content : List UInt8) (ops : List FileOp) : List CardResponse :=
  (transfer contentRespond (justOpened content) ops).1.map fun bytes => { succeeds := true, bytes }

/-- The accesses of `ram_wav_update` to a file it plays: `wave_ReadHeader` opens it, reads
the fields of its header and closes it; then it is opened again and played. -/
def playAccesses (path : CString) (fields : List Nat) (header : FileHeader) (ops : List FileOp) :
    List CardOp :=
  .openFile path :: (fields.map .read).map .file ++
    .close :: .openFile path :: (FileOp.seek header.dataOffset.toNat :: ops).map .file

variable {Disk : Type} {drive : Drive Disk} {image : Image} {Ready : Disk → Prop} {mount : Mount}
  {card : SdCard.Card} {directory : List CString → Option (Table mount image)} {path : CString}
  {fields : List Nat} {ops : List FileOp}

theorem cardRespond_open (stored : card.volume path = some content) (fil : SdCard.Fil) :
    cardRespond card fil (.openFile path) = ({ succeeds := true }, justOpened content) := by
  rw [cardRespond, SdCard.Fil.fOpen_of_some stored]
  rfl

/-- What the card answers to the player. -/
theorem transfer_playAccesses (stored : card.volume path = some content) (fil : SdCard.Fil)
    (fields : List Nat) (ops : List FileOp) :
    (transfer (cardRespond card) fil (playAccesses path fields header ops)).1 =
      { succeeds := true } :: answersFrom content (fields.map .read) ++
        { succeeds := true } :: { succeeds := true } ::
          answersFrom content (.seek header.dataOffset.toNat :: ops) := by
  have valid : (justOpened content).valid = true := rfl
  simp only [playAccesses, List.cons_append, transfer_cons, transfer_append,
    cardRespond_open stored, transfer_files card valid, answersFrom]
  rfl

/-- The player's accesses are proper. -/
theorem expects_playAccesses (leads : PathTo path (segments slash path))
    (stored : card.volume path = some content) (small : ∀ btr ∈ fields, btr < 1024)
    (streams : Streams header) (areOps : ∀ op ∈ ops, PlayerOp header op) (csize : Nat)
    (fil : SdCard.Fil) :
    ExpectsAlong (cardRespond card) (CardOp.Proper 1 csize) fil
      (playAccesses path fields header ops) := by
  have fieldsShort : ∀ op ∈ fields.map FileOp.read, ∀ fil, op.Short 1 csize fil := by
    intro op isRead fil
    obtain ⟨btr, member, rfl⟩ := List.mem_map.mp isRead
    have few := small btr member
    exact FileOp.read_short (by omega)
  have sought : Playing content header
      (contentRespond (justOpened content) (.seek header.dataOffset.toNat)).2 := ⟨rfl, rfl, 0, rfl⟩
  refine ⟨leads, (expectsAlong_append _ _ _).mpr ⟨?_, trivial, leads, ?_⟩⟩
  · rw [cardRespond_open stored]
    exact expects_files card (.of_forall fieldsShort _ _)
  · rw [cardRespond_open stored]
    exact expects_files card ⟨trivial, sought.short_along streams csize areOps⟩

/-- A file of the card played, in any order of refills and rewinds: the fields of its header
and each block are the bytes of the file at their positions. The driver below need only
read single sectors. -/
theorem played_file_answers (serves : drive.Serves image 1 Ready)
    (unfailing : drive.Unfailing image 1 Ready) {vols : Volumes Disk}
    (starts : drive.Starts Ready vols.fs.pdrv)
    (mounts : image.Mounts ((vols.fsid + 1) % 2 ^ 16) mount) (fits : mount.Fits image)
    (holds : Holds card directory) {fp : Fil} (closed : fp.obj.fs = false)
    (leads : PathTo path (segments slash path)) (stored : card.volume path = some content)
    (small : ∀ btr ∈ fields, btr < 1024) (streams : Streams header) (dir : Dir) (fno : FilInfo)
    (areOps : ∀ op ∈ ops, PlayerOp header op) :
    (transfer (volumeRespond drive dir fno) (fp, (fMount drive true [] 0 vols).2)
      (playAccesses path fields header ops)).1.map seen =
        { succeeds := true } :: answersFrom content (fields.map .read) ++
          { succeeds := true } :: { succeeds := true } ::
            answersFrom content (.seek header.dataOffset.toNat :: ops) := by
  have unmounted := (fMount_unmounted vols starts unfailing mounts).2
  have proper := expects_playAccesses leads stored small streams areOps mount.csize {}
  rw [volume_answers_eq serves unfailing fits holds (.unmounted unmounted closed rfl) dir fno proper]
  exact transfer_playAccesses stored {} fields ops

/-- A header whose data starts after two bytes, in samples of 8 bits. -/
def eightBitHeader : FileHeader where
  bitsPerSample := 8
  dataOffset := 2

/-- The file, a field of two bytes read, then refilled from twice, over the bus. -/
theorem played_file_answers_tree :
    (transfer (volumeRespond (mmcDrive (ver1Slave (treeImage longContent).memory)) {} {})
      ({}, (fMount (mmcDrive (ver1Slave (treeImage longContent).memory)) true [] 0 ver1Vols).2)
      (playAccesses treePath [2] eightBitHeader [.read 512, .seek 2, .read 512])).1.map seen =
        [{ succeeds := true }, { succeeds := true, bytes := [0x80, 0x80] }, { succeeds := true },
          { succeeds := true }, { succeeds := true },
          { succeeds := true, bytes := longContent.drop 2 }, { succeeds := true },
          { succeeds := true, bytes := longContent.drop 2 }] := by
  have initialized :
      (sdInitialize (ver1Slave (treeImage longContent).memory) ver1Vols.fs.pdrv.bus).1 = true := by
    decide +kernel
  have starts : (mmcDrive (ver1Slave (treeImage longContent).memory)).Starts
      (MmcDisk.Ready fun _ => True) ver1Vols.fs.pdrv := mmcDrive_starts initialized trivial
  have reads : PlayerOp eightBitHeader (.read 512) := .refill (by decide)
  have areOps : ∀ op ∈ [FileOp.read 512, .seek 2, .read 512], PlayerOp eightBitHeader op :=
    List.forall_mem_cons.mpr ⟨reads, List.forall_mem_cons.mpr ⟨.rewind,
      List.forall_mem_singleton.mpr reads⟩⟩
  have small : ∀ btr ∈ [2], btr < 1024 := List.forall_mem_singleton.mpr (by decide)
  have follows := ver1_followsProtocol (treeImage longContent).memory
  exact (played_file_answers (mmcDrive_serves follows (by decide))
    (mmcDrive_unfailing follows (by decide)) starts (tree_mounts 1 longContent)
    (treeMount_fits 1 longContent) (tree_holds 1 longContent_short) rfl treePath_leads
    (rfl : (treeCard longContent).volume treePath = some longContent) small
    (.inl rfl : Streams eightBitHeader) {} {} areOps).trans (by decide +kernel)

end Opened
end DDSFunctionGen.Fat
