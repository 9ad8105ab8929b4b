import DDSFunctionGen.Fat.Playback
import DDSFunctionGen.Player.EndOfData
import DDSFunctionGen.Player.Selection

/-!
# Refills from the card

A refill reads the open file through the file system and stores the samples to the lookup
RAMs. Over every sequence of refills the RAMs are those that the player fills from the
contents of the file.
-/

namespace DDSFunctionGen.Fat

open DDSFunctionGen.Firmware DDSFunctionGen.Player DDSFunctionGen.SdCard DDSFunctionGen.Semantics
  DDSFunctionGen.Sequences

section Refill

variable {Disk : Type} (drive : Drive Disk)

/-- The value `ramUpdate` returns: the data chunk is not finished. -/
def fileMoreData (header : FileHeader) (file : Fil) : Bool :=
  decide (file.fptr < (header.dataOffset + header.dataLength).toNat)

/-- `ramUpdate`, on a file object. The results of `f_read` are not looked at. -/
def fileRamUpdate (ramL ramR : Option RamHalf) (header : FileHeader) (file : Fil)
    (stack : Nat → UInt8) (rams : LookupRams) (fs : FatFs Disk) :
    Bool × Fil × LookupRams × FatFs Disk :=
  if header.bitsPerSample = 8 then
    let (_, bytes, file, fs) := fRead drive 512 file fs
    let buffer := overlay 0 bytes stack
    let rams := storeHalf ramL (fun i => sample8 (buffer i)) rams
    let rams := storeHalf ramR (fun i => sample8 (buffer i)) rams
    (fileMoreData header file, file, rams, fs)
  else if header.bitsPerSample = 16 then
    if header.numChannels = 1 then
      let (_, bytes, file, fs) := fRead drive 1024 file fs
      let buffer := overlay 0 bytes stack
      let rams := storeHalf ramL (sample16 buffer) rams
      let rams := storeHalf ramR (sample16 buffer) rams
      (fileMoreData header file, file, rams, fs)
    else if header.numChannels = 2 then
      let (_, low, file, fs) := fRead drive 1024 file fs
      let (_, high, file, fs) := fRead drive 1024 file fs
      let buffer := overlay 1024 high (overlay 0 low stack)
      let rams := storeHalf ramL (fun i => adjustSample (sample16 buffer (i * 2))) rams
      let rams := storeHalf ramR (fun i => adjustSample (sample16 buffer (i * 2 + 1))) rams
      (fileMoreData header file, file, rams, fs)
    else (false, file, rams, fs)
  else (false, file, rams, fs)

/-- What `ram_wav_update` works on while a file is open. -/
structure OpenPlayer (Disk : Type) where
  fp : Fil
  rams : LookupRams
  fs : FatFs Disk

/-- `ram_wav_update` while the selected file is open, and `endOfFile` is cleared. -/
def OpenPlayer.refill (header : FileHeader) (player : OpenPlayer Disk) (refill : Refill) :
    OpenPlayer Disk :=
  let (more, fp, rams, fs) := fileRamUpdate drive refill.ramL refill.ramR header player.fp
    refill.stack player.rams player.fs
  if more then { fp, rams, fs }
  else
    let (_, fp, fs) := fLseek drive header.dataOffset.toNat fp fs
    { fp, rams, fs }

end Refill

variable {Disk : Type} {drive : Drive Disk} {image : Image} {Ready : Disk → Prop} {mount : Mount}
  {fs : FatFs Disk} {file : File mount image} {fp : Fil} {header : FileHeader}

/-- A read on a drive that does not fail: the bytes of the file, and an object that stands
behind them. -/
theorem fRead_unfailing (serves : drive.Serves image 1 Ready)
    (unfailing : drive.Unfailing image 1 Ready) (fits : mount.Fits image)
    (sound : fs.Sound image Ready mount) (cursor : fp.At file) {btr : Nat}
    (short : (FileOp.read btr).Short 1 mount.csize (file.standing fp.fptr)) :
    ∃ (after : Fil) (fs' : FatFs Disk),
      fRead drive btr fp fs = (.ok, ((file.standing fp.fptr).fRead btr).1, after, fs') ∧
        ((file.standing fp.fptr).fRead btr).2 = file.standing after.fptr ∧
          after.At file ∧ fs'.Sound image Ready mount := by
  obtain ⟨sound, ⟨response, cursor, answer⟩ | ⟨-, aborted⟩⟩ :=
    fileRespond_spec serves fits sound cursor short
  · obtain ⟨succeeds, bytes⟩ := Prod.mk.inj response
    exact ⟨_, _, Prod.ext succeeds (Prod.ext bytes rfl), answer, cursor, sound⟩
  · exact absurd unfailing aborted.failing

/-- The operations of the player keep its position among the half kilobytes. -/
theorem Playing.run {content : List UInt8} {fil : SdCard.Fil}
    (playing : Playing content header fil) {ops : List FileOp}
    (areOps : ∀ op ∈ ops, PlayerOp header op) :
    Playing content header (transfer contentRespond fil ops).2 := by
  induction ops generalizing fil with
  | nil => exact playing
  | cons op rest inductionHypothesis =>
      obtain ⟨isOp, later⟩ := List.forall_mem_cons.mp areOps
      exact inductionHypothesis (playing.step isOp) later

/-- A refill's reads on the drive store what they store from the contents. -/
theorem fileRamUpdate_spec (serves : drive.Serves image 1 Ready)
    (unfailing : drive.Unfailing image 1 Ready) (fits : mount.Fits image)
    (sound : fs.Sound image Ready mount) (cursor : fp.At file)
    (playing : Playing file.content header (file.standing fp.fptr)) (streams : Streams header)
    (ramL ramR : Option RamHalf) (stack : Nat → UInt8) (rams : LookupRams) :
    let expected := ramUpdate ramL ramR header (file.standing fp.fptr) stack rams
    ∃ (after : Fil) (fs' : FatFs Disk),
      fileRamUpdate drive ramL ramR header fp stack rams fs =
          (expected.1, after, expected.2.2, fs') ∧
        expected.2.1 = file.standing after.fptr ∧ after.At file ∧ fs'.Sound image Ready mount := by
  have short {fil : SdCard.Fil} {op : FileOp} (playing : Playing file.content header fil)
      (reads : op ∈ refillReads header) : op.Short 1 mount.csize fil :=
    playing.short streams mount.csize (.refill reads)
  dsimp only
  unfold fileRamUpdate ramUpdate
  unfold refillReads at short
  by_cases eight : header.bitsPerSample = 8
  · rw [if_pos eight, if_pos eight]
    rw [if_pos eight] at short
    obtain ⟨after, fs', read, moved, cursor, sound⟩ := fRead_unfailing serves unfailing fits sound
      cursor (short playing List.mem_cons_self)
    refine ⟨after, fs', ?_, moved, cursor, sound⟩
    simp only [read, moved]
    rfl
  rw [if_neg eight, if_neg eight]
  rw [if_neg eight] at short
  by_cases sixteen : header.bitsPerSample = 16
  swap
  · rw [if_neg sixteen, if_neg sixteen]
    exact ⟨fp, fs, rfl, rfl, cursor, sound⟩
  rw [if_pos sixteen, if_pos sixteen]
  rw [if_pos sixteen] at short
  by_cases mono : header.numChannels = 1
  · rw [if_pos mono, if_pos mono]
    rw [if_pos mono] at short
    obtain ⟨after, fs', read, moved, cursor, sound⟩ := fRead_unfailing serves unfailing fits sound
      cursor (short playing List.mem_cons_self)
    refine ⟨after, fs', ?_, moved, cursor, sound⟩
    simp only [read, moved]
    rfl
  rw [if_neg mono, if_neg mono]
  rw [if_neg mono] at short
  by_cases stereo : header.numChannels = 2
  swap
  · rw [if_neg stereo, if_neg stereo]
    exact ⟨fp, fs, rfl, rfl, cursor, sound⟩
  rw [if_pos stereo, if_pos stereo]
  rw [if_pos stereo] at short
  obtain ⟨between, fs', read, moved, cursor, sound⟩ := fRead_unfailing serves unfailing fits sound
    cursor (short playing List.mem_cons_self)
  have halfway : Playing file.content header (file.standing between.fptr) := moved ▸ playing.read 2
  obtain ⟨after, fs'', readHigh, movedHigh, cursor, sound⟩ :=
    fRead_unfailing serves unfailing fits sound cursor (short halfway List.mem_cons_self)
  refine ⟨after, fs'', ?_, ?_, cursor, sound⟩
  · simp only [read, moved, readHigh, movedHigh]
    rfl
  · simp only [moved, movedHigh]

/-- The player on the drive and the player on the contents of the file it has open. -/
structure OpenPlayer.Refines (drive : Drive Disk) (Ready : Disk → Prop) (header : FileHeader)
    (file : File mount image) (state : OpenPlayer Disk) (player : WavPlayer) : Prop where
  cursor : state.fp.At file
  sound : state.fs.Sound image Ready mount
  rams : state.rams = player.rams
  playing : player.Playing header file.content state.fp.fptr
  position : Playing file.content header (file.standing state.fp.fptr)

namespace OpenPlayer.Refines

variable {state : OpenPlayer Disk} {player : WavPlayer}

/-- A refill keeps the two together. -/
theorem refill (serves : drive.Serves image 1 Ready) (unfailing : drive.Unfailing image 1 Ready)
    (fits : mount.Fits image) (streams : Streams header)
    (refines : state.Refines drive Ready header file player) (volume : SdCard.Volume)
    (refill : Refill) :
    (state.refill drive header refill).Refines drive Ready header file
      (player.ramWavUpdate volume refill) := by
  obtain ⟨cursor, sound, rams, playing, position⟩ := refines
  obtain ⟨isFileValid, isOpen, notEnded, rfl, stands⟩ := playing
  have stands : player.fp = file.standing state.fp.fptr := stands
  obtain ⟨after, fs', stored, moved, cursor, sound⟩ := fileRamUpdate_spec serves unfailing fits
    sound cursor position streams refill.ramL refill.ramR refill.stack state.rams
  have reached : Playing file.content player.waveHeader (file.standing after.fptr) := by
    rw [← moved, ramUpdate_reads]
    exact position.run fun op reads => .refill reads
  rw [rams, ← stands] at stored moved
  rw [OpenPlayer.refill, rams, stored, WavPlayer.ramWavUpdate, if_pos isFileValid, if_pos isOpen,
    WavPlayer.fill]
  generalize ramUpdate refill.ramL refill.ramR player.waveHeader player.fp refill.stack
    player.rams = result at moved ⊢
  obtain ⟨more, fp, filled⟩ := result
  dsimp only at moved ⊢
  subst moved
  cases more with
  | true =>
      rw [if_pos rfl, WavPlayer.handleEndOfFile, if_neg (by simp [notEnded])]
      exact ⟨cursor, sound, rfl, ⟨isFileValid, isOpen, by simp [notEnded], rfl, rfl⟩, reached⟩
  | false =>
      obtain ⟨sound, ⟨-, cursor, sought⟩ | aborted⟩ :=
        fLseek_spec serves fits sound cursor player.waveHeader.dataOffset.toNat
      swap
      · exact absurd unfailing aborted.failing
      have rewound : (file.standing after.fptr).fLseek player.waveHeader.dataOffset.toNat =
          file.standing (fLseek drive player.waveHeader.dataOffset.toNat after fs').2.1.fptr := by
        rw [sought, ← file.length_content]
        rfl
      rw [if_neg (by decide), WavPlayer.handleEndOfFile, if_pos (by simp),
        if_neg (by simp [isFileValid])]
      refine ⟨cursor, sound, rfl, ⟨isFileValid, isOpen, rfl, rfl, rewound⟩, ?_⟩
      rw [← rewound]
      exact reached.step .rewind

/-- So does every sequence of refills. -/
theorem refills (serves : drive.Serves image 1 Ready) (unfailing : drive.Unfailing image 1 Ready)
    (fits : mount.Fits image) (streams : Streams header)
    (refines : state.Refines drive Ready header file player) (volume : SdCard.Volume)
    (refills : List Refill) :
    (run (OpenPlayer.refill drive header) state refills).Refines drive Ready header file
      (run (step volume) player (refills.map .refill)) := by
  induction refills generalizing state player with
  | nil => exact refines
  | cons refill rest inductionHypothesis =>
      exact inductionHypothesis (refines.refill serves unfailing fits streams volume refill)

end OpenPlayer.Refines

/-- The opening of the selected file in `ram_wav_update`, whose header has been read. -/
def OpenPlayer.openFile (drive : Drive Disk) (header : FileHeader) (path : CString) (fp : Fil)
    (rams : LookupRams) (vols : Volumes Disk) : OpenPlayer Disk :=
  let (_, fp, vols) := fOpen drive path faRead fp vols
  let (_, fp, fs) := fLseek drive header.dataOffset.toNat fp vols.fs
  { fp, rams, fs }

section Selected

variable {card : SdCard.Card} {directory : List CString → Option (Table mount image)}
  {vols : Volumes Disk} {path : CString} {content : List UInt8}

/-- The file that is opened stands at its data. -/
theorem openFile_refines (serves : drive.Serves image 1 Ready)
    (unfailing : drive.Unfailing image 1 Ready) (fits : mount.Fits image)
    (holds : Holds card directory) (mounted : vols.Mounted image Ready mount)
    (leads : PathTo path (segments slash path)) (stored : card.volume path = some content)
    (fp : Fil) {player : WavPlayer}
    (playing : player.Playing header content (min header.dataOffset.toNat content.length)) :
    ∃ file : File mount image, (OpenPlayer.openFile drive header path fp player.rams vols).Refines
      drive Ready header file player := by
  obtain ⟨mounted, opened⟩ := fOpen_spec serves fits holds mounted leads fp
  rw [OpenPlayer.openFile]
  generalize fOpen drive path faRead fp vols = result at mounted opened ⊢
  obtain ⟨res, fp, vols⟩ := result
  dsimp only at mounted opened ⊢
  cases opened with
  | @file file located same cursor start =>
      have found : card.volume path = some file.content := by
        rw [Card.volume, Card.locate, located, same]
        rfl
      obtain rfl := Option.some.inj (found.symm.trans stored)
      obtain ⟨sound, ⟨-, cursor, sought⟩ | aborted⟩ :=
        fLseek_spec serves fits mounted.sound cursor header.dataOffset.toNat
      · rw [← file.length_content] at sought
        exact ⟨file, cursor, sound, rfl, sought ▸ playing, rfl, rfl, 0, sought⟩
      · exact absurd unfailing aborted.failing
  | refused absent =>
      rw [Card.volume, Card.locate, absent] at stored
      cases stored
  | failed failing => exact absurd unfailing failing

/-- A file of the card, selected, opened on a drive that reads single sectors and refilled
from: the lookup RAMs are those that the player fills from the contents of the file. -/
theorem selected_file_refills (serves : drive.Serves image 1 Ready)
    (unfailing : drive.Unfailing image 1 Ready) (fits : mount.Fits image)
    (holds : Holds card directory) (mounted : vols.Mounted image Ready mount)
    {selected : FileInfo} (leads : PathTo selected.fname (segments slash selected.fname))
    (stored : card.volume selected.fname = some content) (streams : Streams header) (fp : Fil)
    {player : WavPlayer} (closed : player.isOpen = false)
    (accepted : ∀ locals,
      waveReadHeader card.volume locals player.waveHeader selected = (true, header))
    (refills : List Refill) :
    (run (OpenPlayer.refill drive header)
      (OpenPlayer.openFile drive header selected.fname fp player.rams vols) refills).rams =
        (run (step card.volume) player (.select selected :: refills.map .refill)).rams := by
  obtain ⟨opened, rams, playing, same⟩ := WavPlayer.select_plays closed stored accepted
  obtain ⟨file, refines⟩ :=
    openFile_refines serves unfailing fits holds mounted leads stored fp playing
  have kept := (refines.refills serves unfailing fits streams card.volume refills).rams
  rw [rams] at kept
  rw [kept, run_cons]
  -- The first refill opens the file; before it the RAMs are those of the selection.
  cases refills with
  | nil => exact rams
  | cons refill rest =>
      rw [List.map_cons, run_cons, run_cons]
      exact congrArg (fun player => (run (step card.volume) player (rest.map .refill)).rams)
        (same refill).2.symm

/-- A file of one block in two clusters, refilled from twice. -/
theorem selected_file_refills_tree :
    (run (OpenPlayer.refill (treeImage (monoFile 512 512)).drive (monoHeader 512))
      (OpenPlayer.openFile (treeImage (monoFile 512 512)).drive (monoHeader 512) treePath {}
        (fun _ _ => 0) (treeVols 1)) [lowerRefill, lowerRefill]).rams =
      (run (step (treeCard (monoFile 512 512)).volume) (powerUp fun _ _ => 0)
        [.select { fname := treePath }, .refill lowerRefill, .refill lowerRefill]).rams := by
  have whole : (monoFile 512 512).length ≤ 1024 := by decide +kernel
  have stored : (treeCard (monoFile 512 512)).volume treePath = some (monoFile 512 512) := rfl
  have accepted (locals : HeaderLocals) : waveReadHeader (treeCard (monoFile 512 512)).volume locals
      {} { fname := treePath } = (true, monoHeader 512) :=
    encode_hasHeader stored locals {}
  exact selected_file_refills ((treeImage (monoFile 512 512)).drive_serves Nat.one_pos)
    ((treeImage (monoFile 512 512)).drive_unfailing 1) (treeMount_fits 1 _) (tree_holds 1 whole)
    (treeVols_mounted 1 _) treePath_leads stored (.inl rfl) {}
    (rfl : (powerUp fun _ _ => 0).isOpen = false) accepted [lowerRefill, lowerRefill]

end Selected
end DDSFunctionGen.Fat
