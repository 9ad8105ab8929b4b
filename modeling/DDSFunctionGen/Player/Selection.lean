import DDSFunctionGen.Player.HeaderDecoded
import DDSFunctionGen.Player.RefillBlock
import DDSFunctionGen.Semantics.Execution

/-!
# Which file a refill plays

A selection replaces `wavFile` but leaves an open handle, its header and
`isOpen` as they are. A refill therefore plays the selected file as long as no
other file is selected while one is open.
-/

namespace DDSFunctionGen.Player

open DDSFunctionGen.Firmware DDSFunctionGen.SdCard DDSFunctionGen.Semantics

/-- The player together with the file most recently selected. -/
structure Session where
  player : WavPlayer
  selected : Option FileInfo := none

/-- One event, recorded when it is a selection. -/
def Session.step (volume : Volume) (session : Session) (event : Event) : Session where
  player := Player.step volume session.player event
  selected := match event with
    | .select file => some file
    | _ => session.selected

/-- A file the player can open, with a header it accepts. -/
def Playable (volume : Volume) (file : FileInfo) : Prop :=
  ∃ content header, volume file.fname = some content ∧ HasHeader volume file header

/-- Every sample a refill stores while `isFileValid` is set lies in the file
most recently selected, and is read in the format of that file's header. -/
def PlaysSelected (volume : Volume) (session : Session) : Event → Prop
  | .refill refill => session.player.isFileValid = true →
      ∃ file content header position,
        session.selected = some file ∧
        volume file.fname = some content ∧
        HasHeader volume file header ∧
        min header.dataOffset.toNat content.length ≤ position ∧
        position + bytesToRead header ≤ content.length ∧
        (session.player.ramWavUpdate volume refill).rams =
          blockStored header content position refill session.player.rams
  | _ => True

/-- A whole block of the file is left to be read: of the open file from its
position, of a file yet to be opened from its data chunk. -/
def WholeBlock (volume : Volume) (player : WavPlayer) : Prop :=
  if player.isOpen then
    player.fp.fptr + bytesToRead player.waveHeader ≤ player.fp.content.length
  else
    ∀ content header, volume player.wavFile.fname = some content →
      HasHeader volume player.wavFile header →
      header.dataOffset.toNat + bytesToRead header ≤ content.length

/-- No file but the open one is selected while a file is open, and each refill
of a valid file finds a whole block. -/
def Undisturbed (volume : Volume) (session : Session) : Event → Prop
  | .select file =>
      session.player.isOpen = true → file.fname = session.player.wavFile.fname
  | .stop => True
  | .refill _ => session.player.isFileValid = true → WholeBlock volume session.player

/-- The open handle and the header in use are those of `wavFile`. -/
structure WavPlayer.OpenedOn (volume : Volume) (player : WavPlayer) : Prop where
  opens : volume player.wavFile.fname = some player.fp.content
  header : HasHeader volume player.wavFile player.waveHeader
  valid : player.fp.valid = true
  position : min player.waveHeader.dataOffset.toNat player.fp.content.length ≤ player.fp.fptr

/-- What every undisturbed run of playable selections maintains. -/
structure Session.Tracks (volume : Volume) (session : Session) : Prop where
  selection : session.player.isFileValid = true → session.selected = some session.player.wavFile
  playable : session.player.isFileValid = true → Playable volume session.player.wavFile
  opened : session.player.isOpen = true → session.player.OpenedOn volume

/-- A header depends on the name of the file alone. -/
theorem HasHeader.of_fname {volume : Volume} {file other : FileInfo} {header : FileHeader}
    (has : HasHeader volume file header) (same : other.fname = file.fname) :
    HasHeader volume other header := by
  intro locals previous
  have read := has locals previous
  simpa only [waveReadHeader, same] using read

namespace WavPlayer

variable {volume : Volume} {player : WavPlayer}

/-- Opening a playable file leaves the handle at its data chunk. -/
theorem openFile_of_playable (playable : Playable volume player.wavFile)
    (locals : HeaderLocals) :
    ∃ fp waveHeader, player.openFile volume locals =
        (true, { player with fp, waveHeader, isOpen := true }) ∧
      { player with fp, waveHeader, isOpen := true }.OpenedOn volume ∧
      fp.fptr = min waveHeader.dataOffset.toNat fp.content.length := by
  obtain ⟨content, header, found, has⟩ := playable
  let opened : Fil := { valid := true, content, fptr := 0 }
  refine ⟨opened.fLseek header.dataOffset.toNat, header, ?_, ?_, rfl⟩
  · simp [openFile, has locals player.waveHeader, found, opened]
  · exact { opens := found, header := has, valid := rfl, position := Nat.le_refl _ }

/-- `ramUpdate` keeps the handle on the file it was opened on. -/
theorem OpenedOn.fill (opened : player.OpenedOn volume) (refill : Refill) :
    (player.fill refill).OpenedOn volume := by
  obtain ⟨valid, content, forward⟩ := ramUpdate_file refill player.waveHeader player.fp
    player.rams
  constructor
  · exact opened.opens.trans (congrArg some content.symm)
  · exact opened.header
  · exact valid.trans opened.valid
  · have position := opened.position
    rw [← content] at position
    exact Nat.le_trans position forward

/-- A file that is still open after the end-of-file branch is the one that was
open before it. -/
theorem OpenedOn.handleEndOfFile (opened : player.OpenedOn volume) (refill : Refill)
    (isOpen : (player.handleEndOfFile refill).isOpen = true) :
    (player.handleEndOfFile refill).OpenedOn volume := by
  unfold WavPlayer.handleEndOfFile at isOpen ⊢
  split at isOpen
  · split at isOpen
    · simp at isOpen
    · rename_i ended notStopped
      rw [if_pos ended, if_neg notStopped]
      have content := player.fp.fLseek_content player.waveHeader.dataOffset.toNat
      constructor
      · exact opened.opens.trans (congrArg some content.symm)
      · exact opened.header
      · exact (player.fp.fLseek_valid _).trans opened.valid
      · simp [Fil.fLseek, opened.valid]
  · rename_i notEnded
    rw [if_neg notEnded]
    exact opened

/-- The end-of-file branch of a valid file only moves its handle. -/
theorem handleEndOfFile_of_valid (isValid : player.isFileValid = true) (refill : Refill) :
    ∃ fp endOfFile, player.handleEndOfFile refill = { player with fp, endOfFile } := by
  unfold WavPlayer.handleEndOfFile
  split
  · rw [if_neg (by simp [isValid])]
    exact ⟨_, _, rfl⟩
  · exact ⟨player.fp, player.endOfFile, rfl⟩

/-- The end-of-file branch neither selects a file nor makes one valid. -/
theorem handleEndOfFile_selection (player : WavPlayer) (refill : Refill) :
    (player.handleEndOfFile refill).wavFile = player.wavFile ∧
      ((player.handleEndOfFile refill).isFileValid = true → player.isFileValid = true) ∧
      ((player.handleEndOfFile refill).isOpen = true → player.isOpen = true) := by
  unfold WavPlayer.handleEndOfFile
  split
  · split <;> simp
  · simp

/-- A refill of a valid file is a block read from the file it has open, or
opens first. -/
theorem ramWavUpdate_of_valid (isValid : player.isFileValid = true)
    (playable : Playable volume player.wavFile)
    (openedOn : player.isOpen = true → player.OpenedOn volume) (refill : Refill) :
    ∃ fp waveHeader,
      let opened := { player with fp, waveHeader, isOpen := true }
      player.ramWavUpdate volume refill = (opened.fill refill).handleEndOfFile refill ∧
      opened.OpenedOn volume ∧
      (WholeBlock volume player → fp.fptr + bytesToRead waveHeader ≤ fp.content.length) := by
  by_cases isOpen : player.isOpen = true
  · have same : { player with isOpen := true } = player := by rw [← isOpen]
    refine ⟨player.fp, player.waveHeader, ?_, ?_, ?_⟩
    · rw [ramWavUpdate, if_pos isValid, if_pos isOpen, same]
    · rw [same]
      exact openedOn isOpen
    · intro wholeBlock
      simpa only [WholeBlock, isOpen, if_true] using wholeBlock
  · obtain ⟨fp, waveHeader, openFile, opened, position⟩ :=
      openFile_of_playable playable refill.locals
    refine ⟨fp, waveHeader, ?_, opened, ?_⟩
    · simp only [ramWavUpdate, isValid, isOpen, openFile, if_true, if_false, Bool.false_eq_true]
    · intro wholeBlock
      rw [WholeBlock, if_neg isOpen] at wholeBlock
      have inFile := wholeBlock fp.content waveHeader opened.opens opened.header
      omega

end WavPlayer

/-- A refill of a valid file plays the selected one. -/
theorem Session.Tracks.plays {volume : Volume} {session : Session} {event : Event}
    (tracks : session.Tracks volume) (undisturbed : Undisturbed volume session event) :
    PlaysSelected volume session event := by
  cases event with
  | select file => trivial
  | stop => trivial
  | refill refill =>
      intro isValid
      obtain ⟨fp, waveHeader, update, opened, inFile⟩ := WavPlayer.ramWavUpdate_of_valid isValid
        (tracks.playable isValid) tracks.opened refill
      obtain ⟨fp', endOfFile, ended⟩ :=
        ({ session.player with fp, waveHeader, isOpen := true }.fill refill).handleEndOfFile_of_valid
          isValid refill
      refine ⟨session.player.wavFile, fp.content, waveHeader, fp.fptr, tracks.selection isValid,
        opened.opens, opened.header, opened.position, inFile (undisturbed isValid), ?_⟩
      rw [update, ended]
      exact ramUpdate_rams opened.valid (inFile (undisturbed isValid)) refill session.player.rams

/-- A refill keeps the selection, and plays on from the handle or closes it. -/
theorem Session.Tracks.refill {volume : Volume} {session : Session}
    (tracks : session.Tracks volume) (refill : Refill) :
    (session.step volume (.refill refill)).Tracks volume := by
  by_cases isValid : session.player.isFileValid = true
  · obtain ⟨fp, waveHeader, update, opened, -⟩ := WavPlayer.ramWavUpdate_of_valid isValid
      (tracks.playable isValid) tracks.opened refill
    obtain ⟨fp', endOfFile, ended⟩ :=
      ({ session.player with fp, waveHeader, isOpen := true }.fill refill).handleEndOfFile_of_valid
        isValid refill
    have stillOpened := (opened.fill refill).handleEndOfFile refill (by rw [ended]; rfl)
    have after : (session.step volume (.refill refill)).player =
        ({ session.player with fp, waveHeader, isOpen := true }.fill refill).handleEndOfFile
          refill := update
    constructor
    · intro _
      rw [after, ended]
      exact tracks.selection isValid
    · intro _
      rw [after, ended]
      exact tracks.playable isValid
    · intro _
      rw [after]
      exact stillOpened
  · have after : (session.step volume (.refill refill)).player =
        session.player.handleEndOfFile refill := if_neg isValid
    obtain ⟨-, keepsValid, keepsOpen⟩ := session.player.handleEndOfFile_selection refill
    constructor
    · exact fun nowValid => absurd (keepsValid (after ▸ nowValid)) isValid
    · exact fun nowValid => absurd (keepsValid (after ▸ nowValid)) isValid
    · intro isOpen
      rw [after] at isOpen ⊢
      exact (tracks.opened (keepsOpen isOpen)).handleEndOfFile refill isOpen

/-- Events of an undisturbed run preserve what it tracks. -/
theorem Session.Tracks.step {volume : Volume} {session : Session} {event : Event}
    (tracks : session.Tracks volume) (undisturbed : Undisturbed volume session event)
    (playable : ∀ file, event = .select file → Playable volume file) :
    (session.step volume event).Tracks volume := by
  cases event with
  | select file =>
      constructor
      · exact fun _ => rfl
      · exact fun _ => playable file rfl
      · intro isOpen
        have opened := tracks.opened isOpen
        have same : file.fname = session.player.wavFile.fname := undisturbed isOpen
        constructor
        · exact (congrArg volume same).trans opened.opens
        · exact opened.header.of_fname same
        · exact opened.valid
        · exact opened.position
  | stop =>
      constructor
      · exact fun isValid => absurd isValid (by simp [Session.step, Player.step, WavPlayer.stop])
      · exact fun isValid => absurd isValid (by simp [Session.step, Player.step, WavPlayer.stop])
      · intro isOpen
        have opened := tracks.opened isOpen
        exact ⟨opened.opens, opened.header, opened.valid, opened.position⟩
  | refill refill => exact tracks.refill refill

/-- In every run that selects playable files only, and no other file while one
is open, each refill made while `isFileValid` is set plays the file most
recently selected. -/
theorem refills_play_selected_file (volume : Volume) (rams : LookupRams) (events : List Event)
    (playable : ∀ file, Event.select file ∈ events → Playable volume file)
    (undisturbed : Along (Session.step volume) (Undisturbed volume) ⟨powerUp rams, none⟩ events) :
    Along (Session.step volume) (PlaysSelected volume) ⟨powerUp rams, none⟩ events := by
  have selections : Along (Session.step volume)
      (fun _ event => ∀ file, event = .select file → Playable volume file)
      ⟨powerUp rams, none⟩ events := by
    refine along_of_mem fun event member _ file selects => ?_
    exact playable file (selects ▸ member)
  refine along_of_invariant
    (fun session event (tracks : session.Tracks volume) guard => tracks.step guard.1 guard.2)
    (fun session event tracks guard => tracks.plays guard.1) ?_ (undisturbed.and selections)
  exact ⟨fun isValid => by simp [powerUp] at isValid, fun isValid => by simp [powerUp] at isValid,
    fun isOpen => by simp [powerUp] at isOpen⟩

/-- An 8-bit mono file of one block, all of whose samples are `sample`. -/
def toneFile (sample : UInt8) : List UInt8 :=
  [0x52, 0x49, 0x46, 0x46, 0x24, 0x02, 0, 0, 0x57, 0x41, 0x56, 0x45,
    0x66, 0x6D, 0x74, 0x20, 16, 0, 0, 0, 1, 0, 1, 0, 0x80, 0xBB, 0, 0, 0x80, 0xBB, 0, 0, 1, 0, 8, 0,
    0x64, 0x61, 0x74, 0x61, 0, 2, 0, 0] ++ List.replicate 512 sample

def toneHeader : FileHeader where
  chunkSize := 548
  numChannels := 1
  sampleRate := 48000
  byteRate := 48000
  blockAlign := 1
  bitsPerSample := 8
  dataLength := 512
  dataOffset := 44

/-- Two files of that kind, `A` and `B`. -/
def toneVolume : Volume := fun path =>
  if path = [0x41] then some (toneFile 0xFF) else if path = [0x42] then some (toneFile 0) else none

def toneA : FileInfo := { fname := [0x41] }
def toneB : FileInfo := { fname := [0x42] }

theorem toneFile_hasHeader {file : FileInfo} (sample : UInt8)
    (found : toneVolume file.fname = some (toneFile sample)) :
    HasHeader toneVolume file toneHeader := by
  have encoded : toneFile sample = plainLayout.encode monoFields ++ List.replicate 512 sample := rfl
  have header : toneHeader = plainLayout.header monoFields := rfl
  rw [header]
  exact encode_hasHeader (found.trans (congrArg some encoded))

theorem toneFile_length (sample : UInt8) : (toneFile sample).length = 556 := by
  simp only [toneFile, List.length_append, List.length_replicate, List.length_cons,
    List.length_nil]

theorem HasHeader.unique {volume : Volume} {file : FileInfo} {first second : FileHeader}
    (hasFirst : HasHeader volume file first) (hasSecond : HasHeader volume file second) :
    first = second :=
  (Prod.mk.inj ((hasFirst {} {}).symm.trans (hasSecond {} {}))).2

attribute [local irreducible] toneFile

/-- A refill of the lower half of the first channel's main RAM. -/
def lowerRefill : Refill := { ramL := some { source := .dds0, upper := false }, ramR := none }

/-- The first file is stopped and closed before the second one is selected. -/
def toneRun : List Event :=
  [.select toneA, .refill lowerRefill, .stop, .refill lowerRefill, .select toneB,
    .refill lowerRefill]

theorem toneRun_plays_selected_file :
    Along (Session.step toneVolume) (PlaysSelected toneVolume) ⟨powerUp fun _ _ => 0, none⟩
      toneRun := by
  have hasA : HasHeader toneVolume toneA toneHeader := toneFile_hasHeader 0xFF rfl
  have hasB : HasHeader toneVolume toneB toneHeader := toneFile_hasHeader 0 rfl
  refine refills_play_selected_file toneVolume _ toneRun ?_ ?_
  · intro file member
    simp only [toneRun, List.mem_cons, Event.select.injEq, reduceCtorEq, List.not_mem_nil,
      or_false, false_or] at member
    rcases member with rfl | rfl
    · exact ⟨_, _, rfl, hasA⟩
    · exact ⟨_, _, rfl, hasB⟩
  · have whole : ∀ {player : WavPlayer} {file} sample, player.isOpen = false →
        player.wavFile = file → toneVolume file.fname = some (toneFile sample) →
        WholeBlock toneVolume player := by
      intro player file sample closed selected found
      rw [WholeBlock, if_neg (by simp [closed])]
      intro content header found' has
      subst selected
      obtain rfl := has.unique (toneFile_hasHeader sample found)
      obtain rfl := Option.some.inj (found.symm.trans found')
      rw [toneFile_length]
      decide
    have stopped : (run (Session.step toneVolume) ⟨powerUp fun _ _ => 0, none⟩
        (toneRun.take 3)).player.isFileValid = false := by
      decide +kernel
    have closed : (run (Session.step toneVolume) ⟨powerUp fun _ _ => 0, none⟩
        (toneRun.take 4)).player.isOpen = false := by
      decide +kernel
    have reselected : (run (Session.step toneVolume) ⟨powerUp fun _ _ => 0, none⟩
        (toneRun.take 5)).player.isOpen = false := by
      decide +kernel
    refine ⟨?_, ?_, trivial, ?_, ?_, ?_, trivial⟩
    · exact fun isOpen => absurd isOpen (by decide)
    · exact fun _ => whole 0xFF rfl rfl rfl
    · exact fun isValid => absurd (stopped.symm.trans isValid) (by decide)
    · exact fun isOpen => absurd (closed.symm.trans isOpen) (by decide)
    · exact fun _ => whole 0 reselected rfl rfl

/-- `isOpen` survives a selection: the second file is selected while the first
one is open, and the next refill still plays the first. -/
theorem selection_keeps_open_file :
    ¬ Along (Session.step toneVolume) (PlaysSelected toneVolume) ⟨powerUp fun _ _ => 0, none⟩
      [.select toneA, .refill lowerRefill, .select toneB, .refill lowerRefill] := by
  rintro ⟨-, -, -, plays, -⟩
  obtain ⟨file, content, header, position, selected, found, has, inData, inFile, stored⟩ := plays rfl
  obtain rfl : file = toneB := (Option.some.inj selected).symm
  obtain rfl : content = toneFile 0 := (Option.some.inj found).symm
  obtain rfl := has.unique (toneFile_hasHeader 0 rfl)
  rw [toneFile_length] at inData inFile
  have atData : position = 44 := by
    have offset : toneHeader.dataOffset.toNat = 44 := rfl
    have block : bytesToRead toneHeader = 512 := rfl
    omega
  subst atData
  have playsA : (run (Session.step toneVolume) ⟨powerUp fun _ _ => 0, none⟩
      [.select toneA, .refill lowerRefill, .select toneB, .refill lowerRefill]).player.rams
        .dds0 0 = sample8 0xFF := by
    decide +kernel
  have playsB : ∀ rams, blockStored toneHeader (toneFile 0) 44 lowerRefill rams .dds0 0 =
      sample8 0 := by
    intro rams
    have data : (toneFile 0)[44]?.getD 0 = 0 := by decide +kernel
    simp [blockStored, bytesToRead, toneHeader, lowerRefill, storeHalf, RamHalf.Covers,
      RamHalf.offset, fileSample, data]
  have same : sample8 0xFF = sample8 0 :=
    (playsA.symm.trans (congrFun (congrFun stored .dds0) 0)).trans (playsB _)
  exact absurd same (by decide)

end DDSFunctionGen.Player
