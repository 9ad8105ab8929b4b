import DDSFunctionGen.Firmware.LookupRam
import DDSFunctionGen.Player.WaveHeader

/-!
# The wave player

The menu selects and stops files, the lookup-RAM interrupt asks for refills.
Both write the flags `isFileValid` and `endOfFile`; the open handle, its header
and `isOpen` belong to the refill.
-/

namespace DDSFunctionGen.Player

open DDSFunctionGen.Firmware DDSFunctionGen.SdCard

/-- The buffer on the stack after `f_read` stored `bytes` at `offset`. -/
def overlay (offset : Nat) (bytes : List UInt8) (buffer : Nat → UInt8) : Nat → UInt8 :=
  fun index => if offset ≤ index then bytes.getD (index - offset) (buffer index) else buffer index

/-- `((int)b - 128) * 256`, stored to a RAM word. -/
def sample8 (b : UInt8) : BitVec 16 := BitVec.ofInt 16 (((b.toNat : Int) - 128) * 256)

/-- `((int16_t*)buffer)[i]`. -/
def sample16 (buffer : Nat → UInt8) (i : Nat) : BitVec 16 :=
  (halfOfBytes (buffer (2 * i)) (buffer (2 * i + 1))).toBitVec

/-- The adjustment of a stereo sample by 1200 away from zero. -/
def adjustSample (sample : BitVec 16) : BitVec 16 :=
  if 0 < sample.toInt then BitVec.ofInt 16 (sample.toInt + 1200)
  else BitVec.ofInt 16 (sample.toInt - 1200)

/-- The value `ramUpdate` returns: the data chunk is not finished. -/
def moreData (header : FileHeader) (file : Fil) : Bool :=
  decide (file.fTell < (header.dataOffset + header.dataLength).toNat)

/-- `ramUpdate`. `stack` is what its uninitialised buffer held. -/
def ramUpdate (ramL ramR : Option RamHalf) (header : FileHeader) (file : Fil)
    (stack : Nat → UInt8) (rams : LookupRams) : Bool × Fil × LookupRams :=
  if header.bitsPerSample = 8 then
    let (bytes, file) := file.fRead 512
    let buffer := overlay 0 bytes stack
    let rams := storeHalf ramL (fun i => sample8 (buffer i)) rams
    let rams := storeHalf ramR (fun i => sample8 (buffer i)) rams
    (moreData header file, file, rams)
  else if header.bitsPerSample = 16 then
    if header.numChannels = 1 then
      let (bytes, file) := file.fRead 1024
      let buffer := overlay 0 bytes stack
      let rams := storeHalf ramL (sample16 buffer) rams
      let rams := storeHalf ramR (sample16 buffer) rams
      (moreData header file, file, rams)
    else if header.numChannels = 2 then
      let (low, file) := file.fRead 1024
      let (high, file) := file.fRead 1024
      let buffer := overlay 1024 high (overlay 0 low stack)
      let rams := storeHalf ramL (fun i => adjustSample (sample16 buffer (i * 2))) rams
      let rams := storeHalf ramR (fun i => adjustSample (sample16 buffer (i * 2 + 1))) rams
      (moreData header file, file, rams)
    else (false, file, rams)
  else (false, file, rams)

/-- The globals of the player, with the lookup RAMs it writes. -/
structure WavPlayer where
  wavFile : FileInfo := {}
  fp : Fil := {}
  isFileValid : Bool := false
  isOpen : Bool := false
  endOfFile : Bool := false
  waveHeader : FileHeader := {}
  rams : LookupRams

/-- One call of `ram_wav_update`: its arguments and the uninitialised locals of
the functions it calls. -/
structure Refill where
  ramL : Option RamHalf
  ramR : Option RamHalf
  locals : HeaderLocals := {}
  stack : Nat → UInt8 := fun _ => 0

namespace WavPlayer

/-- The assignments of `processOkButton` on a file. -/
def select (file : FileInfo) (player : WavPlayer) : WavPlayer :=
  { player with wavFile := file, isFileValid := true, endOfFile := false }

/-- The assignments of the STOP button. -/
def stop (player : WavPlayer) : WavPlayer := { player with endOfFile := true, isFileValid := false }

/-- Opening the selected file: whether its header was accepted. -/
def openFile (volume : Volume) (locals : HeaderLocals) (player : WavPlayer) : Bool × WavPlayer :=
  match waveReadHeader volume locals player.waveHeader player.wavFile with
  | (true, waveHeader) =>
      let fp := (player.fp.fOpen volume player.wavFile.fname).2
      let fp := fp.fLseek waveHeader.dataOffset.toNat
      (true, { player with waveHeader, fp, isOpen := true })
  | (false, waveHeader) =>
      (false, { player with waveHeader, endOfFile := false, isFileValid := false, isOpen := false })

/-- The call of `ramUpdate`, which sets `endOfFile` when it returns false. -/
def fill (refill : Refill) (player : WavPlayer) : WavPlayer :=
  let (more, fp, rams) :=
    ramUpdate refill.ramL refill.ramR player.waveHeader player.fp refill.stack player.rams
  { player with fp, rams, endOfFile := player.endOfFile || !more }

/-- The words of both halves set to zero. -/
def silence (refill : Refill) (rams : LookupRams) : LookupRams :=
  storeHalf refill.ramR (fun _ => 0) (storeHalf refill.ramL (fun _ => 0) rams)

/-- The branch `if(endOfFile)`: a stopped file is silenced and closed, any other
file is rewound. -/
def handleEndOfFile (refill : Refill) (player : WavPlayer) : WavPlayer :=
  if player.endOfFile then
    if player.isOpen && !player.isFileValid then
      { player with
        rams := silence refill player.rams
        fp := player.fp.fClose
        isFileValid := false
        isOpen := false }
    else
      { player with
        fp := player.fp.fLseek player.waveHeader.dataOffset.toNat
        endOfFile := false }
  else player

/-- `ram_wav_update`. -/
def ramWavUpdate (volume : Volume) (refill : Refill) (player : WavPlayer) : WavPlayer :=
  if player.isFileValid then
    if player.isOpen then (player.fill refill).handleEndOfFile refill
    else
      match player.openFile volume refill.locals with
      | (true, player) => (player.fill refill).handleEndOfFile refill
      | (false, player) => player
  else player.handleEndOfFile refill

end WavPlayer

/-- What reaches the player: the OK button on a file, the LEFT button, and the
lookup-RAM interrupt. -/
inductive Event where
  | select (file : FileInfo)
  | stop
  | refill (refill : Refill)

/-- One event. -/
def step (volume : Volume) (player : WavPlayer) : Event → WavPlayer
  | .select file => player.select file
  | .stop => player.stop
  | .refill refill => player.ramWavUpdate volume refill

/-- The player's globals as the program starts. -/
def powerUp (rams : LookupRams) : WavPlayer := { rams }

/-- The number of bytes one refill requests of a file in this format. -/
def bytesToRead (header : FileHeader) : Nat :=
  if header.bitsPerSample = 8 then 512
  else if header.bitsPerSample = 16 then
    if header.numChannels = 1 then 1024 else if header.numChannels = 2 then 2048 else 0
  else 0

/-- Sample `i` of one channel of the block of a file that starts at
`position`, read in the format its header names. -/
def fileSample (header : FileHeader) (content : List UInt8) (position : Nat) (right : Bool)
    (i : Nat) : BitVec 16 :=
  let block := fun index => content.getD (position + index) 0
  if header.bitsPerSample = 8 then sample8 (block i)
  else if header.numChannels = 1 then sample16 block i
  else adjustSample (sample16 block (i * 2 + right.toNat))

/-- The RAMs after one block of a file was stored; a format the player does not
support stores nothing. -/
def blockStored (header : FileHeader) (content : List UInt8) (position : Nat)
    (refill : Refill) (rams : LookupRams) : LookupRams :=
  if bytesToRead header = 0 then rams
  else storeHalf refill.ramR (fileSample header content position true)
    (storeHalf refill.ramL (fileSample header content position false) rams)

/-- A refill selects no file. -/
theorem WavPlayer.ramWavUpdate_wavFile (volume : Volume) (refill : Refill) (player : WavPlayer) :
    (player.ramWavUpdate volume refill).wavFile = player.wavFile := by
  have ended : ∀ player : WavPlayer, (player.handleEndOfFile refill).wavFile = player.wavFile := by
    intro player
    unfold WavPlayer.handleEndOfFile
    split
    · split <;> rfl
    · rfl
  unfold WavPlayer.ramWavUpdate
  split
  · split
    · exact ended _
    · have opened : (player.openFile volume refill.locals).2.wavFile = player.wavFile := by
        unfold WavPlayer.openFile
        split <;> rfl
      split
      · rename_i accepted
        rw [accepted] at opened
        exact (ended _).trans opened
      · rename_i rejected
        rw [rejected] at opened
        exact opened
  · exact ended _

end DDSFunctionGen.Player
