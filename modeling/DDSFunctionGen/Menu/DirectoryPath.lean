import DDSFunctionGen.Menu.SdPage
import DDSFunctionGen.Sequences.TextBuffer

/-!
# The path of the current directory in its buffer

`currentDirPath` is an array of 256 bytes that is edited in place. While every
path fits, OK on a directory and OK on `..` push and pop the names it holds;
`sprintf` writes a path that does not fit past its end.
-/

namespace DDSFunctionGen.Menu

open DDSFunctionGen.Firmware DDSFunctionGen.Player DDSFunctionGen.SdCard DDSFunctionGen.Semantics
  DDSFunctionGen.Sequences DDSFunctionGen.Sequences.TextBuffer

/-- The statics of `menu_sd.c` that OK uses, the path byte by byte. -/
structure PathPage where
  player : WavPlayer
  currentDirPath : TextBuffer UInt8 256 := { cells := Vector.replicate 256 0 }
  selectedFile : FileInfo := {}
  driveMounted : Bool := false
  selectedFileIndex : Nat := 0

namespace PathPage

/-- `mountRootDir` -/
def mountRootDir (page : PathPage) : PathPage :=
  if page.driveMounted then page
  else
    { page with
      currentDirPath := (page.currentDirPath.store 0 slash).store 1 0
      driveMounted := true }

/-- `processOkButton` -/
def processOkButton (page : PathPage) : PathPage :=
  if page.selectedFileIndex = 0 then
    { page with
      currentDirPath :=
        page.currentDirPath.cutAtLast 0 slash (page.currentDirPath.textLength 0) }
  else if page.selectedFile.isDirectory then
    { page with
      currentDirPath := page.currentDirPath.append 0 (slash :: page.selectedFile.fname)
      selectedFileIndex := 0 }
  else { page with player := page.player.select page.selectedFile }

/-- The page as the program starts. -/
def powerUp (rams : LookupRams) : PathPage := { player := Player.powerUp rams }

/-- The string in `currentDirPath`. -/
def path (page : PathPage) : Option CString := page.currentDirPath.text 0

/-- The page holds, byte by byte, what `page` says. -/
structure Represents (bytes : PathPage) (page : SdPage) : Prop where
  path : bytes.path = some page.currentDirPath
  inside : page.pathOverflowed = false
  player : bytes.player = page.player
  selectedFile : bytes.selectedFile = page.selectedFile
  driveMounted : bytes.driveMounted = page.driveMounted
  selectedFileIndex : bytes.selectedFileIndex = page.selectedFileIndex

namespace Represents

variable {bytes : PathPage} {page : SdPage}

theorem initial (rams : LookupRams) : (powerUp rams).Represents (SdPage.powerUp rams) where
  path := rfl
  inside := rfl
  player := rfl
  selectedFile := rfl
  driveMounted := rfl
  selectedFileIndex := rfl

theorem mountRootDir (represents : bytes.Represents page) :
    bytes.mountRootDir.Represents page.mountRootDir := by
  unfold PathPage.mountRootDir SdPage.mountRootDir
  rw [represents.driveMounted]
  split
  · exact represents
  · refine ⟨?_, represents.inside, represents.player, represents.selectedFile, rfl,
      represents.selectedFileIndex⟩
    have absent : (0 : UInt8) ∉ [slash] := by decide
    exact text_write (text_eq_some.mp represents.path).1 absent (by decide)

/-- OK does to the bytes what it does to the path, up to the first path that does
not fit. -/
theorem processOkButton (represents : bytes.Represents page)
    (characters : 0 ∉ page.selectedFile.fname) :
    bytes.processOkButton.Represents page.processOkButton ↔
      page.processOkButton.pathOverflowed = false := by
  refine ⟨Represents.inside, ?_⟩
  unfold PathPage.processOkButton SdPage.processOkButton
  rw [represents.selectedFileIndex, represents.selectedFile, represents.player]
  split
  · refine fun inside => ⟨?_, inside, rfl, rfl, represents.driveMounted, rfl⟩
    rw [PathPage.path, textLength_eq represents.path]
    exact text_cutAtLast represents.path (by decide) (Nat.le_refl _)
  split
  · intro inside
    simp only [Bool.or_eq_false_iff, decide_eq_false_iff_not, Nat.not_le] at inside
    refine ⟨?_, ?_, rfl, rfl, represents.driveMounted, rfl⟩
    · rw [PathPage.path, text_append represents.path, if_pos]
      · simpa using inside.2
      · simpa [slash] using characters
    · simpa using inside
  · intro inside
    exact ⟨represents.path, inside, rfl, rfl, represents.driveMounted, rfl⟩

end Represents

/-! ## Moving through the directories -/

/-- A highlighted directory: its name has 1 to 12 characters, none of them a
separator. -/
structure DirectoryEntry where
  index : Nat
  file : FileInfo
  highlighted : 0 < index
  directory : file.isDirectory = true
  name : ShortName file.fname
  characters : 0 ∉ file.fname

/-- What OK is pressed on. -/
inductive Move where
  | enter (entry : DirectoryEntry)
  | parent

/-- OK on a directory, or on `..`. -/
def move (page : PathPage) : Move → PathPage
  | .enter entry =>
      { page with selectedFileIndex := entry.index, selectedFile := entry.file }.processOkButton
  | .parent => { page with selectedFileIndex := 0 }.processOkButton

/-- The directory a move leads to, as the names below the root. -/
def Move.follow (names : List CString) : Move → List CString
  | .enter entry => names ++ [entry.file.fname]
  | .parent => names.dropLast

/-- The characters of the path of a directory: a separator for the root, and one
before each name. -/
def pathLength (names : List CString) : Nat := 1 + (names.map fun name => name.length + 1).sum

/-- The page, with the directory its moves have led to. -/
structure Visit where
  page : PathPage
  reached : List CString

namespace Visit

/-- The mounted root. -/
def root (rams : LookupRams) : Visit := { page := (powerUp rams).mountRootDir, reached := [] }

/-- One move. -/
def step (visit : Visit) (taken : Move) : Visit where
  page := visit.page.move taken
  reached := taken.follow visit.reached

/-- The move leaves a string in the array that denotes the directory reached.
After entering a directory, `..` restores the path; in the root it keeps it. -/
structure Faithful (visit : Visit) (taken : Move) : Prop where
  denotes : (visit.step taken).page.path.map (segments slash) = some (visit.step taken).reached
  returns : ∀ entry, taken = .enter entry →
    ((visit.step taken).step .parent).page.path = visit.page.path
  leavesRoot : taken = .parent → visit.reached = [] →
    (visit.step taken).page.path = visit.page.path

/-- The path of the directory the move leads to fits with its terminator. -/
def Fits (visit : Visit) (taken : Move) : Prop := pathLength (taken.follow visit.reached) < 256

instance (visit : Visit) (taken : Move) : Decidable (visit.Fits taken) :=
  inferInstanceAs (Decidable (_ < _))

/-- The path the page holds of a directory. -/
structure Sound (visit : Visit) : Prop where
  names : ∀ name ∈ visit.reached, Plain slash name
  path : visit.page.path = some (slash :: joined slash visit.reached)

theorem length_path (names : List CString) :
    (slash :: joined slash names).length = pathLength names := by
  rw [List.length_cons, length_joined, pathLength, Nat.add_comm]

namespace Sound

variable {visit : Visit}

theorem initial (rams : LookupRams) : (root rams).Sound where
  names := by simp [root]
  path := (Represents.initial rams).mountRootDir.path

/-- The path of the current directory fits. -/
theorem fits (sound : visit.Sound) : pathLength visit.reached < 256 := by
  rw [← length_path]
  exact length_lt_of_text sound.path

theorem parent (sound : visit.Sound) : (visit.step .parent).Sound where
  names := fun name member => sound.names name ((List.dropLast_sublist _).subset member)
  path := by
    have differs : slash ≠ 0 := by decide
    have cut := text_cutAtLast sound.path differs (Nat.le_refl _)
    rw [SdPage.cutAtLast_joined sound.names, ← textLength_eq sound.path] at cut
    exact cut

/-- Entering a directory holds its path exactly if that fits. -/
theorem path_enter (sound : visit.Sound) (entry : DirectoryEntry) :
    (visit.step (.enter entry)).page.path =
      if visit.Fits (.enter entry) then
        some (slash :: joined slash (visit.reached ++ [entry.file.fname]))
      else none := by
  have absent : 0 ∉ slash :: entry.file.fname := by simpa [slash] using entry.characters
  have appended := text_append sound.path absent
  have highlighted : ¬ entry.index = 0 := Nat.ne_of_gt entry.highlighted
  have same : (visit.step (.enter entry)).page.currentDirPath =
      visit.page.currentDirPath.append 0 (slash :: entry.file.fname) := by
    simp [step, move, PathPage.processOkButton, highlighted, entry.directory]
  have whole : (slash :: joined slash visit.reached) ++ slash :: entry.file.fname =
      slash :: joined slash (visit.reached ++ [entry.file.fname]) := by
    rw [joined_snoc, List.cons_append]
  rw [PathPage.path, same, appended, ← List.length_append, whole, length_path]
  rfl

theorem enter (sound : visit.Sound) {entry : DirectoryEntry} (fits : visit.Fits (.enter entry)) :
    (visit.step (.enter entry)).Sound where
  names := by
    intro name member
    rcases List.mem_append.mp member with before | last
    · exact sound.names name before
    · rw [List.mem_singleton.mp last]
      exact entry.name.plain
  path := by
    rw [sound.path_enter, if_pos fits]
    rfl

theorem step (sound : visit.Sound) {taken : Move} (fits : visit.Fits taken) :
    (visit.step taken).Sound := by
  cases taken with
  | enter entry => exact sound.enter fits
  | parent => exact sound.parent

theorem denotes (sound : visit.Sound) :
    visit.page.path.map (segments slash) = some visit.reached := by
  rw [sound.path, Option.map_some, segments_separator, segments_joined sound.names]

/-- A move is faithful exactly if the path it leads to fits. -/
theorem faithful_iff (sound : visit.Sound) (taken : Move) :
    visit.Faithful taken ↔ visit.Fits taken := by
  constructor
  · intro faithful
    cases taken with
    | parent => exact sound.parent.fits
    | enter entry =>
        have denotes := faithful.denotes
        rw [sound.path_enter] at denotes
        split at denotes
        · assumption
        · exact absurd denotes (by simp)
  · intro fits
    refine ⟨(sound.step fits).denotes, ?_, ?_⟩
    · rintro entry rfl
      rw [(sound.enter fits).parent.path, sound.path]
      simp [Visit.step, Move.follow]
    · rintro rfl inRoot
      rw [sound.parent.path, sound.path]
      simp [Visit.step, Move.follow, inRoot]

/-- A run of moves is faithful up to the first path that does not fit. -/
theorem along_faithful_iff (sound : visit.Sound) (moves : List Move) :
    Along Visit.step Faithful visit moves ↔ Along Visit.step Fits visit moves :=
  along_iff_of_invariant (fun _ _ sound fits => Sound.step sound fits)
    (fun _ taken sound => sound.faithful_iff taken) sound

end Sound

/-- OK keeps a faithful stack of names exactly if every path it builds fits. -/
theorem navigation_faithful_iff (rams : LookupRams) (moves : List Move) :
    Along step Faithful (root rams) moves ↔ Along step Fits (root rams) moves :=
  (Sound.initial rams).along_faithful_iff moves

/-- The directory `AAAAAAAA.AAA`, with a name of twelve characters. -/
def deepDirectory : DirectoryEntry where
  index := 1
  file := { fname := List.replicate 8 0x41 ++ 0x2E :: List.replicate 3 0x41, fattrib := amDir }
  highlighted := by decide
  directory := by decide
  name := ⟨⟨by decide, by decide⟩, by decide⟩
  characters := by decide

/-- The twentieth directory inside one another makes a path of 261 characters. -/
theorem nested_directories_overflow :
    ¬ ∀ (rams : LookupRams) (moves : List Move), Along step Faithful (root rams) moves := by
  intro claimed
  have faithful := claimed (fun _ _ => 0)
    (List.replicate 19 (.enter deepDirectory) ++ [.enter deepDirectory])
  have fits := ((Sound.initial _).along_faithful_iff _).mp faithful
  exact absurd fits.last (by decide)

end Visit
end PathPage
end DDSFunctionGen.Menu
