import DDSFunctionGen.Menu.Buttons
import DDSFunctionGen.Player.WavPlayer
import DDSFunctionGen.SdCard.Directory
import DDSFunctionGen.Semantics.Execution

/-!
# The file browser of the SD page

The page keeps the path of the current directory, the index of the highlighted
entry, and the `FILINFO` of the entry that was highlighted when the listing was
last drawn. OK acts on that remembered entry, and a selected file is handed to
the player by its bare name.
-/

namespace DDSFunctionGen.Menu

open DDSFunctionGen.Firmware DDSFunctionGen.Player DDSFunctionGen.SdCard DDSFunctionGen.Semantics
  DDSFunctionGen.Sequences

/-- The statics of `menu_sd.c`, with the player whose globals it writes.
`pathOverflowed` records that a path was written past `currentDirPath[256]`. -/
structure SdPage where
  player : WavPlayer
  currentDirPath : CString := []
  selectedFile : FileInfo := {}
  driveMounted : Bool := false
  selectedFileIndex : Nat := 0
  fileCount : Nat := 1
  pathOverflowed : Bool := false

namespace SdPage

/-- `mountRootDir`, called by `init`. A delayed mount of the default drive
succeeds. -/
def mountRootDir (page : SdPage) : SdPage :=
  if page.driveMounted then page
  else { page with currentDirPath := [slash], driveMounted := true }

/-- The names `currentDirPath` denotes. -/
def directory (page : SdPage) : List CString := segments slash page.currentDirPath

/-- One pass of the listing loop of `drawFileNames`. -/
def drawFileName (page : SdPage) (fno : FileInfo) : SdPage :=
  { page with
    fileCount := page.fileCount + 1
    selectedFile := if page.fileCount = page.selectedFileIndex then fno else page.selectedFile }

/-- `drawFileNames`: entry 0 is the parent directory. -/
def drawFileNames (card : Card) (page : SdPage) : SdPage :=
  match card.listing page.directory with
  | some entries => entries.foldl drawFileName { page with fileCount := 1 }
  | none => { page with fileCount := 1 }

/-- `processOkButton`. -/
def processOkButton (page : SdPage) : SdPage :=
  if page.selectedFileIndex = 0 then
    { page with
      currentDirPath := cutAtLast slash page.currentDirPath page.currentDirPath.length }
  else if page.selectedFile.isDirectory then
    let path := page.currentDirPath ++ slash :: page.selectedFile.fname
    { page with
      currentDirPath := path
      selectedFileIndex := 0
      pathOverflowed := page.pathOverflowed || decide (256 ≤ path.length) }
  else { page with player := page.player.select page.selectedFile }

/-- `btn_display`. RETURN leaves the page and RIGHT does nothing. -/
def btnDisplay (page : SdPage) (button : UInt8) : SdPage :=
  if button = btnDisplay1 then
    if 0 < page.selectedFileIndex then
      { page with selectedFileIndex := page.selectedFileIndex - 1 }
    else page
  else if button = btnDisplay2 then
    if page.selectedFileIndex < page.fileCount - 1 then
      { page with selectedFileIndex := page.selectedFileIndex + 1 }
    else page
  else if button = btnDisplay3 then { page with player := page.player.stop }
  else if button = btnDisplay5 then page.processOkButton
  else page

/-- The rotation part of `btn_encoder`. -/
def turn (page : SdPage) (encoder : Int8) : SdPage :=
  let newIndex := page.selectedFileIndex + encoder.toInt
  if encoder ≠ 0 ∧ 0 ≤ newIndex ∧ newIndex < page.fileCount then
    { page with selectedFileIndex := newIndex.toNat }
  else page

/-- `btn_encoder`. -/
def btnEncoder (page : SdPage) (button : UInt8) (encoder : Int8) : SdPage :=
  let page := page.turn encoder
  if button = btnEncoderPB then page.processOkButton else page

/-- What happens while the page is shown: a button, the encoder, a redraw, or a
refill of the player. -/
inductive Event where
  | display (button : UInt8)
  | encoder (button : UInt8) (encoder : Int8)
  | redraw
  | refill (refill : Refill)

/-- One event. A redraw initialises the page if it has to. -/
def step (card : Card) (page : SdPage) : Event → SdPage
  | .display button => page.btnDisplay button
  | .encoder button encoder => page.btnEncoder button encoder
  | .redraw => page.mountRootDir.drawFileNames card
  | .refill refill => { page with player := page.player.ramWavUpdate card.volume refill }

/-- The page and the player as the program starts. -/
def powerUp (rams : LookupRams) : SdPage := { player := Player.powerUp rams }

/-- A name the page can hold: none yet, or a name of the card. -/
def Held (name : CString) : Prop := name = [] ∨ ShortName name

/-- What every run of the page maintains. -/
structure Sound (page : SdPage) : Prop where
  unmounted : page.driveMounted = false →
    page.currentDirPath = [] ∧ page.selectedFileIndex = 0 ∧ page.fileCount = 1
  mounted : page.driveMounted = true →
    ∃ names, (∀ name ∈ names, Plain slash name) ∧ page.currentDirPath = slash :: joined slash names
  remembered : Held page.selectedFile.fname
  directory : page.selectedFile.isDirectory = true → ShortName page.selectedFile.fname
  selected : Held page.player.wavFile.fname

/-- The listing loop counts every entry and remembers the highlighted one. -/
theorem foldl_drawFileName (entries : List FileInfo) (page : SdPage) :
    entries.foldl drawFileName page =
      { page with
        fileCount := page.fileCount + entries.length
        selectedFile :=
          if page.fileCount ≤ page.selectedFileIndex then
            (entries[page.selectedFileIndex - page.fileCount]?).getD page.selectedFile
          else page.selectedFile } := by
  induction entries generalizing page with
  | nil => simp
  | cons fno rest inductionHypothesis =>
      have counted : page.fileCount + 1 + rest.length = page.fileCount + (rest.length + 1) := by
        omega
      rw [List.foldl_cons, inductionHypothesis]
      simp only [drawFileName, List.length_cons, counted]
      rcases Nat.lt_trichotomy page.fileCount page.selectedFileIndex with above | same | below
      · have next : page.selectedFileIndex - page.fileCount =
            page.selectedFileIndex - (page.fileCount + 1) + 1 := by omega
        have later : page.fileCount + 1 ≤ page.selectedFileIndex := above
        simp [Nat.ne_of_lt above, Nat.le_of_lt above, later, next]
      · have earlier : ¬ page.selectedFileIndex + 1 ≤ page.selectedFileIndex := by omega
        simp [same, earlier]
      · have earlier : ¬ page.fileCount + 1 ≤ page.selectedFileIndex := by omega
        simp [Nat.ne_of_gt below, Nat.not_le_of_lt below, earlier]

/-- A redraw changes the count and the remembered entry only, and remembers
nothing but entries of the card. -/
theorem drawFileNames_selectedFile (card : Card) (page : SdPage) :
    page.drawFileNames card =
        { page with
          fileCount := (page.drawFileNames card).fileCount
          selectedFile := (page.drawFileNames card).selectedFile } ∧
      ((page.drawFileNames card).selectedFile = page.selectedFile ∨
        ShortName (page.drawFileNames card).selectedFile.fname) := by
  unfold drawFileNames
  split
  · rename_i entries listed
    rw [foldl_drawFileName]
    refine ⟨rfl, ?_⟩
    simp only
    split
    · cases found : entries[page.selectedFileIndex - 1]? with
      | none => exact .inl rfl
      | some entry => exact .inr (card.shortNames listed entry (List.mem_of_getElem? found))
    · exact .inl rfl
  · exact ⟨rfl, .inl rfl⟩

theorem turn_index (page : SdPage) (encoder : Int8) :
    page.turn encoder = { page with selectedFileIndex := (page.turn encoder).selectedFileIndex } ∧
      (page.fileCount = 1 → page.selectedFileIndex = 0 →
        (page.turn encoder).selectedFileIndex = 0) := by
  unfold turn
  simp only
  split
  · refine ⟨rfl, fun single first => ?_⟩
    simp only
    omega
  · exact ⟨rfl, fun _ first => first⟩

/-- Cutting a path at its last separator removes its last name. -/
theorem cutAtLast_joined {names : List CString} (plain : ∀ name ∈ names, Plain slash name) :
    cutAtLast slash (slash :: joined slash names) (slash :: joined slash names).length =
      slash :: joined slash names.dropLast := by
  rcases List.eq_nil_or_concat names with rfl | ⟨parents, name, rfl⟩
  · exact cutAtLast_of_unseparated (by simp [joined]) _
  · have unseparated := (plain name (by simp)).unseparated
    rw [List.concat_eq_append, joined_snoc, List.dropLast_concat, ← List.cons_append]
    exact cutAtLast_snoc (by simp) unseparated (by simp)

namespace Sound

variable {card : Card} {page : SdPage}

theorem initial (rams : LookupRams) : (powerUp rams).Sound where
  unmounted := fun _ => ⟨rfl, rfl, rfl⟩
  mounted := fun mounted => absurd mounted (by simp [powerUp])
  remembered := .inl rfl
  directory := fun directory => absurd directory (by simp [powerUp, FileInfo.isDirectory])
  selected := .inl rfl

/-- Moving the highlight keeps the invariant, as an unmounted page has a single
entry. -/
theorem withIndex (sound : page.Sound) {index : Nat}
    (stays : page.fileCount = 1 → page.selectedFileIndex = 0 → index = 0) :
    { page with selectedFileIndex := index }.Sound where
  unmounted := fun unmounted =>
    have ⟨path, first, single⟩ := sound.unmounted unmounted
    ⟨path, stays single first, single⟩
  mounted := sound.mounted
  remembered := sound.remembered
  directory := sound.directory
  selected := sound.selected

theorem withPlayer (sound : page.Sound) {player : WavPlayer}
    (selected : Held player.wavFile.fname) :
    { page with player }.Sound :=
  ⟨sound.unmounted, sound.mounted, sound.remembered, sound.directory, selected⟩

theorem turn (sound : page.Sound) (encoder : Int8) : (page.turn encoder).Sound := by
  obtain ⟨moved, stays⟩ := page.turn_index encoder
  rw [moved]
  exact sound.withIndex stays

theorem processOkButton (sound : page.Sound) : page.processOkButton.Sound := by
  unfold SdPage.processOkButton
  split
  · refine ⟨fun unmounted => ?_, fun mounted => ?_, sound.remembered, sound.directory,
      sound.selected⟩
    · obtain ⟨path, first, single⟩ := sound.unmounted unmounted
      simp [path, first, single, cutAtLast]
    · obtain ⟨names, plain, path⟩ := sound.mounted mounted
      have parents : ∀ name ∈ names.dropLast, Plain slash name :=
        fun name member => plain name ((List.dropLast_sublist names).subset member)
      refine ⟨names.dropLast, parents, ?_⟩
      simp only [path]
      exact cutAtLast_joined plain
  · rename_i positive
    split
    · rename_i isDirectory
      have name := (sound.directory isDirectory).plain
      refine ⟨fun unmounted => ?_, fun mounted => ?_, sound.remembered, sound.directory,
        sound.selected⟩
      · exact absurd (sound.unmounted unmounted).2.1 positive
      · obtain ⟨names, plain, path⟩ := sound.mounted mounted
        refine ⟨names ++ [page.selectedFile.fname], ?_, by simp [path, joined]⟩
        intro other member
        rcases List.mem_append.mp member with before | last
        · exact plain other before
        · rw [List.mem_singleton.mp last]
          exact name
    · exact sound.withPlayer sound.remembered

theorem btnDisplay (sound : page.Sound) (button : UInt8) : (page.btnDisplay button).Sound := by
  unfold SdPage.btnDisplay
  split
  · split
    · exact sound.withIndex (by omega)
    · exact sound
  split
  · split
    · exact sound.withIndex (by omega)
    · exact sound
  split
  · exact sound.withPlayer sound.selected
  split
  · exact sound.processOkButton
  · exact sound

theorem mountRootDir (sound : page.Sound) :
    page.mountRootDir.Sound ∧ page.mountRootDir.driveMounted = true := by
  unfold SdPage.mountRootDir
  split
  · rename_i mounted
    exact ⟨sound, mounted⟩
  · refine ⟨⟨fun unmounted => ?_, fun _ => ?_, sound.remembered, sound.directory,
      sound.selected⟩, rfl⟩
    · exact absurd unmounted (by simp)
    · exact ⟨[], by simp, rfl⟩

theorem drawFileNames (sound : page.Sound) (mounted : page.driveMounted = true) :
    (page.drawFileNames card).Sound := by
  obtain ⟨frame, remembered⟩ := page.drawFileNames_selectedFile card
  have unmounted : ¬ page.driveMounted = false := by simp [mounted]
  rw [frame]
  rcases remembered with kept | short
  · refine ⟨fun holds => absurd holds unmounted, sound.mounted, ?_, ?_, sound.selected⟩
    · simp only [kept]
      exact sound.remembered
    · simp only [kept]
      exact sound.directory
  · exact ⟨fun holds => absurd holds unmounted, sound.mounted, .inr short, fun _ => short,
      sound.selected⟩

theorem step (sound : page.Sound) (event : Event) : (page.step card event).Sound := by
  cases event with
  | display button => exact sound.btnDisplay button
  | encoder button encoder =>
      unfold SdPage.step SdPage.btnEncoder
      simp only
      split
      · exact (sound.turn encoder).processOkButton
      · exact sound.turn encoder
  | redraw => exact sound.mountRootDir.1.drawFileNames sound.mountRootDir.2
  | refill refill =>
      refine sound.withPlayer ?_
      rw [WavPlayer.ramWavUpdate_wavFile]
      exact sound.selected

end Sound

end SdPage
end DDSFunctionGen.Menu
