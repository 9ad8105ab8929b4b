import DDSFunctionGen.Menu.SdPage

/-!
# Which file OK selects

OK hands the remembered `FILINFO` to the player, whose name is without a
directory. The file opened next is therefore the highlighted one in the root
only, and only if the listing was drawn since the selection moved.
-/

namespace DDSFunctionGen.Menu

open DDSFunctionGen.Firmware DDSFunctionGen.Player DDSFunctionGen.SdCard DDSFunctionGen.Semantics
  DDSFunctionGen.Sequences

namespace SdPage

/-- The entry at `selectedFileIndex` of the current directory is the file
`name`. -/
def Highlights (card : Card) (page : SdPage) (name : CString) : Prop :=
  ∃ entries entry, card.listing page.directory = some entries ∧
    0 < page.selectedFileIndex ∧ entries[page.selectedFileIndex - 1]? = some entry ∧
    entry.isDirectory = false ∧ entry.fname = name

/-- The file the next `ram_wav_update` that opens a file opens. -/
def nextOpened (card : Card) (page : SdPage) : Option (List CString) :=
  if page.player.isFileValid then card.locate page.player.wavFile.fname else none

/-- The next file opened is the one at `currentDirPath + '/' + name`, and no
path was written out of bounds. -/
def Opens (card : Card) (page : SdPage) (currentDirPath name : CString) : Prop :=
  page.pathOverflowed = false ∧
    page.nextOpened card = card.locate (currentDirPath ++ slash :: name)

/-- The highlighted file is found at the current directory's path and its name. -/
theorem Highlights.located {card : Card} {page : SdPage} {name : CString}
    (highlights : page.Highlights card name) :
    ShortName name ∧ card.locate (page.currentDirPath ++ slash :: name) =
      some (page.directory ++ [name]) := by
  obtain ⟨entries, entry, listed, -, found, file, rfl⟩ := highlights
  have member := List.mem_of_getElem? found
  have short := card.shortNames listed entry member
  refine ⟨short, ?_⟩
  rw [Card.locate, segments_snoc _ short.plain]
  exact Card.locateNames_of_entry listed member file

/-- The root directory of a card with one directory `S` and one file `A`; the
directory holds one file `B`. -/
def songListing : List CString → Option (List FileInfo)
  | [] => some [{ fname := [0x53], fattrib := amDir }, { fname := [0x41] }]
  | [[0x53]] => some [{ fname := [0x42] }]
  | _ => none

def songCard : Card where
  listing := songListing
  content := fun _ => []
  shortNames := by
    intro directory entries listed entry member
    unfold songListing at listed
    split at listed
    · obtain rfl := Option.some.inj listed
      simp only [List.mem_cons, List.not_mem_nil, or_false] at member
      rcases member with rfl | rfl <;> exact ⟨⟨by decide, by decide⟩, by decide⟩
    · obtain rfl := Option.some.inj listed
      obtain rfl := List.mem_singleton.mp member
      exact ⟨⟨by decide, by decide⟩, by decide⟩
    · exact absurd listed (by simp)
  distinct := by
    intro directory entries listed
    unfold songListing at listed
    split at listed
    · obtain rfl := Option.some.inj listed
      decide
    · obtain rfl := Option.some.inj listed
      decide
    · exact absurd listed (by simp)
  subdirectories := by
    intro directory entries listed entry member
    unfold songListing at listed
    split at listed
    · obtain rfl := Option.some.inj listed
      simp only [List.mem_cons, List.not_mem_nil, or_false] at member
      rcases member with rfl | rfl <;> rfl
    · obtain rfl := Option.some.inj listed
      obtain rfl := List.mem_singleton.mp member
      rfl
    · exact absurd listed (by simp)

end SdPage
end DDSFunctionGen.Menu
