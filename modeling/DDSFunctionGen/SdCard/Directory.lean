import DDSFunctionGen.SdCard.FatFs
import DDSFunctionGen.Sequences.Segments

/-!
# The directory tree of the card

Directories are addressed by the names leading to them from the root. FatFs is
built without relative paths, so every path it is given starts at the root,
with or without a leading separator.
-/

namespace DDSFunctionGen.SdCard

open DDSFunctionGen.Sequences

/-- The path separator. -/
def slash : UInt8 := 0x2F

/-- `fattrib & AM_DIR`. -/
def FileInfo.isDirectory (file : FileInfo) : Bool := file.fattrib &&& amDir != 0

/-- A name as FatFs returns it in the 13 bytes of `FILINFO.fname`. -/
structure ShortName (name : CString) : Prop where
  plain : Plain slash name
  short : name.length ≤ 12

/-- A card: the listing `f_readdir` gives of each directory and the contents of
each file. Entries have distinct short names, and exactly the directory entries
have a listing of their own. -/
structure Card where
  listing : List CString → Option (List FileInfo)
  content : List CString → List UInt8
  shortNames : ∀ {directory entries}, listing directory = some entries →
    ∀ entry ∈ entries, ShortName entry.fname
  distinct : ∀ {directory entries}, listing directory = some entries →
    (entries.map FileInfo.fname).Nodup
  subdirectories : ∀ {directory entries}, listing directory = some entries →
    ∀ entry ∈ entries, (listing (directory ++ [entry.fname])).isSome = entry.isDirectory

namespace Card

/-- The file found by following names from the root. -/
def locateNames (card : Card) (names : List CString) : Option (List CString) :=
  match names.getLast?, card.listing names.dropLast with
  | some name, some entries =>
      if ∃ entry ∈ entries, entry.fname = name ∧ entry.isDirectory = false then some names else none
  | _, _ => none

/-- The file a path given to `f_open` denotes. -/
def locate (card : Card) (path : CString) : Option (List CString) :=
  card.locateNames (segments slash path)

/-- The volume the player opens its files on. -/
def volume (card : Card) : Volume := fun path => (card.locate path).map card.content

/-- A file entry of a listing is found by its directory's names and its own. -/
theorem locateNames_of_entry {card : Card} {directory : List CString} {entries : List FileInfo}
    (listed : card.listing directory = some entries) {entry : FileInfo} (member : entry ∈ entries)
    (file : entry.isDirectory = false) :
    card.locateNames (directory ++ [entry.fname]) = some (directory ++ [entry.fname]) := by
  have found : ∃ other ∈ entries, other.fname = entry.fname ∧ other.isDirectory = false :=
    ⟨entry, member, rfl, file⟩
  simp only [locateNames, List.getLast?_concat, List.dropLast_concat, listed, if_pos found]

end Card
end DDSFunctionGen.SdCard
