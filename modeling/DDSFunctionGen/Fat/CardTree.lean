import DDSFunctionGen.Fat.DirectoryRead
import DDSFunctionGen.Fat.OpenPath
import DDSFunctionGen.SdCard.Directory

/-!
# A card on an image

Each directory of a card is a table of entries, each file a cluster chain, both found
from the entry in the directory above. `dir_find` then finds what the card lists under a
name.
-/

namespace DDSFunctionGen.Fat

open DDSFunctionGen.SdCard

/-- What the firmware reads of an entry. -/
def entryFile (entry : List UInt8) : FileInfo where
  fname := entryName entry
  fattrib := dirAttr entry

variable {mount : Mount} {image : Image}

/-- The entries that a table lists. -/
def Table.entries (table : Table mount image) : List (List UInt8) :=
  selected (validEntry false) table.slots

/-- A name that can be stored, and is not blank. -/
structure Visible (entry : List UInt8) (name : EightThree) : Prop where
  visible : name.shown ≠ []
  stored : entry.take 11 = name.stored

/-- The volume holds the card: `directory` gives the tables of its directories. -/
structure Holds (card : Card) (directory : List CString → Option (Table mount image)) : Prop where
  root : ∃ table, directory [] = some table ∧ table.Opens 0
  room : ∀ {names table}, directory names = some table → table.count < maxDir / 32
  listing : ∀ names, card.listing names = (directory names).map fun table =>
    table.entries.map entryFile
  named : ∀ {names table}, directory names = some table → ∀ entry ∈ table.entries,
    dirAttr entry &&& amVol = 0 ∧ ∃ name, Visible entry name
  subdirectory : ∀ {names table}, directory names = some table → ∀ entry ∈ table.entries,
    dirAttr entry &&& amDir ≠ 0 →
      ∃ sub, directory (names ++ [entryName entry]) = some sub ∧ sub.Opens (ldClust mount entry)
  reached : ∀ {names name sub}, directory (names ++ [name]) = some sub →
    ∃ table, directory names = some table ∧
      ∃ entry ∈ table.entries, entryName entry = name ∧ dirAttr entry &&& amDir ≠ 0
  file : ∀ {names table}, directory names = some table → ∀ entry ∈ table.entries,
    dirAttr entry &&& amDir = 0 →
      ∃ file : File mount image, file.size = ldDword entry 28 ∧
        (∀ clst, file.clusters[0]? = some clst → ldClust mount entry = clst) ∧
        file.content = card.content (names ++ [entryName entry])

section Names

variable {entry : List UInt8} {name other : EightThree}

/-- The first byte that is stored is none of those that mark an entry. -/
theorem EightThree.stored_first (name : EightThree) :
    name.stored.getD 0 0 ≠ 0 ∧ name.stored.getD 0 0 ≠ ddem ∧ name.stored.getD 0 0 ≠ 0x2E := by
  have first : 0x20 ≤ (layout name.body name.ext).getD 0 0 ∧
      (layout name.body name.ext).getD 0 0 ≠ 0x2E := by
    have chars := name.bodyChars
    rw [layout]
    generalize name.body = body at chars
    cases chars with
    | nil =>
        change 0x20 ≤ (0x20 : UInt8) ∧ (0x20 : UInt8) ≠ 0x2E
        decide
    | single isSingle => exact ⟨UInt8.le_of_lt isSingle.printable, isSingle.undotted⟩
    | double first =>
        have printable := dbc1st_printable first
        exact ⟨by simp; grind, (dbc1st_inside first).2.2⟩
  rw [stored]
  by_cases marked : (layout name.body name.ext).getD 0 0 = ddem
  · have nonempty := length_layout name.body_le name.ext_le
    rw [if_pos marked, List.getD_eq_getElem?_getD, List.getElem?_set_self (by omega)]
    exact ⟨by decide, by decide, by decide⟩
  · rw [if_neg marked]
    exact ⟨by grind, marked, first.2⟩

/-- The name is made of the first eleven bytes. -/
theorem entryName_take (entry : List UInt8) : entryName (entry.take 11) = entryName entry := by
  refine List.flatMap_congr fun si member => ?_
  have inside : si < 11 := List.mem_range.mp member
  simp only [nameChar, List.getD_eq_getElem?_getD, List.getElem?_take_of_lt inside]

theorem Visible.shows (isNamed : Visible entry name) : entryName entry = name.shown := by
  rw [← entryName_take, isNamed.stored, name.entryName_stored]

/-- A name that is shown is stored in one way. -/
theorem EightThree.stored_eq (visible : name.shown ≠ []) (same : name.shown = other.shown) :
    name.stored = other.stored := by
  have read := @name.createName_shown visible [] (by simp) {}
  have otherRead := @other.createName_shown (same ▸ visible) [] (by simp) {}
  rw [same, otherRead] at read
  exact (congrArg (fun result => result.2.2.fn) read).symm

/-- An entry that `dir_find` takes is one that `dir_read` lists. -/
theorem validEntry_of_matching (isMatch : matchingEntry name.stored entry = true) :
    validEntry false entry = true := by
  simp only [matchingEntry, Bool.and_eq_true, beq_iff_eq] at isMatch
  obtain ⟨noLabel, stored⟩ := isMatch
  have first := name.stored_first
  have same : (entry.take 11).getD 0 0 = dirName entry := by
    simp only [dirName, List.getD_eq_getElem?_getD, List.getElem?_take_of_lt (by decide : 0 < 11)]
  have unlabelled (bits value : UInt8) (label : value &&& amVol ≠ 0) :
      dirAttr entry &&& bits ≠ value := by
    rintro rfl
    rw [UInt8.and_assoc, UInt8.and_comm bits, ← UInt8.and_assoc, noLabel] at label
    exact label UInt8.zero_and
  rw [← stored, same] at first
  simp only [validEntry, Bool.and_eq_true, bne_iff_ne, beq_iff_eq, beq_eq_false_iff_ne]
  refine ⟨⟨⟨first.2.1, first.2.2⟩, unlabelled amMask amLfn (by decide)⟩, ?_⟩
  rw [UInt8.and_assoc]
  exact unlabelled (amMask &&& ~~~amArc) amVol (by decide)

/-- `dir_find` takes the entries that are listed under the name. -/
theorem matchingEntry_iff (isNamed : ∃ other, Visible entry other)
    (noLabel : dirAttr entry &&& amVol = 0) (visible : name.shown ≠ []) :
    matchingEntry name.stored entry = true ↔ entryName entry = name.shown := by
  obtain ⟨other, isNamed⟩ := isNamed
  rw [matchingEntry, isNamed.stored, isNamed.shows, noLabel]
  simp only [beq_self_eq_true, Bool.true_and, beq_iff_eq]
  constructor
  · intro same
    rw [← other.entryName_stored, same, name.entryName_stored]
  · exact fun same => EightThree.stored_eq (same ▸ visible) same

end Names

section Entries

variable {win : List UInt8} {n ptr : Nat}

theorem byteAt_take (bytes : List UInt8) (inside : ptr < n) :
    byteAt (bytes.take n) ptr = byteAt bytes ptr := by
  simp only [byteAt, List.getD_eq_getElem?_getD, List.getElem?_take_of_lt inside]

theorem ldWord_take (bytes : List UInt8) (inside : ptr + 1 < n) :
    ldWord (bytes.take n) ptr = ldWord bytes ptr := by
  simp only [ldWord, byteAt_take bytes inside, byteAt_take bytes (Nat.lt_of_succ_lt inside)]

theorem ldDword_take (bytes : List UInt8) (inside : ptr + 3 < n) :
    ldDword (bytes.take n) ptr = ldDword bytes ptr := by
  simp only [ldDword, byteAt_take bytes inside, byteAt_take bytes (by omega : ptr + 2 < n),
    byteAt_take bytes (by omega : ptr + 1 < n), byteAt_take bytes (by omega : ptr < n)]

end Entries

variable {Disk : Type} {drive : Drive Disk} {limit : Nat} {Ready : Disk → Prop}
  {fs : FatFs Disk} {table : Table mount image} {dp : Dir} {card : Card}
  {directory : List CString → Option (Table mount image)} {names : List CString}

/-- The object stands at an entry, which the window shows. -/
structure Dir.Shows (table : Table mount image) (entry : List UInt8) (fs : FatFs Disk) (dp : Dir) :
    Prop where
  stands : ∃ k, dp.At table k ∧ table.slot k = entry
  window : fs.win = image.sector dp.sect
  attr : dp.obj.attr = dirAttr entry &&& amMask

namespace Dir.Shows

variable {entry : List UInt8}

/-- Both pointers to the entry. -/
theorem dir_eq (shows : dp.Shows table entry fs) : dp.dptr % 512 = dp.dir := by
  obtain ⟨k, stands, -⟩ := shows.stands
  rw [stands.dptr, stands.dir]
  omega

theorem entry_eq (shows : dp.Shows table entry fs) : (fs.win.drop dp.dir).take 32 = entry := by
  obtain ⟨k, stands, rfl⟩ := shows.stands
  exact stands.entry_eq shows.window

theorem ldClust_eq (shows : dp.Shows table entry fs) :
    ldClust mount (fs.win.drop dp.dir) = ldClust mount entry := by
  rw [← shows.entry_eq, ldClust, ldClust, ldWord_take _ (by decide), ldWord_take _ (by decide)]

theorem ldDword_eq (shows : dp.Shows table entry fs) :
    ldDword (fs.win.drop dp.dir) 28 = ldDword entry 28 := by
  rw [← shows.entry_eq, ldDword_take _ (by decide)]

/-- The directory bit is kept with the object. -/
theorem amDir_eq (shows : dp.Shows table entry fs) :
    dp.obj.attr &&& amDir = dirAttr entry &&& amDir := by
  rw [shows.attr, UInt8.and_assoc]
  rfl

end Dir.Shows

/-- The outcomes of the search for a name in a table. -/
inductive LooksUp (drive : Drive Disk) (limit : Nat) (Ready : Disk → Prop)
    (table : Table mount image) (name : CString) (fs : FatFs Disk) (after : Dir) :
    FResult → Prop where
  | found {entry : List UInt8} (member : entry ∈ table.entries) (named : entryName entry = name)
      (shows : after.Shows table entry fs) : LooksUp drive limit Ready table name fs after .ok
  | missing (none : ∀ entry ∈ table.entries, entryName entry ≠ name) :
      LooksUp drive limit Ready table name fs after .noFile
  | failed (failing : ¬ drive.Unfailing image limit Ready) :
      LooksUp drive limit Ready table name fs after .diskErr

/-- The entries that have a name are those that are listed under it. -/
theorem Holds.selected_matching (holds : Holds card directory)
    (isDirectory : directory names = some table) {name : EightThree} (visible : name.shown ≠ []) :
    selected (matchingEntry name.stored) table.slots =
      table.entries.filter fun entry => entryName entry == name.shown := by
  rw [Table.entries, selected, selected, List.filter_filter]
  refine List.filter_congr fun entry used => ?_
  rw [Bool.eq_iff_iff, Bool.and_eq_true, beq_iff_eq]
  constructor
  · intro isMatch
    have stored := isMatch
    simp only [matchingEntry, Bool.and_eq_true, beq_iff_eq] at stored
    refine ⟨?_, validEntry_of_matching isMatch⟩
    rw [← entryName_take, stored.2, name.entryName_stored]
  · rintro ⟨named, valid⟩
    have member : entry ∈ table.entries := List.mem_filter.mpr ⟨used, valid⟩
    obtain ⟨noLabel, stored⟩ := holds.named isDirectory entry member
    exact (matchingEntry_iff stored noLabel visible).mpr named

/-- `dir_find` finds what the card lists under the name. -/
theorem dirFind_name (serves : drive.Serves image limit Ready) (fits : mount.Fits image)
    (sound : fs.Sound image Ready mount) (holds : Holds card directory)
    (isDirectory : directory names = some table) (dp : Dir) (opens : table.Opens dp.obj.sclust)
    {name : EightThree} (visible : name.shown ≠ []) (fn : dp.fn = name.stored) :
    let found := dirFind drive dp fs
    found.2.2.Sound image Ready mount ∧ dp.Moved found.2.1 ∧
      LooksUp drive limit Ready table name.shown found.2.2 found.2.1 found.1 := by
  obtain ⟨sound, moved, finds⟩ := dirFind_spec serves fits sound opens
  rw [fn, holds.selected_matching isDirectory visible] at finds
  refine ⟨sound, moved, ?_⟩
  generalize dirFind drive dp fs = result at finds ⊢
  obtain ⟨res, after, fs⟩ := result
  dsimp only at finds ⊢
  generalize equal : table.entries.filter (fun entry => entryName entry == name.shown) = found
    at finds
  cases finds with
  | entry stands shows attr =>
      rename_i k
      have member :
          table.slot k ∈ table.entries.filter fun entry => entryName entry == name.shown :=
        equal ▸ List.mem_cons_self
      obtain ⟨listed, named⟩ := List.mem_filter.mp member
      exact .found listed (beq_iff_eq.mp named) ⟨⟨k, stands, rfl⟩, shows, attr⟩
  | ended =>
      refine .missing fun entry member named => ?_
      have refused := List.filter_eq_nil_iff.mp equal entry member
      exact refused (beq_iff_eq.mpr named)
  | failed failing => exact .failed failing

section DirectoryTree

variable (content : List UInt8)

/-- "D" and "A.WAV" -/
def directoryName : CString := [0x44]
def waveName : CString := [0x41, 0x2E, 0x57, 0x41, 0x56]

def directoryEightThree : EightThree where
  body := [0x44]
  ext := []
  bodyChars := .single (capital_single (by decide) (by decide)) .nil
  extChars := .nil
  body_le := by decide
  ext_le := by decide

def waveEightThree : EightThree where
  body := [0x41]
  ext := [0x57, 0x41, 0x56]
  bodyChars := .single (capital_single (by decide) (by decide)) .nil
  extChars := .single (capital_single (by decide) (by decide)) <|
    .single (capital_single (by decide) (by decide)) <|
      .single (capital_single (by decide) (by decide)) .nil
  body_le := by decide
  ext_le := by decide

theorem directory_cases {α : Type} {names : List CString} {root below value : α}
    (chosen : (if names = [] then some root
      else if names = [directoryName] then some below else none) = some value) :
    names = [] ∧ value = root ∨ names = [directoryName] ∧ value = below := by
  split at chosen
  · exact .inl ⟨‹_›, (Option.some.inj chosen).symm⟩
  split at chosen
  · exact .inr ⟨‹_›, (Option.some.inj chosen).symm⟩
  · cases chosen

def treeListing (names : List CString) : Option (List FileInfo) :=
  if names = [] then some [{ fname := directoryName, fattrib := amDir }]
  else if names = [directoryName] then some [{ fname := waveName, fattrib := 0x20 }] else none

/-- The card whose only file has this content, in a directory. -/
def treeCard : Card where
  listing := treeListing
  content names := if names = [directoryName, waveName] then content else []
  shortNames listed entry member := by
    obtain ⟨rfl, rfl⟩ | ⟨rfl, rfl⟩ := directory_cases listed
    · obtain rfl := List.mem_singleton.mp member
      exact ⟨⟨by decide, by decide⟩, by decide⟩
    · obtain rfl := List.mem_singleton.mp member
      exact ⟨⟨by decide, by decide⟩, by decide⟩
  distinct listed := by
    obtain ⟨rfl, rfl⟩ | ⟨rfl, rfl⟩ := directory_cases listed
    · simp
    · simp
  subdirectories listed entry member := by
    obtain ⟨rfl, rfl⟩ | ⟨rfl, rfl⟩ := directory_cases listed
    · obtain rfl := List.mem_singleton.mp member
      decide
    · obtain rfl := List.mem_singleton.mp member
      decide

/-- The tables of its directories. -/
def treeTables (id : Nat) (names : List CString) :
    Option (Table (treeMount id) (treeImage content)) :=
  if names = [] then some (.treeRoot id content)
  else if names = [directoryName] then some (.treeDirectory id content) else none

/-- The root directory lists the directory, and the directory the file. -/
theorem treeRoot_entries (id : Nat) : (Table.treeRoot id content).entries = [directoryEntry] := by
  have sized : ∀ entry ∈ [directoryEntry], entry.length = 32 := by decide
  rw [Table.entries,
    Table.slots_of_sector (Table.treeRoot_sectors id content) sized (by decide) rfl]
  rw [List.singleton_append, selected_wanted (by decide) (by decide), List.length_singleton,
    List.replicate_succ, selected_unused (by decide)]

theorem dirAttr_waveEntry (size : Nat) : dirAttr (waveEntry size) = 0x20 := rfl

theorem treeDirectory_entries (id : Nat) :
    (Table.treeDirectory id content).entries = [waveEntry content.length] := by
  have sized : ∀ entry ∈ [dotEntry, dotDotEntry, waveEntry content.length], entry.length = 32 := by
    simp [dotEntry, dotDotEntry, waveEntry, rawEntry]
  rw [Table.entries, Table.slots_of_sector (Table.treeDirectory_sectors id content) sized
    (by simp) rfl]
  have first : dirName (waveEntry content.length) = 0x41 := rfl
  have valid : validEntry false (waveEntry content.length) = true := by
    rw [validEntry, first, dirAttr_waveEntry]
    decide
  rw [List.cons_append, selected_other (by decide) (by decide), List.cons_append,
    selected_other (by decide) (by decide), List.singleton_append,
    selected_wanted (first ▸ by decide) valid]
  exact congrArg (waveEntry content.length :: ·) (selected_unused (by decide))

theorem ldDword_waveEntry {size : Nat} (short : size ≤ 1024) :
    ldDword (waveEntry size) 28 = size := by
  have low : byteAt (waveEntry size) 28 = size % 256 := UInt8.toNat_ofNat'
  have high : byteAt (waveEntry size) 29 = size / 256 % 256 := UInt8.toNat_ofNat'
  have upper : byteAt (waveEntry size) 30 = 0 := rfl
  have top : byteAt (waveEntry size) 31 = 0 := rfl
  rw [ldDword, shiftIn_eq, shiftIn_eq, shiftIn_eq, low, high, upper, top]
  omega

theorem ldClust_waveEntry (id size : Nat) : ldClust (treeMount id) (waveEntry size) = 341 := by
  have low : byteAt (waveEntry size) 26 = 0x55 := rfl
  have high : byteAt (waveEntry size) 27 = 0x01 := rfl
  rw [ldClust, ldWord, low, high]
  rfl

theorem entryName_waveEntry (size : Nat) : entryName (waveEntry size) = waveName := by
  rw [← entryName_take]
  rfl

/-- The volume with a directory holds the card with that directory. -/
theorem tree_holds (id : Nat) {content : List UInt8} (short : content.length ≤ 1024) :
    Holds (treeCard content) (treeTables content id) where
  root := ⟨_, rfl, rfl⟩
  room isDirectory := by
    obtain ⟨-, rfl⟩ | ⟨-, rfl⟩ := directory_cases isDirectory
    · rw [Table.count_of_sector (Table.treeRoot_sectors id content)]
      decide
    · rw [Table.count_of_sector (Table.treeDirectory_sectors id content)]
      decide
  listing names := by
    have inRoot : [entryFile directoryEntry] = [{ fname := directoryName, fattrib := amDir }] := by
      decide
    have inDirectory : [entryFile (waveEntry content.length)] =
        [{ fname := waveName, fattrib := 0x20 }] := by
      rw [entryFile, entryName_waveEntry, dirAttr_waveEntry]
    change treeListing names = _
    rw [treeListing, treeTables, ← inRoot, ← inDirectory]
    split
    · rw [Option.map_some, treeRoot_entries, List.map_singleton]
    split
    · rw [Option.map_some, treeDirectory_entries, List.map_singleton]
    · rfl
  named isDirectory entry member := by
    obtain ⟨-, rfl⟩ | ⟨-, rfl⟩ := directory_cases isDirectory
    · rw [treeRoot_entries, List.mem_singleton] at member
      subst member
      exact ⟨by decide, directoryEightThree, by decide, rfl⟩
    · rw [treeDirectory_entries, List.mem_singleton] at member
      subst member
      exact ⟨by rw [dirAttr_waveEntry]; decide, waveEightThree, by decide, rfl⟩
  subdirectory isDirectory entry member isDir := by
    obtain ⟨rfl, rfl⟩ | ⟨-, rfl⟩ := directory_cases isDirectory
    · rw [treeRoot_entries, List.mem_singleton] at member
      subst member
      exact ⟨.treeDirectory id content, rfl, rfl⟩
    · rw [treeDirectory_entries, List.mem_singleton] at member
      rw [member, dirAttr_waveEntry] at isDir
      exact absurd (by decide) isDir
  reached {names name sub} isDirectory := by
    obtain ⟨root, -⟩ | ⟨below, -⟩ := directory_cases isDirectory
    · exact absurd root (by simp)
    · have below : names ++ [name] = [] ++ [directoryName] := below
      obtain ⟨rfl, same⟩ := List.append_inj' below rfl
      obtain rfl := List.singleton_inj.mp same
      refine ⟨.treeRoot id content, rfl, directoryEntry, ?_, by decide, by decide⟩
      rw [treeRoot_entries]
      exact List.mem_cons_self
  file isDirectory entry member isFile := by
    obtain ⟨-, rfl⟩ | ⟨rfl, rfl⟩ := directory_cases isDirectory
    · rw [treeRoot_entries, List.mem_singleton] at member
      rw [member] at isFile
      exact absurd isFile (by decide)
    · rw [treeDirectory_entries, List.mem_singleton] at member
      subst member
      refine ⟨.tree id content short, (ldDword_waveEntry short).symm, ?_, ?_⟩
      · rintro clst first
        obtain rfl := Option.some.inj first
        exact ldClust_waveEntry id _
      · rw [File.tree_content, entryName_waveEntry]
        rfl

end DirectoryTree

end DDSFunctionGen.Fat
