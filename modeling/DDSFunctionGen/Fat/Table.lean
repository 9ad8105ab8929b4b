import DDSFunctionGen.Fat.Volume
import DDSFunctionGen.Semantics.Transducer

/-!
# The allocation table

The table is one packed array of entries of 12, 16 or 32 bits; of the latter the upper
four bits are reserved. `get_fat` reads an entry through the window, a sector at a time:
in two steps where it may lie across a sector boundary.
-/

namespace DDSFunctionGen.Fat

open DDSFunctionGen.Arithmetic DDSFunctionGen.Semantics DDSFunctionGen.Sequences

/-- The bits of a table entry. -/
def FsType.width : FsType → Nat
  | .none => 0
  | .fat12 => 12
  | .fat16 => 16
  | .fat32 => 32

/-- The bits of an entry that are not reserved. -/
def FsType.valueBits : FsType → Nat
  | .none => 0
  | .fat12 => 12
  | .fat16 => 16
  | .fat32 => 28

namespace Mount

variable (mount : Mount) (image : Image)

/-- The bytes of the first table. -/
def table : List UInt8 := image.sectors mount.fatbase mount.fsize

/-- The entry of a cluster: the cluster that follows it, or a mark. -/
def next (clst : Nat) : Nat :=
  packedEntry mount.fsType.width (mount.table image) clst % 2 ^ mount.fsType.valueBits

/-- A mounted volume that lies within the drive: its clusters are a power of two of
sectors, its table has an entry for each of them and comes before them. -/
structure Fits : Prop where
  mounted : mount.fsType ≠ .none
  csize : ∃ exponent ≤ 7, mount.csize = 2 ^ exponent
  clusters : 3 ≤ mount.nFatent
  count : mount.nFatent ≤ 0x0FFFFFF7
  entries : mount.fsType.width * mount.nFatent ≤ 8 * (512 * mount.fsize)
  reserved : 0 < mount.fatbase
  tableFirst : mount.fatbase + mount.fsize ≤ mount.database
  inside : mount.database + mount.csize * (mount.nFatent - 2) ≤ image.size
  rootdir : mount.fsType ≠ .fat32 → 0 < mount.dirbase ∧ 0 < mount.nRootdir ∧
    mount.nRootdir < 2 ^ 16 ∧ mount.nRootdir % 16 = 0 ∧
    mount.dirbase + mount.nRootdir / 16 ≤ image.size

variable {mount image}

/-- Sector `i` of the table. -/
theorem table_sector {i : Nat} (inTable : i < mount.fsize) :
    ((List.range' mount.fatbase mount.fsize).map image.sector)[i]? =
      some (image.sector (mount.fatbase + i)) := by
  rw [List.getElem?_map, List.getElem?_range' inTable]
  simp

/-- A part of the table inside one sector. -/
theorem table_within {start count : Nat} (inTable : start / 512 < mount.fsize)
    (fits : start % 512 + count ≤ 512) :
    ((mount.table image).drop start).take count =
      ((image.sector (mount.fatbase + start / 512)).drop (start % 512)).take count := by
  have within := (image.uniform _).flatten_within (table_sector inTable) fits
  rwa [Nat.div_add_mod] at within

/-- A byte of the table. -/
theorem table_byte {i : Nat} (inTable : i / 512 < mount.fsize) :
    byteAt (mount.table image) i = byteAt (image.sector (mount.fatbase + i / 512)) (i % 512) := by
  have small : i % 512 < 512 := Nat.mod_lt i (by decide)
  have element := (image.uniform _).getElem?_flatten (table_sector inTable) small
  rw [Nat.div_add_mod] at element
  simp only [byteAt, List.getD_eq_getElem?_getD]
  exact congrArg (fun byte : Option UInt8 => (byte.getD 0).toNat) element

namespace Fits

/-- A sector of the table is a sector of the drive, whose number needs no reduction. -/
theorem table_inside (fits : mount.Fits image) {i : Nat} (inTable : i < mount.fsize) :
    dword (mount.fatbase + i) = mount.fatbase + i ∧ mount.fatbase + i < image.size := by
  have first := fits.tableFirst
  have inside := fits.inside
  have below := image.size_lt
  exact ⟨dword_of_lt (by omega), by omega⟩

/-- The bits of an entry are in the table. -/
theorem entry_inside (fits : mount.Fits image) {clst : Nat} (last : clst < mount.nFatent) :
    mount.fsType.width * clst + mount.fsType.width ≤ 8 * (512 * mount.fsize) := by
  rw [← Nat.mul_succ]
  exact (Nat.mul_le_mul_left _ last).trans fits.entries

end Fits
end Mount

/-- The layout of the volume with a directory. -/
def treeMount (id : Nat) : Mount where
  fsType := .fat12
  id := id
  nFats := 1
  nRootdir := 16
  csize := 1
  nFatent := 343
  fsize := 2
  volbase := 1
  fatbase := 2
  dirbase := 4
  database := 5

theorem treeMount_fits (id : Nat) (content : List UInt8) :
    (treeMount id).Fits (treeImage content) where
  mounted := by simp [treeMount]
  csize := ⟨0, by decide, rfl⟩
  clusters := by simp [treeMount]
  count := by simp [treeMount]
  entries := by simp [treeMount, FsType.width]
  reserved := by simp [treeMount]
  tableFirst := by simp [treeMount]
  inside := by simp [treeMount, treeImage]
  rootdir _ := by simp [treeMount, treeImage]

/-- It mounted, before any sector has been read. -/
def treeFs (id : Nat) : FatFs Nat where
  pdrv := 0
  mount := treeMount id
  winsect := 0xFFFFFFFF

theorem treeFs_sound (id : Nat) (content : List UInt8) :
    (treeFs id).Sound (treeImage content) (fun _ => True) (treeMount id) where
  mounted := rfl
  ready := trivial
  window inside := absurd inside (by simp [treeFs, treeImage])

variable {mount : Mount} {image : Image}

/-- An entry of 12 bits, from the two bytes it has a part of. -/
theorem next_fat12 (isType : mount.fsType = .fat12) (clst : Nat) :
    mount.next image clst =
      (let wc := byteAt (mount.table image) (clst + clst / 2) |||
        byteAt (mount.table image) (clst + clst / 2 + 1) <<< 8
      if clst &&& 1 ≠ 0 then wc >>> 4 else wc &&& 0xFFF) := by
  let bc := clst + clst / 2
  have merged : byteAt (mount.table image) bc ||| byteAt (mount.table image) (bc + 1) <<< 8 =
      littleNumber (((mount.table image).drop bc).take 2) := by
    rw [← ldWord_eq, ldWord, Nat.or_comm]
  have small := littleNumber_take_lt ((mount.table image).drop bc) 2
  dsimp only
  rw [merged, Nat.and_one_is_mod, Nat.and_two_pow_sub_one_eq_mod _ 12, Nat.shiftRight_eq_div_pow]
  simp only [Mount.next, isType, FsType.width, FsType.valueBits]
  by_cases odd : clst % 2 = 0
  · have begins : 12 * clst = 8 * bc + 0 := by omega
    rw [packedEntry_eq _ begins (by decide : 0 + 12 ≤ 8 * 2), if_neg (by omega)]
    simp
  · have begins : 12 * clst = 8 * bc + 4 := by omega
    rw [packedEntry_eq _ begins (by decide : 4 + 12 ≤ 8 * 2), if_pos odd]
    omega

/-- An entry of 16 bits. -/
theorem next_fat16 (isType : mount.fsType = .fat16) (clst : Nat) :
    mount.next image clst = littleNumber (((mount.table image).drop (clst * 2)).take 2) := by
  have begins : 16 * clst = 8 * (clst * 2) + 0 := by omega
  have small := littleNumber_take_lt ((mount.table image).drop (clst * 2)) 2
  simp only [Mount.next, isType, FsType.width, FsType.valueBits]
  rw [packedEntry_eq _ begins (by decide : 0 + 16 ≤ 8 * 2), Nat.pow_zero, Nat.div_one,
    Nat.mod_mod, Nat.mod_eq_of_lt small]

/-- An entry of 32 bits, of which 28 count. -/
theorem next_fat32 (isType : mount.fsType = .fat32) (clst : Nat) :
    mount.next image clst =
      littleNumber (((mount.table image).drop (clst * 4)).take 4) % 2 ^ 28 := by
  have begins : 32 * clst = 8 * (clst * 4) + 0 := by omega
  simp only [Mount.next, isType, FsType.width, FsType.valueBits]
  rw [packedEntry_eq _ begins (by decide : 0 + 32 ≤ 8 * 4), Nat.pow_zero, Nat.div_one,
    Nat.mod_mod_of_dvd _ (Nat.pow_dvd_pow 2 (by decide))]

/-- A cluster number is not mistaken for a read error. -/
theorem next_lt (clst : Nat) : mount.next image clst < 2 ^ 28 := by
  have bits : mount.fsType.valueBits ≤ 28 := by
    cases mount.fsType <;> decide
  exact (Nat.mod_lt _ (Nat.pow_pos (by decide))).trans_le (Nat.pow_le_pow_right (by decide) bits)

variable {Disk : Type} {drive : Drive Disk} {limit : Nat} {Ready : Disk → Prop} {fs : FatFs Disk}

/-- What a table access leaves: a sound object, and the value or the mark of a read
error. -/
def Answers (drive : Drive Disk) (image : Image) (limit : Nat) (Ready : Disk → Prop) (mount : Mount)
    (value : Nat) (answer : Nat × FatFs Disk) : Prop :=
  answer.2.Sound image Ready mount ∧
    (answer.1 = value ∨ answer.1 = 0xFFFFFFFF ∧ ¬ drive.Unfailing image limit Ready)

/-- An access that reads the table sector `i` and then goes on with what the window
shows. -/
theorem answers_of_window (serves : drive.Serves image limit Ready) (fits : mount.Fits image)
    (sound : fs.Sound image Ready mount) {i value : Nat} (inTable : i < mount.fsize)
    {access : FatFs Disk → Nat × FatFs Disk}
    (shown : ∀ fs : FatFs Disk, fs.Sound image Ready mount →
      fs.win = image.sector (mount.fatbase + i) →
      Answers drive image limit Ready mount value (access fs)) :
    Answers drive image limit Ready mount value
      (throughWindow drive (dword (mount.fatbase + i)) fs access) := by
  obtain ⟨number, inside⟩ := fits.table_inside inTable
  rw [number, throughWindow]
  dsimp only
  obtain ⟨stillSound, ⟨succeeds, shows⟩ | ⟨fails, failing⟩⟩ := moveWindow_spec serves sound inside
  · rw [if_neg (fun other => other succeeds)]
    exact shown _ stillSound shows
  · rw [if_pos (by rw [fails]; decide)]
    exact ⟨stillSound, .inr ⟨rfl, failing⟩⟩

/-- `get_fat` finds the entry of a cluster, whatever the window shows and wherever in the
table's sectors the entry lies. -/
theorem getFat_answers (serves : drive.Serves image limit Ready) (fits : mount.Fits image)
    (sound : fs.Sound image Ready mount) {clst : Nat} (first : 2 ≤ clst)
    (last : clst < mount.nFatent) :
    Answers drive image limit Ready mount (mount.next image clst) (getFat drive clst fs) := by
  have inRange : ¬ (clst < 2 ∨ mount.nFatent ≤ clst) := by omega
  have entry := fits.entry_inside last
  have finished {fs : FatFs Disk} (sound : fs.Sound image Ready mount) {value : Nat}
      (isEntry : value = mount.next image clst) :
      Answers drive image limit Ready mount (mount.next image clst) (value, fs) :=
    ⟨sound, .inl isEntry⟩
  unfold getFat
  rw [sound.mounted, if_neg inRange]
  dsimp only
  cases isType : mount.fsType with
  | none => exact absurd isType fits.mounted
  | fat12 =>
      simp only [isType, FsType.width] at entry
      have firstByte : (clst + clst / 2) / 512 < mount.fsize := by omega
      have secondByte : (clst + clst / 2 + 1) / 512 < mount.fsize := by omega
      refine answers_of_window serves fits sound firstByte fun fs sound firstShown => ?_
      refine answers_of_window serves fits sound secondByte fun fs' sound secondShown => ?_
      refine finished sound ?_
      rw [next_fat12 isType, Mount.table_byte firstByte, Mount.table_byte secondByte, firstShown,
        secondShown]
  | fat16 =>
      simp only [isType, FsType.width] at entry
      have inTable : clst / 256 < mount.fsize := by omega
      have sector : clst * 2 / 512 = clst / 256 := by omega
      refine answers_of_window serves fits sound inTable fun fs sound shown => ?_
      refine finished sound ?_
      rw [next_fat16 isType, Mount.table_within (sector ▸ inTable) (by omega), sector, shown,
        ldWord_eq]
  | fat32 =>
      simp only [isType, FsType.width] at entry
      have inTable : clst / 128 < mount.fsize := by omega
      have sector : clst * 4 / 512 = clst / 128 := by omega
      refine answers_of_window serves fits sound inTable fun fs sound shown => ?_
      refine finished sound ?_
      rw [next_fat32 isType, Mount.table_within (sector ▸ inTable) (by omega), sector, shown,
        ldDword_eq, Nat.and_two_pow_sub_one_eq_mod _ 28]

/-- Over any accesses `get_fat` gives the entry of every cluster and 1 for every other
number, except where it gives the mark of a read error. -/
theorem table_looked_up (serves : drive.Serves image limit Ready) (fits : mount.Fits image)
    (sound : fs.Sound image Ready mount) (numbers : List Nat) :
    List.Forall₂ (fun clst answer =>
        answer = (if clst < 2 ∨ mount.nFatent ≤ clst then 1 else mount.next image clst) ∨
          answer = 0xFFFFFFFF ∧ ¬ drive.Unfailing image limit Ready)
      numbers (transfer (fun fs clst => getFat drive clst fs) fs numbers).1 := by
  induction numbers generalizing fs with
  | nil => exact .nil
  | cons clst rest inductionHypothesis =>
      rw [transfer_cons]
      by_cases outside : clst < 2 ∨ mount.nFatent ≤ clst
      · have refused : getFat drive clst fs = (1, fs) := by
          rw [getFat, sound.mounted, if_pos outside]
        rw [refused]
        exact .cons (.inl (if_pos outside).symm) (inductionHypothesis sound)
      · obtain ⟨first, last⟩ := not_or.mp outside
        obtain ⟨sound, answer⟩ :=
          getFat_answers serves fits sound (Nat.le_of_not_lt first) (Nat.lt_of_not_le last)
        exact .cons (by rwa [if_neg outside]) (inductionHypothesis sound)

/-- An entry of the volume with a directory, from the two bytes it has a part of. -/
theorem treeMount_next (id : Nat) (content : List UInt8) {clst : Nat} (last : clst < 343) :
    (treeMount id).next (treeImage content) clst =
      (let bc := clst + clst / 2
      let wc := byteAt (treeSector content (2 + bc / 512)) (bc % 512) |||
        byteAt (treeSector content (2 + (bc + 1) / 512)) ((bc + 1) % 512) <<< 8
      if clst &&& 1 ≠ 0 then wc >>> 4 else wc &&& 0xFFF) := by
  have inTable : (clst + clst / 2 + 1) / 512 < 2 := by omega
  rw [next_fat12 rfl, Mount.table_byte (inTable.trans_le' (Nat.div_le_div_right (Nat.le_succ _))),
    Mount.table_byte inTable]
  rfl

/-- The directory is a cluster long, the file two. -/
theorem treeMount_links (id : Nat) (content : List UInt8) :
    (treeMount id).next (treeImage content) 2 = 0xFFF ∧
      (treeMount id).next (treeImage content) 341 = 342 ∧
        (treeMount id).next (treeImage content) 342 = 0xFFF := by
  have first : treeSector content 2 = paddedSector treeFat := rfl
  have second : treeSector content 3 = paddedSector treeFatEnd := rfl
  rw [treeMount_next id content (by decide), treeMount_next id content (by decide),
    treeMount_next id content (by decide)]
  simp only [Nat.reduceDiv, Nat.reduceAdd, Nat.reduceMod, first, second]
  decide +kernel

/-- The entry in two sectors, and the ends of both chains. -/
theorem table_looked_up_tree :
    (transfer (fun fs clst => getFat (treeImage []).drive clst fs) (treeFs 1)
      [341, 342, 2, 343]).1 = [342, 0xFFF, 0xFFF, 1] := by
  obtain _ | ⟨first, _ | ⟨second, _ | ⟨third, _ | ⟨fourth, _⟩⟩⟩⟩ := table_looked_up
    ((treeImage []).drive_serves Nat.one_pos) (treeMount_fits 1 []) (treeFs_sound 1 [])
    [341, 342, 2, 343]
  obtain ⟨directory, linked, ended⟩ := treeMount_links 1 []
  have unfailing := (treeImage []).drive_unfailing 1
  simp only [unfailing, not_true_eq_false, and_false, or_false] at first second third fourth
  rw [if_neg (by decide), linked] at first
  rw [if_neg (by decide), ended] at second
  rw [if_neg (by decide), directory] at third
  rw [if_pos (by decide)] at fourth
  exact List.cons_eq_cons.mpr ⟨first, List.cons_eq_cons.mpr ⟨second, List.cons_eq_cons.mpr
    ⟨third, congrArg (fun entry => [entry]) fourth⟩⟩⟩

end DDSFunctionGen.Fat
