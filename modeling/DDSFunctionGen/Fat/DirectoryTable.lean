import DDSFunctionGen.Fat.ReadFile
import DDSFunctionGen.Fat.DirectoryObject

/-!
# Directory tables

The entries of a table in order, and how an object moves from one to the next. At the
end of the table it is left without a sector; but an object that stands at the last of
the entries a table may have stays there.
-/

namespace DDSFunctionGen.Fat

open DDSFunctionGen.Sequences

/-- A directory table: the static root table, or a chain whose last entry ends it. -/
inductive Table (mount : Mount) (image : Image) where
  | static (type : mount.fsType ≠ .fat32)
  | dynamic (chain : Chain mount image) (first : Nat) (isFirst : chain.clusters[0]? = some first)
      (ended : ∀ last, chain.clusters.getLast? = some last → mount.nFatent ≤ mount.next image last)

variable {mount : Mount} {image : Image}

namespace Table

def sectors : Table mount image → List Nat
  | static _ => List.range' mount.dirbase (mount.nRootdir / 16)
  | dynamic chain .. => chain.sectors

/-- The first cluster, 0 for the static table. -/
def start : Table mount image → Nat
  | static _ => 0
  | dynamic _ first .. => first

/-- The cluster number kept with sector `j` of the table. -/
def InCluster (j clst : Nat) : Table mount image → Prop
  | static _ => clst = 0
  | dynamic chain .. => chain.clusters[j / mount.csize]? = some clst

variable (table : Table mount image)

/-- The object with this start cluster is the table. -/
def Opens (sclust : Nat) : Prop :=
  (if sclust = 0 ∧ mount.fsType = .fat32 then mount.dirbase else sclust) = table.start

def bytes : List UInt8 := (table.sectors.map image.sector).flatten

/-- The number of entries that may be reached. -/
def count : Nat := min (16 * table.sectors.length) (maxDir / 32)

def slot (k : Nat) : List UInt8 := (table.bytes.drop (32 * k)).take 32

/-- The entries, of 32 bytes each. -/
def slots : List (List UInt8) := (List.range table.count).map table.slot

variable {table}

theorem length_slots : table.slots.length = table.count := by
  rw [slots, List.length_map, List.length_range]

/-- The entries from one on. -/
theorem drop_slots {k : Nat} (inside : k < table.count) :
    table.slots.drop k = table.slot k :: table.slots.drop (k + 1) := by
  have position : k < table.slots.length := length_slots ▸ inside
  rw [List.drop_eq_getElem_cons position]
  simp only [slots, List.getElem_map, List.getElem_range]

theorem drop_slots_count {k : Nat} (outside : table.count ≤ k) : table.slots.drop k = [] :=
  List.drop_eq_nil_of_le (length_slots ▸ outside)

/-- An entry lies in one sector. -/
theorem slot_eq {k sector : Nat} (isSector : table.sectors[k / 16]? = some sector) :
    table.slot k = ((image.sector sector).drop (32 * (k % 16))).take 32 := by
  have isBlock : (table.sectors.map image.sector)[k / 16]? = some (image.sector sector) := by
    rw [List.getElem?_map, isSector]
    rfl
  have fits : 32 * (k % 16) + 32 ≤ 512 := by omega
  have position : 512 * (k / 16) + 32 * (k % 16) = 32 * k := by omega
  have part := (image.uniform table.sectors).flatten_within isBlock fits
  rw [position] at part
  exact part

/-- The sectors of a table are sectors of the drive. -/
theorem sector_inside (fits : mount.Fits image) {sector : Nat} (isSector : sector ∈ table.sectors) :
    0 < sector ∧ sector < image.size := by
  cases table with
  | static type =>
      obtain ⟨base, -, -, -, inside⟩ := fits.rootdir type
      have range := List.mem_range'_1.mp isSector
      omega
  | dynamic chain => exact Chain.sector_inside fits isSector

/-- A table has entries. -/
theorem count_pos (fits : mount.Fits image) : 0 < table.count := by
  have sectors : 0 < table.sectors.length := by
    cases table with
    | static type =>
        obtain ⟨-, positive, -, aligned, -⟩ := fits.rootdir type
        rw [Table.sectors, List.length_range']
        omega
    | dynamic chain first isFirst =>
        obtain ⟨nonempty, -⟩ := List.getElem?_eq_some_iff.mp isFirst
        rw [Table.sectors, Chain.length_sectors]
        exact Nat.mul_pos fits.csize_pos nonempty
  have most : 0 < maxDir / 32 := by decide
  rw [count]
  omega

theorem count_of_sector {sector : Nat} (isOnly : table.sectors = [sector]) : table.count = 16 := by
  rw [count, isOnly]
  rfl

/-- A table of one sector that begins with these entries. -/
theorem slots_of_sector {sector : Nat} (isOnly : table.sectors = [sector])
    {entries : List (List UInt8)} (sized : ∀ entry ∈ entries, entry.length = 32)
    (few : entries.length ≤ 16) (begins : image.sector sector = paddedSector entries.flatten) :
    table.slots = entries ++ List.replicate (16 - entries.length) (List.replicate 32 0) := by
  let unused : List (List UInt8) := List.replicate (16 - entries.length) (List.replicate 32 0)
  have uniform : Uniform 32 (entries ++ unused) := by
    refine List.forall_mem_append.mpr ⟨sized, fun entry member => ?_⟩
    rw [List.eq_of_mem_replicate member, List.length_replicate]
  have length : (entries ++ unused).length = 16 := by
    rw [List.length_append, List.length_replicate]
    omega
  have whole : image.sector sector = (entries ++ unused).flatten := by
    have used : entries.flatten.length = 32 * entries.length := Uniform.length_flatten sized
    have left : 512 - 32 * entries.length = (16 - entries.length) * 32 := by omega
    rw [begins, paddedSector, List.take_of_length_le (by omega), used, left, List.flatten_append,
      List.flatten_replicate_replicate]
  apply List.ext_getElem
  · rw [length_slots, count_of_sector isOnly, length]
  · intro k inSlots inEntries
    have inside : k < 16 := length ▸ inEntries
    have first : k / 16 = 0 := Nat.div_eq_of_lt inside
    have isSector : table.sectors[k / 16]? = some sector := by
      rw [isOnly, first]
      rfl
    have sized := uniform _ (List.getElem_mem inEntries)
    have part := uniform.flatten_within (List.getElem?_eq_getElem inEntries) (Nat.le_refl (0 + 32))
    rw [Nat.add_zero, List.drop_zero, List.take_of_length_le (Nat.le_of_eq sized)] at part
    simp only [slots, List.getElem_map, List.getElem_range]
    rw [slot_eq isSector, Nat.mod_eq_of_lt inside, whole, part]

/-- The tables of the volume with a directory: its root table, and the table in cluster 2. -/
def treeRoot (id : Nat) (content : List UInt8) : Table (treeMount id) (treeImage content) :=
  static (by simp [treeMount])

def treeDirectory (id : Nat) (content : List UInt8) : Table (treeMount id) (treeImage content) :=
  dynamic
    { clusters := [2]
      areClusters := List.forall_mem_singleton.mpr ⟨Nat.le_refl 2, by simp [treeMount]⟩
      linked := List.isChain_singleton 2 }
    2 rfl fun last isLast => by
      have only : 2 = last := Option.some.inj isLast
      rw [← only, (treeMount_links id content).1]
      simp [treeMount]

theorem treeRoot_sectors (id : Nat) (content : List UInt8) :
    (treeRoot id content).sectors = [4] := by
  simp [treeRoot, sectors, treeMount]

theorem treeDirectory_sectors (id : Nat) (content : List UInt8) :
    (treeDirectory id content).sectors = [5] := by
  simp [treeDirectory, sectors, Chain.sectors, Mount.clusterSectors, Mount.firstSector, treeMount]

end Table

/-- An object that stands at entry `k` of a table. -/
structure Dir.At (table : Table mount image) (k : Nat) (dp : Dir) : Prop where
  inside : k < table.count
  dptr : dp.dptr = 32 * k
  sect : table.sectors[k / 16]? = some dp.sect
  dir : dp.dir = 32 * (k % 16)
  clust : table.InCluster (k / 16) dp.clust

/-- The same directory object at another entry, whose attribute it may have taken. -/
structure Dir.Moved (dp after : Dir) : Prop where
  obj : after.obj = { dp.obj with attr := after.obj.attr }
  fn : after.fn = dp.fn
  nsFlag : after.nsFlag = dp.nsFlag

theorem Dir.Moved.trans {first second third : Dir} (before : first.Moved second)
    (after : second.Moved third) : first.Moved third :=
  ⟨by rw [after.obj, before.obj], after.fn.trans before.fn, after.nsFlag.trans before.nsFlag⟩

/-- The window on the object's sector shows its entry. -/
theorem Dir.At.entry_eq {Disk : Type} {fs : FatFs Disk} {table : Table mount image} {k : Nat}
    {dp : Dir} (stands : dp.At table k) (shows : fs.win = image.sector dp.sect) :
    dp.entry fs = table.slot k := by
  rw [Dir.entry, shows, stands.dir, Table.slot_eq stands.sect]

/-- The outcomes of a step from entry `k`: the next entry, the end of the table, or a
failure of the drive. -/
inductive StepsTo {Disk : Type} (drive : Drive Disk) (limit : Nat) (Ready : Disk → Prop)
    (table : Table mount image) (k : Nat) (dp : Dir) : FResult → Dir → Prop where
  | next {after : Dir} (stands : after.At table (k + 1)) :
      StepsTo drive limit Ready table k dp .ok after
  | ended {after : Dir} (last : k + 1 = table.count) (done : after.sect = 0) :
      StepsTo drive limit Ready table k dp .noFile after
  | full (last : k + 1 = table.count) (most : k + 1 = maxDir / 32) :
      StepsTo drive limit Ready table k dp .noFile dp
  | failed {after : Dir} (failing : ¬ drive.Unfailing image limit Ready) :
      StepsTo drive limit Ready table k dp .diskErr after

variable {Disk : Type} {drive : Drive Disk} {limit : Nat} {Ready : Disk → Prop} {fs : FatFs Disk}
  {table : Table mount image} {k : Nat} {dp : Dir}

/-- Standing at the entry after `k`. -/
theorem nextEntry_at (stands : dp.At table k) (later : k + 1 < table.count) {sect clst : Nat}
    (isSector : table.sectors[(k + 1) / 16]? = some sect)
    (isCluster : table.InCluster ((k + 1) / 16) clst) :
    ({ dp with sect, clust := clst, dptr := dp.dptr + 32, dir := (dp.dptr + 32) % 512 } : Dir).At
      table (k + 1) := by
  have position := stands.dptr
  refine ⟨later, ?_, isSector, ?_, isCluster⟩
  · dsimp only
    omega
  · dsimp only
    omega

/-- The step across a sector boundary of a static table. -/
theorem dirNext_static (drive : Drive Disk) (limit : Nat) (fits : mount.Fits image)
    (sound : fs.Sound image Ready mount) {type : mount.fsType ≠ .fat32}
    (stands : dp.At (.static type : Table mount image) k) (boundary : k % 16 = 15)
    (few : k + 1 < maxDir / 32) :
    let step := dirNext drive dp fs
    step.2.2 = fs ∧ dp.Moved step.2.1 ∧
      StepsTo drive limit Ready (.static type : Table mount image) k dp step.1 step.2.1 := by
  obtain ⟨base, positive, small, aligned, inside⟩ := fits.rootdir type
  have dptr := stands.dptr
  have noCluster : dp.clust = 0 := stands.clust
  have isSector : (List.range' mount.dirbase (mount.nRootdir / 16))[k / 16]? = some dp.sect :=
    stands.sect
  obtain ⟨inTable, number⟩ := List.getElem?_eq_some_iff.mp isSector
  rw [List.getElem_range', Nat.one_mul] at number
  rw [List.length_range'] at inTable
  have below := image.size_lt
  have count : (Table.static type : Table mount image).count = mount.nRootdir := by
    rw [Table.count, Table.sectors, List.length_range', maxDir]
    omega
  have next : dword (dp.sect + 1) = dp.sect + 1 := dword_of_lt (by omega)
  have room : ¬ (dp.sect = 0 ∨ maxDir ≤ dp.dptr + 32) := by
    unfold maxDir at few ⊢
    omega
  dsimp only
  rw [dirNext]
  dsimp only
  rw [if_neg room, if_pos (by omega), if_pos noCluster, sound.mounted, next]
  by_cases last : mount.nRootdir ≤ (dp.dptr + 32) / 32
  · rw [if_pos last]
    have ended : k + 1 = (Table.static type : Table mount image).count := by
      have := stands.inside
      omega
    exact ⟨rfl, ⟨rfl, rfl, rfl⟩, .ended ended rfl⟩
  · rw [if_neg last]
    have later : k + 1 < (Table.static type : Table mount image).count := by omega
    have nextSector : (Table.static type : Table mount image).sectors[(k + 1) / 16]? =
        some (dp.sect + 1) := by
      rw [Table.sectors, List.getElem?_range' (by omega), Nat.one_mul]
      congr 1
      omega
    exact ⟨rfl, ⟨rfl, rfl, rfl⟩, .next (nextEntry_at stands later nextSector noCluster)⟩

/-- Inside a block the next position is in the same block. -/
theorem succ_within {size j : Nat} (within : (j + 1) % size ≠ 0) :
    (j + 1) / size = j / size ∧ (j + 1) % size = j % size + 1 := by
  have same : (j + 1) / size = j / size :=
    Nat.succ_div_of_not_dvd fun divides => within (Nat.mod_eq_zero_of_dvd divides)
  have before := Nat.div_add_mod j size
  have after := Nat.div_add_mod (j + 1) size
  rw [same] at after
  exact ⟨same, by omega⟩

/-- At the end of a block the next position begins the next block. -/
theorem succ_boundary {size j : Nat} (boundary : (j + 1) % size = 0) :
    j + 1 = size * (j / size + 1) := by
  have divides := Nat.dvd_of_mod_eq_zero boundary
  rw [← Nat.succ_div_of_dvd divides, Nat.mul_div_cancel' divides]

section Dynamic

variable {chain : Chain mount image} {first : Nat} {isFirst : chain.clusters[0]? = some first}
  {ended : ∀ last, chain.clusters.getLast? = some last → mount.nFatent ≤ mount.next image last}

/-- Where an object stands in a chain: its cluster and its sector in the cluster. -/
theorem sect_eq (fits : mount.Fits image) (stands : dp.At (.dynamic chain first isFirst ended) k) :
    chain.clusters[k / 16 / mount.csize]? = some dp.clust ∧
      dp.sect = mount.firstSector dp.clust + k / 16 % mount.csize := by
  have isNth : chain.clusters[k / 16 / mount.csize]? = some dp.clust := stands.clust
  have isSector : chain.sectors[k / 16]? = some dp.sect := stands.sect
  have same := Chain.sector_eq isNth (Nat.mod_lt (k / 16) fits.csize_pos)
  rw [Nat.div_add_mod] at same
  exact ⟨isNth, Option.some.inj (isSector.symm.trans same)⟩

/-- The end of the step onto the first sector of the next cluster, given its entry in the
table. -/
theorem leaveCluster_spec (fits : mount.Fits image) (sound : fs.Sound image Ready mount)
    (stands : dp.At (.dynamic chain first isFirst ended) k) (boundary : k % 16 = 15)
    (few : k + 1 < maxDir / 32) (leaves : (k / 16 + 1) % mount.csize = 0) (sect : Nat) :
    let clst := mount.next image dp.clust
    let step : FResult × Dir × FatFs Disk :=
      if clst ≤ 1 then (.intErr, { dp with sect }, fs)
      else if clst = 0xFFFFFFFF then (.diskErr, { dp with sect }, fs)
      else if fs.mount.nFatent ≤ clst then (.noFile, { dp with sect := 0 }, fs)
      else nextEntry (dp.dptr + 32) { dp with clust := clst, sect := clst2sect fs.mount clst } fs
    step.2.2.Sound image Ready mount ∧ dp.Moved step.2.1 ∧
      StepsTo drive limit Ready (.dynamic chain first isFirst ended) k dp step.1 step.2.1 := by
  obtain ⟨isNth, -⟩ := sect_eq fits stands
  have index := succ_boundary leaves
  have later : (k + 1) / 16 = k / 16 + 1 := by omega
  have small : mount.next image dp.clust < 2 ^ 28 := next_lt dp.clust
  have clusters := fits.clusters
  have length : chain.sectors.length = mount.csize * chain.clusters.length := Chain.length_sectors
  have inside : k < min (16 * chain.sectors.length) (maxDir / 32) := stands.inside
  intro clst step
  cases isNext : chain.clusters[k / 16 / mount.csize + 1]? with
  | some next =>
      have isCluster := Chain.isCluster isNext
      have first := isCluster.first
      have last := isCluster.last
      have link : clst = next := Chain.next_eq isNth isNext
      have atStart := Chain.sector_eq isNext fits.csize_pos
      rw [Nat.add_zero, Nat.add_zero, ← index, ← later] at atStart
      have bound := (List.getElem?_eq_some_iff.mp atStart).1
      have inTable : k + 1 < min (16 * chain.sectors.length) (maxDir / 32) := by omega
      have inCluster : chain.clusters[(k + 1) / 16 / mount.csize]? = some next := by
        rw [later, index, Nat.mul_div_cancel_left _ fits.csize_pos, isNext]
      have isStep : step = nextEntry (dp.dptr + 32)
          { dp with clust := next, sect := mount.firstSector next } fs := by
        dsimp only [step]
        rw [link, sound.mounted, if_neg (by omega), if_neg (by omega), if_neg (by omega),
          fits.clst2sect_eq isCluster]
      rw [isStep]
      exact ⟨sound, ⟨rfl, rfl, rfl⟩, .next (nextEntry_at stands inTable atStart inCluster)⟩
  | none =>
      have bound := (List.getElem?_eq_some_iff.mp isNth).1
      have atEnd : chain.clusters.length = k / 16 / mount.csize + 1 := by
        have outside := List.getElem?_eq_none_iff.mp isNext
        omega
      have past := ended dp.clust (by
        rw [List.getLast?_eq_getElem?, atEnd, Nat.add_sub_cancel, isNth])
      have isStep : step = (.noFile, { dp with sect := 0 }, fs) := by
        dsimp only [step, clst]
        rw [sound.mounted, if_neg (by omega), if_neg (by omega), if_pos past]
      rw [atEnd, ← index] at length
      have total : k + 1 = min (16 * chain.sectors.length) (maxDir / 32) := by omega
      rw [isStep]
      exact ⟨sound, ⟨rfl, rfl, rfl⟩, .ended total rfl⟩

/-- The step across a sector boundary of a chain, which leaves the cluster where the
boundary is one of clusters. -/
theorem dirNext_dynamic (serves : drive.Serves image limit Ready) (fits : mount.Fits image)
    (sound : fs.Sound image Ready mount)
    (stands : dp.At (.dynamic chain first isFirst ended) k) (boundary : k % 16 = 15)
    (few : k + 1 < maxDir / 32) :
    let step := dirNext drive dp fs
    step.2.2.Sound image Ready mount ∧ dp.Moved step.2.1 ∧
      StepsTo drive limit Ready (.dynamic chain first isFirst ended) k dp step.1 step.2.1 := by
  obtain ⟨isNth, number⟩ := sect_eq fits stands
  have dptr := stands.dptr
  have isCluster := Chain.isCluster isNth
  have hasCluster := isCluster.first
  have start := fits.firstSector_inside isCluster
  have inCluster : k / 16 % mount.csize < mount.csize := Nat.mod_lt _ fits.csize_pos
  have below := image.size_lt
  have next : dword (dp.sect + 1) = dp.sect + 1 := dword_of_lt (by omega)
  have room : ¬ (dp.sect = 0 ∨ maxDir ≤ dp.dptr + 32) := by
    unfold maxDir at few ⊢
    omega
  have sector : (dp.dptr + 32) / 512 = k / 16 + 1 := by omega
  have later : (k + 1) / 16 = k / 16 + 1 := by omega
  dsimp only
  rw [dirNext]
  dsimp only
  rw [if_neg room, if_pos (by omega), if_neg (by omega), sound.mounted, next, sector,
    fits.csect_eq]
  by_cases leaves : (k / 16 + 1) % mount.csize = 0
  · have entry := getFat_answers serves fits sound hasCluster isCluster.last
    rw [if_pos leaves]
    generalize getFat drive dp.clust fs = answer at entry ⊢
    obtain ⟨value, fs⟩ := answer
    obtain ⟨sound, rfl | ⟨rfl, failing⟩⟩ := entry
    · exact leaveCluster_spec fits sound stands boundary few leaves (dp.sect + 1)
    · exact ⟨sound, ⟨rfl, rfl, rfl⟩, .failed failing⟩
  · obtain ⟨sameCluster, further⟩ := succ_within leaves
    have within : (k / 16 + 1) % mount.csize < mount.csize := Nat.mod_lt _ fits.csize_pos
    rw [← sameCluster] at isNth
    have isSector := Chain.sector_eq isNth within
    rw [Nat.div_add_mod, further, ← Nat.add_assoc, ← number, ← later] at isSector
    have bound := (List.getElem?_eq_some_iff.mp isSector).1
    have inTable : k + 1 < min (16 * chain.sectors.length) (maxDir / 32) := by omega
    rw [← later] at isNth
    rw [if_neg leaves]
    exact ⟨sound, ⟨rfl, rfl, rfl⟩, .next (nextEntry_at stands inTable isSector isNth)⟩

end Dynamic

/-- One step from an entry of a table. -/
theorem dirNext_spec (serves : drive.Serves image limit Ready) (fits : mount.Fits image)
    (sound : fs.Sound image Ready mount) (stands : dp.At table k) :
    let step := dirNext drive dp fs
    step.2.2.Sound image Ready mount ∧ dp.Moved step.2.1 ∧
      StepsTo drive limit Ready table k dp step.1 step.2.1 := by
  have dptr := stands.dptr
  have inside := stands.inside
  have most : table.count ≤ maxDir / 32 := Nat.min_le_right _ _
  by_cases few : k + 1 < maxDir / 32
  · by_cases boundary : k % 16 = 15
    · cases table with
      | static type =>
          have step := dirNext_static drive limit fits sound stands boundary few
          dsimp only at step ⊢
          rw [step.1]
          exact ⟨sound, step.2⟩
      | dynamic => exact dirNext_dynamic serves fits sound stands boundary few
    · have isSector := stands.sect
      have positive := (Table.sector_inside fits (List.mem_of_getElem? isSector)).1
      have same : (k + 1) / 16 = k / 16 := by omega
      have bound := (List.getElem?_eq_some_iff.mp isSector).1
      have room : ¬ (dp.sect = 0 ∨ maxDir ≤ dp.dptr + 32) := by
        unfold maxDir at few ⊢
        omega
      have inTable : k + 1 < table.count := by
        unfold Table.count
        omega
      have inCluster := stands.clust
      rw [← same] at isSector inCluster
      dsimp only
      rw [dirNext]
      dsimp only
      rw [if_neg room, if_neg (by omega)]
      exact ⟨sound, ⟨rfl, rfl, rfl⟩, .next (nextEntry_at stands inTable isSector inCluster)⟩
  · have room : dp.sect = 0 ∨ maxDir ≤ dp.dptr + 32 := by
      unfold maxDir at few ⊢
      omega
    dsimp only
    rw [dirNext]
    dsimp only
    rw [if_pos room]
    exact ⟨sound, ⟨rfl, rfl, rfl⟩, .full (by omega) (by omega)⟩

/-- The loop of `dir_sdi` stops in the cluster that has the offset, or the drive has
failed. -/
theorem sdiLoop_spec (serves : drive.Serves image limit Ready) (fits : mount.Fits image)
    (sound : fs.Sound image Ready mount) {chain : Chain mount image}
    {passes ofs i clst position : Nat}
    (enough : ofs ≤ passes) (isNth : chain.clusters[i]? = some clst)
    (total : mount.csize * 512 * i + ofs = position)
    (inside : position < mount.csize * 512 * chain.clusters.length) :
    let sought := sdiLoop drive (mount.csize * 512) passes ofs clst fs
    sought.2.2.2.Sound image Ready mount ∧
      (sought.1 = .ok ∧
          (∃ last, chain.clusters[last]? = some sought.2.2.1 ∧
            sought.2.1 < mount.csize * 512 ∧
            mount.csize * 512 * last + sought.2.1 = position) ∨
        sought.1 = .diskErr ∧ ¬ drive.Unfailing image limit Ready) := by
  have whole : 0 < mount.csize * 512 := Nat.mul_pos fits.csize_pos (by decide)
  induction passes generalizing ofs i clst fs with
  | zero => exact ⟨sound, .inl ⟨rfl, i, isNth, by dsimp only [sdiLoop]; omega, total⟩⟩
  | succ passes inductionHypothesis =>
      dsimp only
      rw [sdiLoop]
      by_cases arrived : ofs < mount.csize * 512
      · rw [if_pos arrived]
        exact ⟨sound, .inl ⟨rfl, i, isNth, arrived, total⟩⟩
      rw [if_neg arrived]
      have later : mount.csize * 512 * (i + 1) = mount.csize * 512 * i + mount.csize * 512 :=
        Nat.mul_succ _ _
      have isLater : i + 1 < chain.clusters.length :=
        Nat.lt_of_mul_lt_mul_left (a := mount.csize * 512) (by omega)
      obtain ⟨next, isNext⟩ : ∃ next, chain.clusters[i + 1]? = some next :=
        ⟨_, List.getElem?_eq_getElem isLater⟩
      have isCluster := Chain.isCluster isNth
      have nextFirst := (Chain.isCluster isNext).first
      have nextLast := (Chain.isCluster isNext).last
      have few := fits.count
      have entry := getFat_answers serves fits sound isCluster.first isCluster.last
      rw [Chain.next_eq isNth isNext] at entry
      dsimp only
      generalize getFat drive clst fs = answer at entry ⊢
      obtain ⟨value, fs⟩ := answer
      obtain ⟨sound, rfl | ⟨rfl, failing⟩⟩ := entry
      · dsimp only
        rw [if_neg (by omega), sound.mounted, if_neg (by omega)]
        exact inductionHypothesis sound (by omega) isNext (by omega)
      · exact ⟨sound, .inr ⟨rfl, failing⟩⟩

/-- What `dir_sdi` leaves: the object at the entry, or the drive has failed. -/
def Sets (drive : Drive Disk) (limit : Nat) (Ready : Disk → Prop) (table : Table mount image)
    (k : Nat) (dp : Dir) (set : FResult × Dir × FatFs Disk) : Prop :=
  set.2.2.Sound image Ready mount ∧ dp.Moved set.2.1 ∧
    (set.1 = .ok ∧ set.2.1.At table k ∨ set.1 = .diskErr ∧ ¬ drive.Unfailing image limit Ready)

theorem Sets.of_moved {start : Dir} (same : dp.Moved start) {set : FResult × Dir × FatFs Disk}
    (sets : Sets drive limit Ready table k start set) : Sets drive limit Ready table k dp set :=
  ⟨sets.1, same.trans sets.2.1, sets.2.2⟩

/-- The end of `dir_sdi`, at an offset from a sector of the table. -/
theorem sdiEntry_spec (fits : mount.Fits image) (sound : fs.Sound image Ready mount)
    {sect ofs clst : Nat} (inside : k < table.count) (dptr : dp.dptr = 32 * k) (positive : 0 < sect)
    (isSector : table.sectors[k / 16]? = some (sect + ofs / 512))
    (offset : ofs % 512 = 32 * (k % 16)) (inCluster : table.InCluster (k / 16) clst) :
    Sets drive limit Ready table k dp (sdiEntry sect ofs clst dp fs) := by
  have onDrive := (Table.sector_inside fits (List.mem_of_getElem? isSector)).2
  have below := image.size_lt
  have number : dword (sect + ofs / 512) = sect + ofs / 512 := dword_of_lt (by omega)
  rw [sdiEntry]
  dsimp only
  rw [if_neg (by omega), number]
  exact ⟨sound, ⟨rfl, rfl, rfl⟩, .inl ⟨rfl, inside, dptr, isSector, offset, inCluster⟩⟩

/-- `dir_sdi` on a chain, from its first cluster. -/
theorem sdiChain_spec (serves : drive.Serves image limit Ready) (fits : mount.Fits image)
    (sound : fs.Sound image Ready mount) {chain : Chain mount image} {first ofs : Nat}
    {isFirst : chain.clusters[0]? = some first}
    {ended : ∀ last, chain.clusters.getLast? = some last → mount.nFatent ≤ mount.next image last}
    (inside : k < (Table.dynamic chain first isFirst ended).count) (position : ofs = 32 * k)
    (dptr : dp.dptr = 32 * k) :
    let sought := sdiLoop drive (mount.csize * 512) ofs ofs first fs
    Sets drive limit Ready (.dynamic chain first isFirst ended) k dp
      (if sought.1 ≠ .ok then (sought.1, dp, sought.2.2.2)
      else sdiEntry (clst2sect sought.2.2.2.mount sought.2.2.1) sought.2.1 sought.2.2.1 dp
        sought.2.2.2) := by
  have bound : k < min (16 * chain.sectors.length) (maxDir / 32) := inside
  rw [Chain.length_sectors] at bound
  have blocks (count : Nat) : mount.csize * 512 * count = 512 * (mount.csize * count) := by
    rw [Nat.mul_comm mount.csize, Nat.mul_assoc]
  have start : mount.csize * 512 * 0 + ofs = ofs := by rw [Nat.mul_zero, Nat.zero_add]
  have loop := sdiLoop_spec serves fits sound (Nat.le_refl ofs) isFirst start
    (by rw [blocks]; omega)
  dsimp only at loop ⊢
  generalize sdiLoop drive (mount.csize * 512) ofs ofs first fs = result at loop ⊢
  obtain ⟨res, rest, clst, fs⟩ := result
  dsimp only at loop ⊢
  obtain ⟨sound, ⟨rfl, last, isLast, short, total⟩ | ⟨rfl, failing⟩⟩ := loop
  · have isCluster := Chain.isCluster isLast
    have placed := (fits.firstSector_inside isCluster).1
    have inCluster : rest / 512 < mount.csize := by omega
    rw [blocks] at total
    have index : k / 16 = mount.csize * last + rest / 512 := by omega
    have isSector := Chain.sector_eq isLast inCluster
    have atCluster : chain.clusters[k / 16 / mount.csize]? = some clst := by
      rw [index, Nat.mul_add_div fits.csize_pos, Nat.div_eq_of_lt inCluster, Nat.add_zero, isLast]
    rw [← index] at isSector
    rw [if_neg (by decide), sound.mounted, fits.clst2sect_eq isCluster]
    exact sdiEntry_spec fits sound inside dptr placed isSector (by omega) atCluster
  · rw [if_pos (by decide)]
    exact ⟨sound, ⟨rfl, rfl, rfl⟩, .inr ⟨rfl, failing⟩⟩

/-- `dir_sdi` sets the object to any entry of the table, or the drive has failed. -/
theorem dirSdi_spec (serves : drive.Serves image limit Ready) (fits : mount.Fits image)
    (sound : fs.Sound image Ready mount) (dp : Dir) (opens : table.Opens dp.obj.sclust)
    (inside : k < table.count) {ofs : Nat} (position : ofs = 32 * k) :
    Sets drive limit Ready table k dp (dirSdi drive ofs dp fs) := by
  have most : table.count ≤ maxDir / 32 := Nat.min_le_right _ _
  have room : ¬ (maxDir ≤ ofs ∨ ofs % 32 ≠ 0) := by omega
  have opened : (if dp.obj.sclust = 0 ∧ mount.fsType = .fat32 then mount.dirbase
      else dp.obj.sclust) = table.start := opens
  have same : dp.Moved { dp with dptr := ofs } := ⟨rfl, rfl, rfl⟩
  refine Sets.of_moved same ?_
  rw [dirSdi]
  dsimp only
  rw [if_neg room, sound.mounted, opened]
  cases table with
  | static type =>
      obtain ⟨base, positive, small, aligned, last⟩ := fits.rootdir type
      have starts : (Table.static type : Table mount image).start = 0 := rfl
      have bound : k < min (16 * (List.range' mount.dirbase (mount.nRootdir / 16)).length)
        (maxDir / 32) := inside
      rw [List.length_range'] at bound
      have sector : ofs / 512 = k / 16 := by omega
      have isSector : (List.range' mount.dirbase (mount.nRootdir / 16))[k / 16]? =
          some (mount.dirbase + ofs / 512) := by
        rw [List.getElem?_range' (by omega), Nat.one_mul, sector]
      rw [starts, if_pos rfl, if_neg (by omega)]
      exact sdiEntry_spec fits sound inside position base isSector (by omega) rfl
  | dynamic chain first isFirst ended =>
      have starts : (Table.dynamic chain first isFirst ended).start = first := rfl
      have hasCluster := (Chain.isCluster isFirst).first
      have notStatic : ¬ first = 0 := by omega
      rw [starts, if_neg notStatic]
      exact sdiChain_spec serves fits sound inside position position

end DDSFunctionGen.Fat
