import DDSFunctionGen.Fat.Chain
import DDSFunctionGen.Fat.FileObject

/-!
# Reading a file

A file object that stands at a position of a file gives the file's bytes from there,
in passes that each take a part of one sector or whole sectors of one cluster.
-/

namespace DDSFunctionGen.Fat

open DDSFunctionGen.Sequences

variable {Disk : Type} {drive : Drive Disk} {image : Image} {limit : Nat} {Ready : Disk → Prop}
  {mount : Mount} {fs : FatFs Disk} {file : File mount image} {fp : Fil}

/-- A file object open on a file, which stands at `fptr`. The cluster is that of the byte
before; the buffer holds the sector it is marked with, which is the current one unless
the position is a sector boundary. -/
structure Fil.At (file : File mount image) (fp : Fil) : Prop where
  opened : fp.obj.fs = true
  id : fp.obj.id = mount.id
  flag : fp.flag &&& faRead ≠ 0
  err : fp.err = .ok
  objsize : fp.obj.objsize = file.size
  sclust : ∀ clst, file.clusters[0]? = some clst → fp.obj.sclust = clst
  inside : fp.fptr ≤ file.size
  clust : 0 < fp.fptr → file.clusters[(fp.fptr - 1) / 512 / mount.csize]? = some fp.clust
  cached : fp.sect ≠ 0 → fp.buf = image.sector fp.sect
  sect : fp.fptr % 512 ≠ 0 → file.sectors[fp.fptr / 512]? = some fp.sect

/-- The file of the volume with a directory, opened. -/
def treeFp (id : Nat) (content : List UInt8) : Fil where
  obj := { fs := true, id, attr := 0x20, sclust := 341, objsize := content.length }
  flag := faRead

theorem treeFp_at (id : Nat) {content : List UInt8} (short : content.length ≤ 1024) :
    (treeFp id content).At (File.tree id content short) where
  opened := rfl
  id := rfl
  flag := (by decide : faRead &&& faRead ≠ 0)
  err := rfl
  objsize := rfl
  sclust clst first := Option.some.inj first
  inside := Nat.zero_le _
  clust moved := absurd moved (Nat.lt_irrefl 0)
  cached marked := absurd rfl marked
  sect inSector := absurd rfl inSector

/-- The cluster of the sector before a sector. -/
theorem cluster_before (csize j : Nat) (positive : 0 < j) :
    (512 * j - 1) / 512 / csize = if j % csize = 0 then j / csize - 1 else j / csize := by
  obtain ⟨before, rfl⟩ := Nat.exists_eq_add_of_lt positive
  have sector : (512 * (0 + before + 1) - 1) / 512 = before := by omega
  rw [sector, Nat.zero_add, Nat.succ_div]
  by_cases boundary : csize ∣ before + 1
  · rw [if_pos boundary, if_pos (Nat.mod_eq_zero_of_dvd boundary), Nat.add_sub_cancel]
  · have other : ¬ (before + 1) % csize = 0 := fun zero => boundary (Nat.dvd_of_mod_eq_zero zero)
    rw [if_neg boundary, if_neg other, Nat.add_zero]

/-- A mask of ones takes the offset in the cluster. -/
theorem Mount.Fits.csect_eq (fits : mount.Fits image) (j : Nat) :
    j &&& (mount.csize - 1) = j % mount.csize := by
  obtain ⟨exponent, -, power⟩ := fits.csize
  rw [power, Nat.and_two_pow_sub_one_eq_mod]

/-- The sectors of a chain are sectors of the drive, and none is sector 0. -/
theorem Chain.sector_inside (fits : mount.Fits image) {chain : Chain mount image} {sector : Nat}
    (isSector : sector ∈ chain.sectors) : 0 < sector ∧ sector < image.size := by
  obtain ⟨cluster, isCluster, member⟩ := List.mem_flatten.mp isSector
  obtain ⟨clst, inChain, rfl⟩ := List.mem_map.mp isCluster
  have inside := fits.firstSector_inside (chain.areClusters clst inChain)
  rw [Mount.clusterSectors, List.mem_range'_1] at member
  omega

/-- The buffer is filled with a sector, or the drive has failed. -/
theorem fillCache_spec (serves : drive.Serves image limit Ready)
    (sound : fs.Sound image Ready mount) (fp : Fil)
    (cached : fp.sect ≠ 0 → fp.buf = image.sector fp.sect)
    {sector : Nat} (positive : 0 < sector) (inside : sector < image.size) :
    (fillCache drive sector fp fs).2.2.Sound image Ready mount ∧
      ((fillCache drive sector fp fs).1 = .ok ∧
          (fillCache drive sector fp fs).2.1 =
            { fp with buf := image.sector sector, sect := sector } ∨
        (fillCache drive sector fp fs).1 = .diskErr ∧ (fillCache drive sector fp fs).2.1 = fp ∧
          ¬ drive.Unfailing image limit Ready) := by
  by_cases held : fp.sect = sector
  · have holds := cached (by omega)
    rw [fillCache, if_neg (by simp [held])]
    refine ⟨sound, .inl ⟨rfl, ?_⟩⟩
    rw [← held, ← holds]
  have within := serves.within_one inside
  have ready := serves.ready fs.pdrv sector 1 sound.ready within
  have answer := serves.read sound.ready within
  rw [Image.sectors_one] at answer
  rw [fillCache, if_pos held]
  generalize drive.diskRead sector 1 fs.pdrv = result at ready answer
  obtain ⟨bytes, pdrv⟩ := result
  rcases answer with rfl | ⟨rfl, failing⟩
  · exact ⟨sound.pdrv ready, .inl ⟨rfl, rfl⟩⟩
  · exact ⟨sound.pdrv ready, .inr ⟨rfl, rfl, failing⟩⟩

/-- On a cluster boundary before the end of the file the object moves to the cluster
there, or the drive has failed. -/
theorem enterCluster_spec (serves : drive.Serves image limit Ready) (fits : mount.Fits image)
    (sound : fs.Sound image Ready mount) (cursor : fp.At file) {i clst : Nat}
    (boundary : fp.fptr = 512 * (mount.csize * i)) (isNth : file.clusters[i]? = some clst) :
    (enterCluster drive fp fs).2.2.Sound image Ready mount ∧
      ((enterCluster drive fp fs).1 = .ok ∧
          (enterCluster drive fp fs).2.1 = { fp with clust := clst } ∨
        (enterCluster drive fp fs).1 = .diskErr ∧ (enterCluster drive fp fs).2.1 = fp ∧
          ¬ drive.Unfailing image limit Ready) := by
  have isCluster := Chain.isCluster isNth
  have first := isCluster.first
  have last := isCluster.last
  have few := fits.count
  have notFew : ¬ clst < 2 := by omega
  have notMark : ¬ clst = 0xFFFFFFFF := by omega
  unfold enterCluster
  by_cases start : fp.fptr = 0
  · have zero : i = 0 := by
      have positive := fits.csize_pos
      rcases Nat.eq_zero_or_pos i with zero | later
      · exact zero
      · have := Nat.mul_pos positive later
        omega
    subst zero
    rw [if_pos start, cursor.sclust clst isNth]
    dsimp only
    rw [if_neg notFew, if_neg notMark]
    exact ⟨sound, .inl ⟨rfl, rfl⟩⟩
  -- the table links the cluster before the boundary to the one behind it
  have later : 0 < mount.csize * i := by omega
  have before := cursor.clust (by omega)
  rw [boundary, cluster_before mount.csize _ later, if_pos (Nat.mul_mod_right _ _),
    Nat.mul_div_cancel_left _ fits.csize_pos] at before
  have positive : 0 < i := Nat.pos_of_mul_pos_left later
  have link := Chain.next_eq before (by rwa [Nat.sub_add_cancel positive])
  have previous := Chain.isCluster before
  obtain ⟨stillSound, value⟩ := getFat_answers serves fits sound previous.first previous.last
  rw [if_neg start, link] at *
  generalize getFat drive fp.clust fs = answer at stillSound value
  obtain ⟨number, fs⟩ := answer
  rcases value with rfl | ⟨rfl, failing⟩
  · dsimp only
    rw [if_neg notFew, if_neg notMark]
    exact ⟨stillSound, .inl ⟨rfl, rfl⟩⟩
  · exact ⟨stillSound, .inr ⟨rfl, rfl, failing⟩⟩

/-- The first step of a pass on a sector boundary leaves the object in the cluster of the
sector there, or the drive has failed. -/
theorem boundary_spec (serves : drive.Serves image limit Ready) (fits : mount.Fits image)
    (sound : fs.Sound image Ready mount) (cursor : fp.At file) {j clst : Nat}
    (boundary : fp.fptr = 512 * j) (isNth : file.clusters[j / mount.csize]? = some clst) :
    let entered := if j % mount.csize = 0 then enterCluster drive fp fs else (.ok, fp, fs)
    entered.2.2.Sound image Ready mount ∧
      (entered.1 = .ok ∧ entered.2.1 = { fp with clust := clst } ∨
        entered.1 = .diskErr ∧ entered.2.1 = fp ∧ ¬ drive.Unfailing image limit Ready) := by
  dsimp only
  split
  · rename_i start
    refine enterCluster_spec serves fits sound cursor ?_ isNth
    rw [Nat.mul_div_cancel' (Nat.dvd_of_mod_eq_zero start), boundary]
  · rename_i within
    have positive : 0 < j := by
      rcases Nat.eq_zero_or_pos j with rfl | positive
      · exact absurd (Nat.zero_mod _) within
      · exact positive
    have current := cursor.clust (by omega)
    rw [boundary, cluster_before _ _ positive, if_neg within, isNth] at current
    refine ⟨sound, .inl ⟨rfl, ?_⟩⟩
    rw [Option.some.inj current]

/-- What a pass leaves that has stored bytes: they are the file's, and with the position
moved behind them the object stands there. -/
structure Passed (file : File mount image) (btr : Nat) (fp : Fil) (bytes : List UInt8)
    (after : Fil) : Prop where
  progress : 0 < bytes.length
  most : bytes.length ≤ btr
  stored : bytes = (file.content.drop fp.fptr).take bytes.length
  same : after.fptr = fp.fptr
  cursor : ({ after with fptr := fp.fptr + bytes.length } : Fil).At file

/-- A pass that copies from the buffer. -/
theorem extractPartial_spec (cursor : fp.At file) {btr : Nat} (positive : 0 < btr)
    (inside : fp.fptr + btr ≤ file.size) {clst sector : Nat}
    (isNth : file.clusters[fp.fptr / 512 / mount.csize]? = some clst)
    (isSector : file.sectors[fp.fptr / 512]? = some sector) :
    let loaded : Fil := { fp with clust := clst, sect := sector, buf := image.sector sector }
    Passed file btr fp (extractPartial btr loaded) loaded := by
  intro loaded
  let rcnt := if btr < 512 - fp.fptr % 512 then btr else 512 - fp.fptr % 512
  have bounds : 0 < rcnt ∧ rcnt ≤ btr ∧ fp.fptr % 512 + rcnt ≤ 512 := by
    have small := Nat.mod_lt fp.fptr (by decide : 512 > 0)
    dsimp only [rcnt]
    split <;> omega
  obtain ⟨someBytes, most, inSector⟩ := bounds
  have part := Chain.bytes_within isSector inSector
  rw [Nat.div_add_mod] at part
  have bytes : extractPartial btr loaded = (file.content.drop fp.fptr).take rcnt := by
    rw [File.content_within (by omega), part]
    rfl
  have length : (extractPartial btr loaded).length = rcnt := by
    rw [bytes, List.length_take, List.length_drop, File.length_content]
    omega
  refine ⟨length ▸ someBytes, length ▸ most, by rw [length, bytes], rfl, ?_⟩
  rw [length]
  have last : (fp.fptr + rcnt - 1) / 512 = fp.fptr / 512 := by omega
  refine { cursor with inside := ?_, clust := ?_, cached := ?_, sect := ?_ }
  · exact (Nat.add_le_add_left most fp.fptr).trans inside
  · intro _
    rw [last]
    exact isNth
  · exact fun _ => rfl
  · intro within
    have same : (fp.fptr + rcnt) / 512 = fp.fptr / 512 := by
      have : (fp.fptr + rcnt) % 512 ≠ 0 := within
      omega
    change file.sectors[(fp.fptr + rcnt) / 512]? = some sector
    rw [same, isSector]

/-- A pass that reads whole sectors of one cluster directly. -/
theorem direct_spec (cursor : fp.At file) {btr i csect cc clst : Nat}
    (boundary : fp.fptr = 512 * (mount.csize * i + csect)) (positive : 0 < cc)
    (most : 512 * cc ≤ btr) (inside : fp.fptr + btr ≤ file.size)
    (isNth : file.clusters[i]? = some clst) (inCluster : csect + cc ≤ mount.csize) :
    Passed file btr fp (image.sectors (mount.firstSector clst + csect) cc)
      { fp with clust := clst } := by
  have bytes : image.sectors (mount.firstSector clst + csect) cc =
      (file.content.drop fp.fptr).take (512 * cc) := by
    rw [File.content_within (by omega), boundary, Chain.bytes_sectors isNth inCluster]
  have length : (image.sectors (mount.firstSector clst + csect) cc).length = 512 * cc := by
    rw [bytes, List.length_take, List.length_drop, File.length_content]
    omega
  refine ⟨by omega, by omega, by rw [length, bytes], rfl, ?_⟩
  rw [length]
  refine { cursor with inside := ?_, clust := ?_, sect := ?_ }
  · exact (Nat.add_le_add_left most fp.fptr).trans inside
  · intro _
    have sector : (fp.fptr + 512 * cc - 1) / 512 = mount.csize * i + (csect + cc - 1) := by omega
    have index : (mount.csize * i + (csect + cc - 1)) / mount.csize = i := by
      rw [Nat.mul_add_div (by omega), Nat.div_eq_of_lt (by omega), Nat.add_zero]
    change file.clusters[(fp.fptr + 512 * cc - 1) / 512 / mount.csize]? = some clst
    rw [sector, index, isNth]
  · intro within
    have whole : (fp.fptr + 512 * cc) % 512 = 0 := by omega
    exact absurd whole within

/-- The whole sectors of a read, between its first sector boundary and its last. -/
def wholeSectors (fptr btr : Nat) : Nat := (fptr + btr) / 512 - (fptr + 511) / 512

theorem wholeSectors_boundary (j btr : Nat) : wholeSectors (512 * j) btr = btr / 512 := by
  unfold wholeSectors
  omega

/-- What remains of a read has no more of them. -/
theorem wholeSectors_rest (fptr : Nat) {done btr : Nat} (most : done ≤ btr) :
    wholeSectors (fptr + done) (btr - done) ≤ wholeSectors fptr btr := by
  unfold wholeSectors
  omega

/-- What an operation leaves that the drive has failed: the error, nothing stored, the
object still that of the file. -/
structure Failed (drive : Drive Disk) (image : Image) (limit : Nat) (Ready : Disk → Prop)
    (obj : ObjId) (res : FResult) (after : Fil) : Prop where
  diskErr : res = .diskErr
  same : after.obj = obj
  failing : ¬ drive.Unfailing image limit Ready

/-- On a sector boundary a pass reads whole sectors directly while there are any to read,
and else fills the buffer. -/
theorem readPass_boundary (serves : drive.Serves image limit Ready) (fits : mount.Fits image)
    (sound : fs.Sound image Ready mount) (cursor : fp.At file) {btr : Nat} (positive : 0 < btr)
    (inside : fp.fptr + btr ≤ file.size) (short : min (btr / 512) mount.csize ≤ limit)
    {j clst : Nat} (boundary : fp.fptr = 512 * j)
    (isNth : file.clusters[j / mount.csize]? = some clst) :
    let pass := readPass drive btr fp fs
    pass.2.2.2.Sound image Ready mount ∧
      (pass.1 = .ok ∧ Passed file btr fp pass.2.1 pass.2.2.1 ∨
        pass.2.1 = [] ∧ Failed drive image limit Ready fp.obj pass.1 pass.2.2.1) := by
  have whole : fp.fptr % 512 = 0 := by omega
  have sectorOf : fp.fptr / 512 = j := by omega
  have inCluster : j % mount.csize < mount.csize := Nat.mod_lt j fits.csize_pos
  have split := Nat.div_add_mod j mount.csize
  have first := fits.firstSector_inside (Chain.isCluster isNth)
  have below := image.size_lt
  have entered := boundary_spec serves fits sound cursor boundary isNth
  dsimp only at entered ⊢
  rw [readPass, if_pos whole]
  dsimp only
  rw [sound.mounted, sectorOf, fits.csect_eq j]
  generalize (if j % mount.csize = 0 then enterCluster drive fp fs else (.ok, fp, fs)) = result
    at entered ⊢
  obtain ⟨res, entering, fs⟩ := result
  dsimp only at entered ⊢
  obtain ⟨sound, ⟨rfl, rfl⟩ | ⟨rfl, rfl, failing⟩⟩ := entered
  · have found : clst2sect fs.mount clst = mount.firstSector clst := by
      rw [sound.mounted, fits.clst2sect_eq (Chain.isCluster isNth)]
    have number : dword (mount.firstSector clst + j % mount.csize) =
        mount.firstSector clst + j % mount.csize := dword_of_lt (by omega)
    rw [if_neg (by decide), found, if_neg (by omega), number]
    split
    · rename_i wholeSectors
      generalize isClipped : (if mount.csize < j % mount.csize + btr / 512 then
        mount.csize - j % mount.csize else btr / 512) = cc
      have clipped : 0 < cc ∧ j % mount.csize + cc ≤ mount.csize ∧ cc ≤ btr / 512 := by
        split at isClipped <;> omega
      obtain ⟨progress, clip, most⟩ := clipped
      have within : Drive.Within image limit (mount.firstSector clst + j % mount.csize) cc :=
        ⟨progress, (Nat.le_min.mpr ⟨most, by omega⟩).trans short, by omega⟩
      have ready := serves.ready fs.pdrv _ _ sound.ready within
      have answer := serves.read sound.ready within
      have passed :=
        direct_spec cursor (by rw [split, boundary]) progress (by omega) inside isNth clip
      generalize drive.diskRead (mount.firstSector clst + j % mount.csize) cc fs.pdrv = result
        at ready answer ⊢
      obtain ⟨bytes, pdrv⟩ := result
      rcases answer with rfl | ⟨rfl, failing⟩
      · exact ⟨sound.pdrv ready, .inl ⟨rfl, passed⟩⟩
      · exact ⟨sound.pdrv ready, .inr ⟨rfl, rfl, rfl, failing⟩⟩
    · have isSector := Chain.sector_eq isNth inCluster
      rw [split] at isSector
      rw [← sectorOf] at isNth
      have passed := extractPartial_spec cursor positive inside isNth (by rwa [sectorOf])
      have filled := fillCache_spec serves sound { fp with clust := clst } cursor.cached
        (by omega : 0 < mount.firstSector clst + j % mount.csize) (by omega)
      generalize fillCache drive (mount.firstSector clst + j % mount.csize)
        { fp with clust := clst } fs = result at filled ⊢
      obtain ⟨res, filledObject, fs⟩ := result
      dsimp only at filled ⊢
      obtain ⟨sound, ⟨rfl, rfl⟩ | ⟨rfl, rfl, failing⟩⟩ := filled
      · rw [if_neg (by decide)]
        exact ⟨sound, .inl ⟨rfl, passed⟩⟩
      · rw [if_pos (by decide)]
        exact ⟨sound, .inr ⟨rfl, rfl, rfl, failing⟩⟩
  · rw [if_pos (by decide)]
    exact ⟨sound, .inr ⟨rfl, rfl, rfl, failing⟩⟩

/-- A pass stores the file's bytes at the position, or the drive has failed. -/
theorem readPass_spec (serves : drive.Serves image limit Ready) (fits : mount.Fits image)
    (sound : fs.Sound image Ready mount) (cursor : fp.At file) {btr : Nat} (positive : 0 < btr)
    (inside : fp.fptr + btr ≤ file.size)
    (short : min (wholeSectors fp.fptr btr) mount.csize ≤ limit) :
    let pass := readPass drive btr fp fs
    pass.2.2.2.Sound image Ready mount ∧
      (pass.1 = .ok ∧ Passed file btr fp pass.2.1 pass.2.2.1 ∨
        pass.2.1 = [] ∧ Failed drive image limit Ready fp.obj pass.1 pass.2.2.1) := by
  obtain ⟨clst, isNth⟩ := File.cluster_at (by omega : fp.fptr < file.size)
  intro pass
  by_cases boundary : fp.fptr % 512 = 0
  · have aligned : fp.fptr = 512 * (fp.fptr / 512) := by omega
    rw [aligned, wholeSectors_boundary] at short
    exact readPass_boundary serves fits sound cursor positive inside short aligned isNth
  · have isSector := cursor.sect boundary
    have numbered := Chain.sector_inside fits (List.mem_of_getElem? isSector)
    have holds := cursor.cached (by omega)
    have current := cursor.clust (by omega)
    have index : (fp.fptr - 1) / 512 = fp.fptr / 512 := by omega
    rw [index] at current
    have passed := extractPartial_spec cursor positive inside current isSector
    dsimp only [pass]
    rw [readPass, if_neg boundary]
    rw [← holds] at passed
    exact ⟨sound, .inl ⟨rfl, passed⟩⟩

/-- What an operation leaves that was aborted: the error, which the object keeps. -/
structure Aborted (drive : Drive Disk) (image : Image) (limit : Nat) (Ready : Disk → Prop)
    (mount : Mount) (res : FResult) (after : Fil) : Prop where
  diskErr : res = .diskErr
  err : after.err = .diskErr
  opened : after.obj.fs = true
  id : after.obj.id = mount.id
  failing : ¬ drive.Unfailing image limit Ready

/-- The passes store all the bytes asked for, or as many of them as came before the drive
failed. -/
theorem readLoop_spec (serves : drive.Serves image limit Ready) (fits : mount.Fits image)
    (sound : fs.Sound image Ready mount) (cursor : fp.At file) {passes btr : Nat}
    (enough : btr ≤ passes) (inside : fp.fptr + btr ≤ file.size)
    (short : min (wholeSectors fp.fptr btr) mount.csize ≤ limit) :
    let read := readLoop drive passes btr fp fs
    read.2.2.2.Sound image Ready mount ∧
      (read.1 = .ok ∧ read.2.1 = (file.content.drop fp.fptr).take btr ∧ read.2.2.1.At file ∧
          read.2.2.1.fptr = fp.fptr + btr ∨
        read.2.1 <+: (file.content.drop fp.fptr).take btr ∧
          Aborted drive image limit Ready mount read.1 read.2.2.1) := by
  induction passes generalizing btr fp fs with
  | zero =>
      obtain rfl : btr = 0 := by omega
      exact ⟨sound, .inl ⟨rfl, rfl, cursor, rfl⟩⟩
  | succ passes inductionHypothesis =>
      dsimp only
      rw [readLoop]
      by_cases done : btr = 0
      · subst done
        rw [if_pos rfl]
        exact ⟨sound, .inl ⟨rfl, rfl, cursor, rfl⟩⟩
      rw [if_neg done]
      have pass := readPass_spec serves fits sound cursor (Nat.pos_of_ne_zero done) inside short
      generalize readPass drive btr fp fs = result at pass ⊢
      obtain ⟨res, bytes, after, fs⟩ := result
      dsimp only at pass ⊢
      obtain ⟨sound, ⟨rfl, passed⟩ | ⟨rfl, failed⟩⟩ := pass
      · have most := passed.most
        have progress := passed.progress
        have moved : after.fptr + bytes.length = fp.fptr + bytes.length := by rw [passed.same]
        have part : fp.fptr + bytes.length + (btr - bytes.length) = fp.fptr + btr := by omega
        have fewer := wholeSectors_rest fp.fptr most
        have rest := inductionHypothesis sound passed.cursor
          (by omega : btr - bytes.length ≤ passes) (part ▸ inside)
          ((min_le_min_right _ fewer).trans short)
        have whole : (file.content.drop fp.fptr).take btr =
            bytes ++ (file.content.drop (fp.fptr + bytes.length)).take (btr - bytes.length) := by
          rw [← List.drop_drop, ← Nat.add_sub_of_le most, List.take_add, ← passed.stored,
            Nat.add_sub_cancel_left]
        rw [if_neg (by decide), moved]
        generalize readLoop drive passes (btr - bytes.length)
          { after with fptr := fp.fptr + bytes.length } fs = result at rest ⊢
        obtain ⟨res, later, last, fs⟩ := result
        dsimp only at rest ⊢
        obtain ⟨sound, ⟨rfl, rfl, cursor, position⟩ | ⟨first, aborted⟩⟩ := rest
        · exact ⟨sound, .inl ⟨rfl, whole.symm, cursor, position.trans part⟩⟩
        · refine ⟨sound, .inr ⟨?_, aborted⟩⟩
          rw [whole]
          exact (List.prefix_append_right_inj bytes).mpr first
      · rw [failed.diskErr, if_pos (by decide)]
        have obj := failed.same
        exact ⟨sound, .inr ⟨List.nil_prefix, rfl, rfl, obj ▸ cursor.opened, obj ▸ cursor.id,
          failed.failing⟩⟩

/-- The object of an open file is valid on a ready drive. -/
theorem validate_ok (serves : drive.Serves image limit Ready) (fits : mount.Fits image)
    (sound : fs.Sound image Ready mount) {obj : ObjId} (opened : obj.fs = true)
    (id : obj.id = mount.id) : validate drive obj fs = .ok := by
  have valid : obj.fs = true ∧ fs.mount.fsType ≠ .none ∧ obj.id = fs.mount.id ∧
      drive.diskStatus fs.pdrv = true := by
    rw [sound.mounted]
    exact ⟨opened, fits.mounted, id, serves.status fs.pdrv sound.ready⟩
  rw [validate, if_pos valid]

/-- `f_read` stores the bytes that remain in the file, at most `btr`, and moves behind
them; where the drive fails it stores fewer, and the object keeps the error. -/
theorem fRead_spec (serves : drive.Serves image limit Ready) (fits : mount.Fits image)
    (sound : fs.Sound image Ready mount) (cursor : fp.At file) {btr : Nat}
    (short : min (wholeSectors fp.fptr (min btr (file.size - fp.fptr))) mount.csize ≤ limit) :
    let read := fRead drive btr fp fs
    read.2.2.2.Sound image Ready mount ∧
      (read.1 = .ok ∧ read.2.1 = (file.content.drop fp.fptr).take btr ∧ read.2.2.1.At file ∧
          read.2.2.1.fptr = fp.fptr + read.2.1.length ∨
        read.2.1 <+: (file.content.drop fp.fptr).take btr ∧
          Aborted drive image limit Ready mount read.1 read.2.2.1) := by
  have valid := validate_ok serves fits sound cursor.opened cursor.id
  have position := cursor.inside
  dsimp only
  rw [fRead, valid]
  dsimp only
  rw [if_neg (by decide), if_neg (by rw [cursor.err]; decide), if_neg cursor.flag, cursor.objsize]
  generalize isRest : (if file.size - fp.fptr < btr then file.size - fp.fptr else btr) = rest
  have truncated : rest = min btr (file.size - fp.fptr) := by
    split at isRest <;> omega
  rw [← truncated] at short
  have loop := readLoop_spec serves fits sound cursor (Nat.le_refl rest) (by omega) short
  have length : (file.content.drop fp.fptr).length = file.size - fp.fptr := by
    rw [List.length_drop, File.length_content]
  have remaining :
      (file.content.drop fp.fptr).take btr = (file.content.drop fp.fptr).take rest := by
    rw [truncated, ← length, List.take_eq_take_min]
  have count : ((file.content.drop fp.fptr).take rest).length = rest := by
    rw [List.length_take, length]
    omega
  dsimp only at loop
  obtain ⟨sound, ⟨succeeds, bytes, cursor, moved⟩ | aborted⟩ := loop
  · refine ⟨sound, .inl ⟨succeeds, bytes.trans remaining.symm, cursor, ?_⟩⟩
    rw [bytes, count, moved]
  · exact ⟨sound, .inr (remaining ▸ aborted)⟩

end DDSFunctionGen.Fat
