import DDSFunctionGen.Fat.ReadFile

/-!
# Seeking in a file

A seek follows the chain from the current cluster, or from the first one when the
target lies before, and stops in the cluster of the byte before the target.
-/

namespace DDSFunctionGen.Fat

variable {Disk : Type} {drive : Drive Disk} {image : Image} {limit : Nat} {Ready : Disk → Prop}
  {mount : Mount} {fs : FatFs Disk} {file : File mount image} {fp : Fil}

/-- A mask of zeros rounds a `DWORD` down to a multiple of a power of two. -/
theorem mask_eq {exponent x : Nat} (word : x < 2 ^ 32) :
    x &&& (0xFFFFFFFF ^^^ (2 ^ exponent - 1)) = 2 ^ exponent * (x / 2 ^ exponent) := by
  apply Nat.eq_of_testBit_eq
  intro bit
  have ones : Nat.testBit 0xFFFFFFFF bit = decide (bit < 32) := Nat.testBit_two_pow_sub_one 32 bit
  rw [Nat.testBit_and, Nat.testBit_xor, ones, Nat.testBit_two_pow_sub_one,
    Nat.testBit_two_pow_mul, Nat.testBit_div_two_pow]
  by_cases inWord : bit < 32
  · by_cases low : bit < exponent
    · simp [inWord, low, Nat.not_le.mpr low]
    · simp [inWord, low, Nat.le_of_not_lt low, Nat.sub_add_cancel (Nat.le_of_not_lt low)]
  · have above : x < 2 ^ bit := word.trans_le (Nat.pow_le_pow_right (by decide) (by omega))
    have clear : x.testBit bit = false := Nat.testBit_lt_two_pow above
    by_cases low : exponent ≤ bit
    · simp [clear, Nat.sub_add_cancel low]
    · simp [clear, low]

/-- The start of the cluster of a position. -/
theorem Mount.Fits.clusterStart_eq (fits : mount.Fits image) {x : Nat} (word : x < 2 ^ 32) :
    x &&& (0xFFFFFFFF ^^^ (mount.csize * 512 - 1)) =
      mount.csize * 512 * (x / (mount.csize * 512)) := by
  obtain ⟨exponent, -, power⟩ := fits.csize
  have product : mount.csize * 512 = 2 ^ (exponent + 9) := by
    rw [power, Nat.pow_add]
  rw [product, mask_eq word]

/-- The cluster a position lies in, in bytes and in sectors. -/
theorem cluster_index (csize position : Nat) :
    position / (csize * 512) = position / 512 / csize := by
  rw [Nat.div_div_eq_div_mul, Nat.mul_comm]

/-- The loop stops in the cluster that has the byte before the target, or the drive has
failed. -/
theorem seekLoop_spec (serves : drive.Serves image limit Ready) (fits : mount.Fits image)
    (sound : fs.Sound image Ready mount) {passes ofs i clst : Nat} (enough : ofs ≤ passes)
    (isNth : file.clusters[i]? = some clst) (current : fp.clust = clst)
    (start : fp.fptr = mount.csize * 512 * i) (positive : 0 < ofs)
    (inside : mount.csize * 512 * i + ofs ≤ file.size) :
    let sought := seekLoop drive (mount.csize * 512) passes ofs clst fp fs
    sought.2.2.2.2.Sound image Ready mount ∧
      (sought.1 = .ok ∧
          (∃ last, file.clusters[last]? = some sought.2.2.1 ∧
            0 < sought.2.1 ∧ sought.2.1 ≤ mount.csize * 512 ∧
            mount.csize * 512 * last + sought.2.1 = mount.csize * 512 * i + ofs ∧
            sought.2.2.2.1 =
              { fp with fptr := mount.csize * 512 * last, clust := sought.2.2.1 }) ∨
        Failed drive image limit Ready fp.obj sought.1 sought.2.2.2.1) := by
  have whole : 0 < mount.csize * 512 := Nat.mul_pos fits.csize_pos (by decide)
  induction passes generalizing ofs i clst fp fs with
  | zero => omega
  | succ passes inductionHypothesis =>
      dsimp only
      rw [seekLoop]
      by_cases arrived : ofs ≤ mount.csize * 512
      · rw [if_pos arrived]
        refine ⟨sound, .inl ⟨rfl, i, isNth, positive, arrived, rfl, ?_⟩⟩
        rw [← start, ← current]
      rw [if_neg arrived]
      have later : mount.csize * 512 * (i + 1) = mount.csize * 512 * i + mount.csize * 512 :=
        Nat.mul_succ _ _
      obtain ⟨next, isNext⟩ := File.cluster_at
        (by omega : mount.csize * 512 * (i + 1) < file.size)
      rw [← cluster_index, Nat.mul_div_cancel_left _ whole] at isNext
      have isCluster := Chain.isCluster isNth
      have nextIsCluster := Chain.isCluster isNext
      have nextFirst := nextIsCluster.first
      have nextLast := nextIsCluster.last
      have few := fits.count
      have entry := getFat_answers serves fits sound isCluster.first isCluster.last
      rw [Chain.next_eq isNth isNext] at entry
      dsimp only
      generalize getFat drive clst fs = answer at entry ⊢
      obtain ⟨value, fs⟩ := answer
      obtain ⟨sound, rfl | ⟨rfl, failing⟩⟩ := entry
      · dsimp only
        rw [if_neg (by omega), sound.mounted, if_neg (by omega)]
        have onward := @inductionHypothesis fs
          { fp with fptr := fp.fptr + mount.csize * 512, clust := value } sound
          (ofs - mount.csize * 512) (i + 1) value (by omega) isNext rfl
          (by rw [later, ← start]) (by omega) (by omega)
        have total : mount.csize * 512 * (i + 1) + (ofs - mount.csize * 512) =
            mount.csize * 512 * i + ofs := by omega
        rw [total] at onward
        exact onward
      · exact ⟨sound, .inr ⟨rfl, rfl, failing⟩⟩

/-- From the start of a cluster the seek reaches every target behind it, or the drive has
failed. -/
theorem seekFrom_spec (serves : drive.Serves image limit Ready) (fits : mount.Fits image)
    (sound : fs.Sound image Ready mount) (fp : Fil) {ofs i clst target : Nat}
    (isNth : file.clusters[i]? = some clst) (current : fp.clust = clst)
    (start : fp.fptr = mount.csize * 512 * i) (positive : 0 < ofs)
    (total : mount.csize * 512 * i + ofs = target) (inside : target ≤ file.size) :
    let sought := seekFrom drive ofs clst fp fs
    sought.2.2.2.Sound image Ready mount ∧
      (sought.1 = .ok ∧
          (∃ later, file.clusters[(target - 1) / 512 / mount.csize]? = some later ∧
            sought.2.2.1 = { fp with fptr := target, clust := later } ∧
            (target % 512 ≠ 0 → file.sectors[target / 512]? = some sought.2.1)) ∨
        Failed drive image limit Ready fp.obj sought.1 sought.2.2.1) := by
  have isCluster := (Chain.isCluster isNth).first
  have loop := seekLoop_spec serves fits sound (Nat.le_refl ofs) isNth current start positive
    (total ▸ inside)
  dsimp only
  rw [seekFrom]
  dsimp only
  rw [if_neg (by omega), sound.mounted]
  generalize seekLoop drive (mount.csize * 512) ofs ofs clst fp fs = result at loop ⊢
  obtain ⟨res, rest, later, sought, fs⟩ := result
  dsimp only at loop ⊢
  obtain ⟨sound, ⟨rfl, last, isLast, progress, most, same, rfl⟩ | failed⟩ := loop
  · rw [total] at same
    have whole : 0 < mount.csize * 512 := Nat.mul_pos fits.csize_pos (by decide)
    have index : (target - 1) / 512 / mount.csize = last := by
      rw [← cluster_index, show target - 1 = mount.csize * 512 * last + (rest - 1) by omega,
        Nat.mul_add_div whole, Nat.div_eq_of_lt (by omega), Nat.add_zero]
    have sectors : mount.csize * 512 * last = 512 * (mount.csize * last) := by
      rw [Nat.mul_comm mount.csize, Nat.mul_assoc]
    have sector : target / 512 = mount.csize * last + rest / 512 := by omega
    have offset : target % 512 = rest % 512 := by omega
    rw [if_neg (by decide), same]
    by_cases boundary : rest % 512 = 0
    · rw [if_pos boundary]
      refine ⟨sound, .inl ⟨rfl, later, by rw [index, isLast], rfl, fun within => ?_⟩⟩
      exact absurd (offset.trans boundary) within
    · have inCluster : rest / 512 < mount.csize := by omega
      have first := fits.firstSector_inside (Chain.isCluster isLast)
      have below := image.size_lt
      have found : clst2sect fs.mount later = mount.firstSector later := by
        rw [sound.mounted, fits.clst2sect_eq (Chain.isCluster isLast)]
      have number : dword (mount.firstSector later + rest / 512) =
          mount.firstSector later + rest / 512 := dword_of_lt (by omega)
      rw [if_neg boundary, found, if_neg (by omega), number]
      refine ⟨sound, .inl ⟨rfl, later, by rw [index, isLast], rfl, fun _ => ?_⟩⟩
      rw [sector, Chain.sector_eq isLast inCluster]
  · rw [failed.diskErr, if_pos (by decide)]
    exact ⟨sound, .inr ⟨rfl, failed.same, failed.failing⟩⟩

/-- A seek finds the cluster of the byte before its target and, off a sector boundary,
the sector of the target. -/
theorem seekCluster_spec (serves : drive.Serves image limit Ready) (fits : mount.Fits image)
    (sound : fs.Sound image Ready mount) (cursor : fp.At file) {ofs : Nat} (positive : 0 < ofs)
    (inside : ofs ≤ file.size) :
    let sought := seekCluster drive ofs fp fs
    sought.2.2.2.Sound image Ready mount ∧
      (sought.1 = .ok ∧
          (∃ clst, file.clusters[(ofs - 1) / 512 / mount.csize]? = some clst ∧
            sought.2.2.1 = { fp with fptr := ofs, clust := clst } ∧
            (ofs % 512 ≠ 0 → file.sectors[ofs / 512]? = some sought.2.1)) ∨
        Failed drive image limit Ready fp.obj sought.1 sought.2.2.1) := by
  have position := cursor.inside
  have word := file.size_lt
  dsimp only
  rw [seekCluster]
  dsimp only
  rw [sound.mounted]
  split
  · rename_i ahead
    obtain ⟨moved, ahead⟩ := ahead
    have isNth := cursor.clust moved
    rw [← cluster_index] at isNth
    rw [fits.clusterStart_eq (by omega : fp.fptr - 1 < 2 ^ 32)]
    generalize (fp.fptr - 1) / (mount.csize * 512) = i at ahead isNth ⊢
    have reached : mount.csize * 512 * i ≤ ofs - 1 :=
      (Nat.mul_le_mul_left _ ahead).trans (Nat.mul_div_le _ _)
    exact seekFrom_spec serves fits sound { fp with fptr := mount.csize * 512 * i } isNth
      rfl rfl (by omega) (by omega) inside
  · obtain ⟨clst, isFirst⟩ := File.cluster_at (by omega : 0 < file.size)
    rw [Nat.zero_div] at isFirst
    rw [cursor.sclust clst isFirst]
    exact seekFrom_spec serves fits sound { fp with fptr := 0, clust := clst } isFirst
      rfl rfl positive (by omega) inside

/-- `f_lseek` moves to the offset, at most to the end of the file; where the drive fails
the object keeps the error. -/
theorem fLseek_spec (serves : drive.Serves image limit Ready) (fits : mount.Fits image)
    (sound : fs.Sound image Ready mount) (cursor : fp.At file) (ofs : Nat) :
    let sought := fLseek drive ofs fp fs
    sought.2.2.Sound image Ready mount ∧
      (sought.1 = .ok ∧ sought.2.1.At file ∧ sought.2.1.fptr = min ofs file.size ∨
        Aborted drive image limit Ready mount sought.1 sought.2.1) := by
  have valid := validate_ok serves fits sound cursor.opened cursor.id
  dsimp only
  rw [fLseek, valid]
  dsimp only
  rw [if_neg (by decide), if_neg (by rw [cursor.err]; decide), cursor.objsize]
  have clipped : (if file.size < ofs then file.size else ofs) = min ofs file.size := by
    split <;> omega
  have inside : min ofs file.size ≤ file.size := Nat.min_le_right _ _
  rw [clipped]
  generalize min ofs file.size = target at inside ⊢
  by_cases positive : 0 < target
  · have sought := seekCluster_spec serves fits sound cursor positive inside
    rw [if_pos positive]
    generalize seekCluster drive target fp fs = result at sought ⊢
    obtain ⟨res, nsect, found, fs⟩ := result
    dsimp only at sought ⊢
    obtain ⟨sound, ⟨rfl, clst, isNth, rfl, isSector⟩ | failed⟩ := sought
    · rw [if_neg (by decide)]
      by_cases boundary : target % 512 ≠ 0
      · have number := isSector boundary
        have numbered := Chain.sector_inside fits (List.mem_of_getElem? number)
        have filled := fillCache_spec serves sound { fp with fptr := target, clust := clst }
          cursor.cached numbered.1 numbered.2
        rw [if_pos boundary]
        generalize fillCache drive nsect { fp with fptr := target, clust := clst } fs = result
          at filled ⊢
        obtain ⟨res, loaded, fs⟩ := result
        dsimp only at filled ⊢
        obtain ⟨sound, ⟨rfl, rfl⟩ | ⟨rfl, rfl, failing⟩⟩ := filled
        · rw [if_neg (by decide)]
          refine ⟨sound, .inl ⟨rfl, ?_, rfl⟩⟩
          exact { cursor with
            inside := inside
            clust := fun _ => isNth
            cached := fun _ => rfl
            sect := fun _ => number }
        · rw [if_pos (by decide)]
          exact ⟨sound, .inr ⟨rfl, rfl, cursor.opened, cursor.id, failing⟩⟩
      · rw [if_neg boundary]
        refine ⟨sound, .inl ⟨rfl, ?_, rfl⟩⟩
        exact { cursor with
          inside := inside
          clust := fun _ => isNth
          sect := fun within => absurd within boundary }
    · rw [failed.diskErr, if_pos (by decide)]
      have obj := failed.same
      exact ⟨sound, .inr ⟨rfl, rfl, obj ▸ cursor.opened, obj ▸ cursor.id, failed.failing⟩⟩
  · obtain rfl : target = 0 := by omega
    rw [if_neg positive]
    dsimp only
    rw [if_neg (by decide), if_neg (by decide)]
    refine ⟨sound, .inl ⟨rfl, ?_, rfl⟩⟩
    exact { cursor with
      inside := Nat.zero_le _
      clust := fun later => absurd later (Nat.lt_irrefl 0)
      sect := fun within => absurd rfl within }

end DDSFunctionGen.Fat
