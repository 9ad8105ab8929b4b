import DDSFunctionGen.Fat.DirectoryTable

/-!
# Reading a directory

Both a listing and a search go through the entries of a table up to the first that was
never used. `f_readdir` gives the valid ones one by one, and after them an empty name;
`dir_find` stops at the first that has the name.
-/

namespace DDSFunctionGen.Fat

variable {Disk : Type} {drive : Drive Disk} {image : Image} {limit : Nat} {Ready : Disk → Prop}
  {mount : Mount} {fs : FatFs Disk} {table : Table mount image} {k : Nat} {dp : Dir}

/-- The entries that are wanted. -/
def selected (wanted : List UInt8 → Bool) (slots : List (List UInt8)) : List (List UInt8) :=
  (slots.takeWhile fun entry => dirName entry != 0).filter wanted

section Selected

variable {wanted : List UInt8 → Bool} {entry : List UInt8} {rest : List (List UInt8)}

theorem selected_unused (unused : dirName entry = 0) : selected wanted (entry :: rest) = [] := by
  simp [selected, unused]

theorem selected_wanted (used : dirName entry ≠ 0) (isWanted : wanted entry = true) :
    selected wanted (entry :: rest) = entry :: selected wanted rest := by
  simp [selected, used, isWanted]

theorem selected_other (used : dirName entry ≠ 0) (other : wanted entry ≠ true) :
    selected wanted (entry :: rest) = selected wanted rest := by
  simp [selected, used, other]

end Selected

/-- The object before the entries that are still to be listed. -/
inductive Dir.Before (table : Table mount image) (vol : Bool) (dp : Dir) :
    List (List UInt8) → Prop where
  | stands {k : Nat} (stands : dp.At table k) :
      Dir.Before table vol dp (selected (validEntry vol) (table.slots.drop k))
  | ended (ended : dp.sect = 0) : Dir.Before table vol dp []

/-- The outcomes of the search for the next of the entries that are wanted. -/
inductive Finds (drive : Drive Disk) (image : Image) (limit : Nat) (Ready : Disk → Prop)
    (table : Table mount image) (wanted : List UInt8 → Bool) (fs : FatFs Disk) (after : Dir) :
    FResult → List (List UInt8) → Prop where
  | entry {k : Nat} (stands : after.At table k) (shows : fs.win = image.sector after.sect)
      (attr : after.obj.attr = dirAttr (table.slot k) &&& amMask) :
      Finds drive image limit Ready table wanted fs after .ok
        (table.slot k :: selected wanted (table.slots.drop (k + 1)))
  | ended : Finds drive image limit Ready table wanted fs after .noFile []
  | failed {rest : List (List UInt8)} (failing : ¬ drive.Unfailing image limit Ready) :
      Finds drive image limit Ready table wanted fs after .diskErr rest

/-- The loop stops at the next entry that is wanted. -/
theorem scanLoop_spec (serves : drive.Serves image limit Ready) (fits : mount.Fits image)
    (sound : fs.Sound image Ready mount) {stops : Dir → Bool} (wanted : List UInt8 → Bool)
    (onlyEnded : ∀ dp, stops dp → dp.sect = 0) {passes : Nat} (res : FResult)
    (stands : dp.At table k) (enough : table.count ≤ k + passes) :
    let scan := scanLoop drive stops wanted passes res dp fs
    scan.2.2.Sound image Ready mount ∧ dp.Moved scan.2.1 ∧
      Finds drive image limit Ready table wanted scan.2.2 scan.2.1 scan.1
        (selected wanted (table.slots.drop k)) := by
  induction passes generalizing k dp fs res with
  | zero =>
      have inside := stands.inside
      omega
  | succ passes inductionHypothesis =>
      have onDrive := Table.sector_inside fits (List.mem_of_getElem? stands.sect)
      have stays : ¬ stops dp = true := fun stopped => by
        have ended := onlyEnded dp stopped
        omega
      obtain ⟨sound, window⟩ := moveWindow_spec serves sound onDrive.2
      dsimp only
      rw [scanLoop, if_neg stays]
      generalize moveWindow drive dp.sect fs = result at sound window ⊢
      obtain ⟨res, fs⟩ := result
      dsimp only at sound window ⊢
      rcases window with ⟨rfl, shows⟩ | ⟨rfl, failing⟩
      · rw [if_neg (by decide), stands.entry_eq shows, Table.drop_slots stands.inside]
        by_cases unused : dirName (table.slot k) = 0
        · rw [if_pos unused, selected_unused unused]
          exact ⟨sound, ⟨rfl, rfl, rfl⟩, .ended⟩
        rw [if_neg unused]
        let seen : Dir :=
          { dp with obj := { dp.obj with attr := dirAttr (table.slot k) &&& amMask } }
        have seenAt : seen.At table k :=
          ⟨stands.inside, stands.dptr, stands.sect, stands.dir, stands.clust⟩
        have seenMoved : dp.Moved seen := ⟨rfl, rfl, rfl⟩
        by_cases isWanted : wanted (table.slot k) = true
        · rw [if_pos isWanted, selected_wanted unused isWanted]
          exact ⟨sound, seenMoved, .entry seenAt shows rfl⟩
        · rw [if_neg isWanted, selected_other unused isWanted]
          have step := dirNext_spec serves fits sound seenAt
          dsimp only at step
          change FatFs.Sound image Ready mount (Prod.snd (Prod.snd (ite _ _ _))) ∧ _
          generalize dirNext drive seen fs = result at step ⊢
          obtain ⟨res, after, fs⟩ := result
          obtain ⟨sound, moved, outcome⟩ := step
          dsimp only at sound moved outcome ⊢
          cases outcome with
          | next stands =>
              rw [if_neg (by decide)]
              obtain ⟨sound, later, finds⟩ := inductionHypothesis sound .ok stands (by omega)
              exact ⟨sound, (seenMoved.trans moved).trans later, finds⟩
          | ended last =>
              rw [if_pos (by decide), Table.drop_slots_count (by omega)]
              exact ⟨sound, seenMoved.trans moved, .ended⟩
          | full last =>
              rw [if_pos (by decide), Table.drop_slots_count (by omega)]
              exact ⟨sound, seenMoved, .ended⟩
          | failed failing =>
              rw [if_pos (by decide)]
              exact ⟨sound, seenMoved.trans moved, .failed failing⟩
      · rw [if_pos (by decide)]
        exact ⟨sound, ⟨rfl, rfl, rfl⟩, .failed failing⟩

/-- An entry lies within what the passes of a search reach. -/
theorem Table.count_le (table : Table mount image) (k : Nat) : table.count ≤ k + maxDir / 32 :=
  (Nat.min_le_right _ _).trans (Nat.le_add_left _ _)

/-- `dir_read` finds the next entry to be listed, and ends the directory where there is
none. -/
theorem dirRead_spec (serves : drive.Serves image limit Ready) (fits : mount.Fits image)
    (sound : fs.Sound image Ready mount) {vol : Bool} {rest : List (List UInt8)}
    (before : dp.Before table vol rest) :
    let read := dirRead drive vol dp fs
    read.2.2.Sound image Ready mount ∧ dp.Moved read.2.1 ∧
      (read.1 ≠ .ok → read.2.1.sect = 0) ∧
      Finds drive image limit Ready table (validEntry vol) read.2.2 read.2.1 read.1 rest := by
  dsimp only
  rw [dirRead]
  dsimp only
  cases before with
  | stands stands =>
      rename_i k
      have loop := scanLoop_spec serves fits sound (validEntry vol)
        (fun dp (stopped : (dp.sect == 0) = true) => beq_iff_eq.mp stopped) .noFile stands
        (table.count_le k)
      dsimp only at loop
      generalize scanLoop drive (fun dp => dp.sect == 0) (validEntry vol) (maxDir / 32) .noFile dp
        fs = result at loop ⊢
      obtain ⟨res, after, fs⟩ := result
      obtain ⟨sound, moved, finds⟩ := loop
      dsimp only at sound moved finds ⊢
      have closed : dp.Moved { after with sect := 0 } := ⟨moved.obj, moved.fn, moved.nsFlag⟩
      generalize selected (validEntry vol) (table.slots.drop k) = rest at finds ⊢
      cases finds with
      | entry stands shows attr =>
          rw [if_neg (by decide)]
          exact ⟨sound, moved, fun other => absurd rfl other, .entry stands shows attr⟩
      | ended =>
          rw [if_pos (by decide)]
          exact ⟨sound, closed, fun _ => rfl, .ended⟩
      | failed failing =>
          rw [if_pos (by decide)]
          exact ⟨sound, closed, fun _ => rfl, .failed failing⟩
  | ended ended =>
      have passes : maxDir / 32 = maxDir / 32 - 1 + 1 := by decide
      rw [passes, scanLoop, if_pos (beq_iff_eq.mpr ended)]
      exact ⟨sound, ⟨rfl, rfl, rfl⟩, fun _ => rfl, .ended⟩

/-- `dir_find` stops at the first entry that has the name. -/
theorem dirFind_spec (serves : drive.Serves image limit Ready) (fits : mount.Fits image)
    (sound : fs.Sound image Ready mount) (opens : table.Opens dp.obj.sclust) :
    let found := dirFind drive dp fs
    found.2.2.Sound image Ready mount ∧ dp.Moved found.2.1 ∧
      Finds drive image limit Ready table (matchingEntry dp.fn) found.2.2 found.2.1 found.1
        (selected (matchingEntry dp.fn) table.slots) := by
  have sets := dirSdi_spec serves fits sound dp opens (Table.count_pos fits) (Nat.mul_zero 32).symm
  dsimp only
  rw [dirFind]
  dsimp only
  generalize dirSdi drive 0 dp fs = result at sets ⊢
  obtain ⟨res, start, fs⟩ := result
  obtain ⟨sound, moved, ⟨succeeds, stands⟩ | ⟨fails, failing⟩⟩ := sets
  · dsimp only at succeeds stands moved ⊢
    subst succeeds
    rw [if_neg (by decide), moved.fn]
    obtain ⟨sound, later, finds⟩ := scanLoop_spec serves fits sound (matchingEntry dp.fn)
      (fun _ (stopped : false = true) => absurd stopped (by decide)) .ok stands (table.count_le 0)
    exact ⟨sound, moved.trans later, finds⟩
  · dsimp only at fails moved ⊢
    subst fails
    rw [if_pos (by decide)]
    exact ⟨sound, moved, .failed failing⟩

/-- The outcomes of `f_readdir` where these entries are still to be listed. -/
inductive Reads (drive : Drive Disk) (image : Image) (limit : Nat) (Ready : Disk → Prop)
    (table : Table mount image) (after : Dir) :
    List (List UInt8) → FResult → FilInfo → Prop where
  | entry {entry : List UInt8} {more : List (List UInt8)} (before : after.Before table false more) :
      Reads drive image limit Ready table after (entry :: more) .ok (entryInfo entry)
  | ended {fno : FilInfo} (unnamed : fno.fname = []) (before : after.Before table false []) :
      Reads drive image limit Ready table after [] .ok fno
  | failed {rest : List (List UInt8)} {fno : FilInfo}
      (failing : ¬ drive.Unfailing image limit Ready) :
      Reads drive image limit Ready table after rest .diskErr fno

/-- `f_readdir` gives the next entry, or an empty name where there is none, provided the
table has fewer entries than it may have. -/
theorem fReaddir_spec (serves : drive.Serves image limit Ready) (fits : mount.Fits image)
    (sound : fs.Sound image Ready mount) (opened : dp.obj.fs = true) (id : dp.obj.id = mount.id)
    (room : table.count < maxDir / 32) {rest : List (List UInt8)}
    (before : dp.Before table false rest) (fno : FilInfo) :
    let read := fReaddir drive dp fno fs
    read.2.2.2.Sound image Ready mount ∧ dp.Moved read.2.2.1 ∧
      Reads drive image limit Ready table read.2.2.1 rest read.1 read.2.1 := by
  have valid := validate_ok serves fits sound opened id
  have found := dirRead_spec serves fits sound before
  dsimp only at found ⊢
  rw [fReaddir, valid]
  dsimp only
  rw [if_neg (by decide)]
  generalize dirRead drive false dp fs = result at found ⊢
  obtain ⟨res, after, fs⟩ := result
  obtain ⟨sound, moved, ended, finds⟩ := found
  dsimp only at sound moved ended finds ⊢
  cases finds with
  | entry stands shows attr =>
      rename_i k
      have step := dirNext_spec serves fits sound stands
      have named : getFileinfo after fs fno = entryInfo (table.slot k) := by
        have onDrive := Table.sector_inside fits (List.mem_of_getElem? stands.sect)
        rw [getFileinfo, if_neg (by omega), stands.entry_eq shows]
      dsimp only at step
      rw [if_neg (by simp), named]
      generalize dirNext drive after fs = result at step ⊢
      obtain ⟨res, last, fs⟩ := result
      obtain ⟨sound, later, outcome⟩ := step
      dsimp only at sound later outcome ⊢
      refine ⟨sound, moved.trans later, ?_⟩
      cases outcome with
      | next stands => exact .entry (.stands stands)
      | ended last done =>
          rw [Table.drop_slots_count (by omega)]
          exact .entry (.ended done)
      | full last most => omega
      | failed failing => exact .failed failing
  | ended =>
      have done := ended (by decide)
      have step : dirNext drive after fs = (.noFile, after, fs) := by
        rw [dirNext]
        dsimp only
        rw [if_pos (.inl done)]
      have unnamed : (getFileinfo after fs fno).fname = [] := by
        rw [getFileinfo, if_pos done]
      rw [if_pos rfl, if_neg (by decide), step]
      exact ⟨sound, moved, .ended unnamed (.ended done)⟩
  | failed failing =>
      rw [if_pos (by simp)]
      exact ⟨sound, moved, .failed failing⟩

/-- The loop that reads a directory as `drawFileNames` does, for at most `passes` passes:
its last result and the entries it goes through. -/
def readEntries (drive : Drive Disk) : (passes : Nat) → Dir → FilInfo → FatFs Disk →
    FResult × List FilInfo × Dir × FatFs Disk
  | 0, dp, _, fs => (.ok, [], dp, fs)
  | passes + 1, dp, fno, fs =>
      let (res, fno, dp, fs) := fReaddir drive dp fno fs
      -- Break on error or end of dir
      if res ≠ .ok ∨ fno.fname.getD 0 0 = 0 then (res, [], dp, fs)
      else
        let (res, later, dp, fs) := readEntries drive passes dp fno fs
        (res, fno :: later, dp, fs)

/-- The entries that the loop goes through: it takes an entry whose name is empty for the
end. -/
def shownInfos (entries : List (List UInt8)) : List FilInfo :=
  (entries.map entryInfo).takeWhile fun fno => fno.fname.getD 0 0 != 0

/-- The loop goes through the entries of the table; where the drive fails it breaks off
before some of them. -/
theorem readEntries_spec (serves : drive.Serves image limit Ready) (fits : mount.Fits image)
    (sound : fs.Sound image Ready mount) (opened : dp.obj.fs = true) (id : dp.obj.id = mount.id)
    (room : table.count < maxDir / 32) {rest : List (List UInt8)}
    (before : dp.Before table false rest) (fno : FilInfo) {passes : Nat}
    (enough : rest.length < passes) :
    let read := readEntries drive passes dp fno fs
    read.2.2.2.Sound image Ready mount ∧
      (read.1 = .ok ∧ read.2.1 = shownInfos rest ∨
        read.1 = .diskErr ∧ read.2.1 <+: shownInfos rest ∧
          ¬ drive.Unfailing image limit Ready) := by
  induction passes generalizing rest dp fno fs with
  | zero => omega
  | succ passes inductionHypothesis =>
      obtain ⟨sound, moved, reads⟩ := fReaddir_spec serves fits sound opened id room before fno
      dsimp only
      rw [readEntries]
      generalize fReaddir drive dp fno fs = result at sound moved reads ⊢
      obtain ⟨res, fno, after, fs⟩ := result
      have stillOpened : after.obj.fs = true := by rw [moved.obj, opened]
      have sameId : after.obj.id = mount.id := by rw [moved.obj, id]
      dsimp only at sound reads ⊢
      cases reads with
      | @entry entry more rest =>
          by_cases unnamed : (entryInfo entry).fname.getD 0 0 = 0
          · have nothing : shownInfos (entry :: more) = [] := by
              simp only [shownInfos, List.map_cons, List.takeWhile_cons, unnamed]
              rfl
            rw [if_pos (.inr unnamed), nothing]
            exact ⟨sound, .inl ⟨rfl, rfl⟩⟩
          · have first : shownInfos (entry :: more) = entryInfo entry :: shownInfos more := by
              simp only [shownInfos, List.map_cons, List.takeWhile_cons]
              rw [if_pos (bne_iff_ne.mpr unnamed)]
            have later := inductionHypothesis sound stillOpened sameId rest (entryInfo entry)
              (Nat.lt_of_succ_lt_succ enough)
            rw [if_neg (not_or.mpr ⟨by decide, unnamed⟩), first]
            obtain ⟨sound, ⟨succeeds, infos⟩ | ⟨fails, cut, failing⟩⟩ := later
            · exact ⟨sound, .inl ⟨succeeds, congrArg _ infos⟩⟩
            · exact ⟨sound, .inr ⟨fails, (List.prefix_cons_inj _).mpr cut, failing⟩⟩
      | ended unnamed =>
          rw [if_pos (.inr (by rw [unnamed]; rfl))]
          exact ⟨sound, .inl ⟨rfl, rfl⟩⟩
      | failed failing =>
          rw [if_pos (.inl (by decide))]
          exact ⟨sound, .inr ⟨rfl, List.nil_prefix, failing⟩⟩

end DDSFunctionGen.Fat
