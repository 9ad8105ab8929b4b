import DDSFunctionGen.Fat.SeekFile
import DDSFunctionGen.SdCard.FatFs
import DDSFunctionGen.Semantics.Refinement

/-!
# Runs of reads and seeks

Over any sequence of reads and seeks a file object answers as the contents of its file
do, until the drive fails; from then on it answers with the error.
-/

namespace DDSFunctionGen.Fat

open DDSFunctionGen.Semantics

/-- An operation on an open file. -/
inductive FileOp where
  | read (btr : Nat)
  | seek (ofs : Nat)
deriving DecidableEq, Repr

/-- The results of the operations on a file object. -/
def fileRespond {Disk : Type} (drive : Drive Disk) (state : Fil × FatFs Disk) :
    FileOp → (FResult × List UInt8) × Fil × FatFs Disk
  | .read btr =>
      let (res, bytes, fp, fs) := fRead drive btr state.1 state.2
      ((res, bytes), fp, fs)
  | .seek ofs =>
      let (res, fp, fs) := fLseek drive ofs state.1 state.2
      ((res, []), fp, fs)

/-- What the contents of a file answer. -/
def contentRespond (fil : SdCard.Fil) : FileOp → List UInt8 × SdCard.Fil
  | .read btr => fil.fRead btr
  | .seek ofs => ([], fil.fLseek ofs)

/-- A read stays within what the drive serves: of the whole sectors between the position
and its end, those of one cluster are read at once. -/
def FileOp.Short (limit csize : Nat) (fil : SdCard.Fil) : FileOp → Prop
  | .read btr => fil.valid →
      min (wholeSectors fil.fptr (min btr (fil.content.length - fil.fptr))) csize ≤ limit
  | .seek _ => True

namespace FileOp

variable {limit csize : Nat} {fil : SdCard.Fil}

theorem short_of_csize (small : csize ≤ limit) (op : FileOp) : op.Short limit csize fil := by
  cases op with
  | read btr => exact fun _ => (Nat.min_le_right _ _).trans small
  | seek ofs => trivial

theorem read_short {btr : Nat} (small : min (btr / 512) csize ≤ limit) :
    (read btr).Short limit csize fil := by
  intro _
  unfold wholeSectors
  omega

end FileOp

/-- Every answer is the right one; or the drive has failed, and the answers were right up
to one that breaks off, after which there are only errors. -/
def AnswersUntilFailure (unfailing : Prop) (answers : List (List UInt8))
    (responses : List (FResult × List UInt8)) : Prop :=
  responses = answers.map (FResult.ok, ·) ∨
    ¬ unfailing ∧ ∃ before answer after cut, answers = before ++ answer :: after ∧ cut <+: answer ∧
      responses = before.map (FResult.ok, ·) ++
        (FResult.diskErr, cut) :: after.map fun _ => (FResult.diskErr, [])

variable {Disk : Type} {drive : Drive Disk} {image : Image} {limit : Nat} {Ready : Disk → Prop}
  {mount : Mount} {fs : FatFs Disk} {file : File mount image} {fp : Fil}

/-- The contents of a file, read from a position. -/
def File.standing (file : File mount image) (fptr : Nat) : SdCard.Fil :=
  { valid := true, content := file.content, fptr }

theorem AnswersUntilFailure.cons {unfailing : Prop} {answer : List UInt8}
    {answers : List (List UInt8)} {responses : List (FResult × List UInt8)}
    (later : AnswersUntilFailure unfailing answers responses) :
    AnswersUntilFailure unfailing (answer :: answers) ((FResult.ok, answer) :: responses) := by
  rcases later with rfl | ⟨failing, before, broken, after, cut, rfl, first, rfl⟩
  · exact .inl rfl
  · exact .inr ⟨failing, answer :: before, broken, after, cut, rfl, first, rfl⟩

/-- One operation of a sound object: the file's answer, or the drive has failed. -/
theorem fileRespond_spec (serves : drive.Serves image limit Ready) (fits : mount.Fits image)
    (sound : fs.Sound image Ready mount) (cursor : fp.At file) {op : FileOp}
    (short : op.Short limit mount.csize (file.standing fp.fptr)) :
    let response := fileRespond drive (fp, fs) op
    let answer := contentRespond (file.standing fp.fptr) op
    response.2.2.Sound image Ready mount ∧
      (response.1 = (.ok, answer.1) ∧ response.2.1.At file ∧
          answer.2 = file.standing response.2.1.fptr ∨
        response.1.2 <+: answer.1 ∧
          Aborted drive image limit Ready mount response.1.1 response.2.1) := by
  cases op with
  | read btr =>
      have short := short rfl
      rw [File.standing, File.length_content] at short
      obtain ⟨sound, ⟨succeeds, bytes, cursor, moved⟩ | aborted⟩ :=
        fRead_spec serves fits sound cursor short
      · refine ⟨sound, .inl ⟨Prod.ext succeeds bytes, cursor, ?_⟩⟩
        simp only [fileRespond, contentRespond, SdCard.Fil.fRead, File.standing, if_true, moved, bytes]
      · exact ⟨sound, .inr aborted⟩
  | seek ofs =>
      obtain ⟨sound, ⟨succeeds, cursor, moved⟩ | aborted⟩ :=
        fLseek_spec serves fits sound cursor ofs
      · refine ⟨sound, .inl ⟨Prod.ext succeeds rfl, cursor, ?_⟩⟩
        simp only [fileRespond, contentRespond, SdCard.Fil.fLseek, File.standing, if_true, moved,
          File.length_content]
      · exact ⟨sound, .inr ⟨List.prefix_rfl, aborted⟩⟩

/-- An aborted object refuses every operation with its error, and nothing changes. -/
theorem fileRespond_aborted (serves : drive.Serves image limit Ready) (fits : mount.Fits image)
    (sound : fs.Sound image Ready mount) {res : FResult}
    (aborted : Aborted drive image limit Ready mount res fp) (op : FileOp) :
    fileRespond drive (fp, fs) op = ((.diskErr, []), fp, fs) := by
  have valid := validate_ok serves fits sound aborted.opened aborted.id
  have kept : fp.err ≠ .ok := by
    rw [aborted.err]
    decide
  cases op with
  | read btr => simp [fileRespond, fRead, valid, aborted.err]
  | seek ofs => simp [fileRespond, fLseek, valid, aborted.err]

/-- A run of an aborted object. -/
theorem transfer_aborted (serves : drive.Serves image limit Ready) (fits : mount.Fits image)
    (sound : fs.Sound image Ready mount) {res : FResult}
    (aborted : Aborted drive image limit Ready mount res fp) (ops : List FileOp) :
    transfer (fileRespond drive) (fp, fs) ops =
      (ops.map fun _ => (FResult.diskErr, []), fp, fs) := by
  induction ops with
  | nil => rfl
  | cons op rest inductionHypothesis =>
      rw [transfer_cons, fileRespond_aborted serves fits sound aborted, inductionHypothesis]
      rfl

/-- In a run of reads and seeks the object answers as the contents of the file until the
drive fails. -/
theorem file_answers_until_failure (serves : drive.Serves image limit Ready) (fits : mount.Fits image)
    (sound : fs.Sound image Ready mount) (cursor : fp.At file) {ops : List FileOp}
    (short : ExpectsAlong contentRespond (FileOp.Short limit mount.csize) (file.standing fp.fptr)
      ops) :
    AnswersUntilFailure (drive.Unfailing image limit Ready)
      (transfer contentRespond (file.standing fp.fptr) ops).1
      (transfer (fileRespond drive) (fp, fs) ops).1 := by
  induction ops generalizing fp fs with
  | nil => exact .inl rfl
  | cons op rest inductionHypothesis =>
      obtain ⟨sound, ⟨response, cursor, answer⟩ | ⟨cut, aborted⟩⟩ :=
        fileRespond_spec serves fits sound cursor short.1
      · have later := inductionHypothesis sound cursor (answer ▸ short.2)
        rw [transfer_cons, transfer_cons, answer, response]
        exact later.cons
      · have refused := transfer_aborted serves fits sound aborted rest
        have outputs : (transfer contentRespond (contentRespond (file.standing fp.fptr) op).2
            rest).1.length = rest.length := transfer_length _ _
        refine .inr ⟨aborted.failing, [], _, _, (fileRespond drive (fp, fs) op).1.2, rfl, cut, ?_⟩
        rw [transfer_cons, refused, ← aborted.diskErr, List.map_const', List.map_const', outputs]
        rfl

/-- Reads across the clusters of a file, the second one to its end. -/
theorem file_answers_across_clusters :
    (transfer (fileRespond (treeImage longContent).drive) (treeFp 1 longContent, treeFs 1)
      [.seek 510, .read 3, .seek 511, .read 8]).1 =
        [(.ok, []), (.ok, [0x52, 0x49, 0x46]), (.ok, []), (.ok, [0x49, 0x46, 0x46])] := by
  have short : ∀ op ∈ [FileOp.seek 510, .read 3, .seek 511, .read 8], ∀ fil,
      op.Short 1 (treeMount 1).csize fil :=
    fun op _ _ => op.short_of_csize (Nat.le_refl 1)
  rcases file_answers_until_failure ((treeImage longContent).drive_serves Nat.one_pos)
    (treeMount_fits 1 longContent) (treeFs_sound 1 longContent) (treeFp_at 1 longContent_short)
    (.of_forall short contentRespond _) with responses | ⟨failing, -⟩
  · rw [responses, File.standing, File.tree_content]
    decide +kernel
  · exact absurd ((treeImage longContent).drive_unfailing 1) failing

end DDSFunctionGen.Fat
