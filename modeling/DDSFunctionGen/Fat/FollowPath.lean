import DDSFunctionGen.Fat.CardTree
import Mathlib.Data.List.Nodup
import Mathlib.Data.List.TakeWhile

/-!
# Following a path

A path names entries one below the other: `follow_path` finds the last of them, wherever
the card lists it, and fails with `FR_NO_FILE` or `FR_NO_PATH` where it does not.
-/

namespace DDSFunctionGen.Fat

open DDSFunctionGen.SdCard DDSFunctionGen.Sequences

/-- A byte that no character of a name has. -/
theorem Characters.not_mem {chars : List UInt8} (isName : Characters chars) {c : UInt8}
    (single : ¬ Single c) (first : ¬ dbc1st c) (second : ¬ dbc2nd c) : c ∉ chars := by
  induction isName with
  | nil => exact List.not_mem_nil
  | @single d _ isSingle _ inductionHypothesis =>
      have other : c ≠ d := fun same => single (same ▸ isSingle)
      exact List.not_mem_cons_of_ne_of_not_mem other inductionHypothesis
  | @double d e _ isFirst isSecond _ inductionHypothesis =>
      have other : c ≠ d := fun same => first (same ▸ isFirst)
      have nor : c ≠ e := fun same => second (same ▸ isSecond)
      exact List.not_mem_cons_of_ne_of_not_mem other
        (List.not_mem_cons_of_ne_of_not_mem nor inductionHypothesis)

theorem EightThree.not_mem_shown (name : EightThree) {c : UInt8} (single : ¬ Single c)
    (first : ¬ dbc1st c) (second : ¬ dbc2nd c) (undotted : c ≠ 0x2E) : c ∉ name.shown := by
  have body := name.bodyChars.not_mem single first second
  have ext := name.extChars.not_mem single first second
  rw [shown]
  by_cases none : name.ext = []
  · simpa [none] using body
  · simp [none, body, ext, undotted]

/-- The part of a path after the heading separators, and its names. -/
inductive Named : (path : List UInt8) → (names : List CString) → Prop where
  | last {name : EightThree} (visible : name.shown ≠ []) : Named name.shown [name.shown]
  | step {name : EightThree} {separators rest : List UInt8} {names : List CString}
      (visible : name.shown ≠ []) (separated : separators ≠ [])
      (only : ∀ c ∈ separators, isSeparator c) (later : Named rest names) :
      Named (name.shown ++ (separators ++ rest)) (name.shown :: names)

/-- A name starts with a character that is printed and separates nothing. -/
theorem EightThree.shown_first {name : EightThree} (visible : name.shown ≠ []) :
    ∃ c rest, name.shown = c :: rest ∧ 0x20 < c ∧ isSeparator c = false := by
  have chars := name.bodyChars
  rw [shown] at visible ⊢
  generalize name.body = body at chars visible ⊢
  cases chars with
  | nil =>
      rw [List.nil_append] at visible ⊢
      by_cases noExt : name.ext = []
      · rw [if_pos noExt] at visible
        exact absurd rfl visible
      · rw [if_neg noExt]
        exact ⟨_, _, rfl, by decide, by decide⟩
  | single isSingle => exact ⟨_, _, rfl, isSingle.printable, isSingle.unseparated⟩
  | double first =>
      have printable := dbc1st_printable first
      exact ⟨_, _, rfl, by grind, (dbc1st_inside first).2.1⟩

namespace Named

variable {path : List UInt8} {names : List CString}

theorem first (named : Named path names) :
    ∃ c rest, path = c :: rest ∧ 0x20 < c ∧ isSeparator c = false := by
  cases named with
  | last visible => exact EightThree.shown_first visible
  | step visible =>
      obtain ⟨c, rest, shown, first⟩ := EightThree.shown_first visible
      exact ⟨c, _, by rw [shown, List.cons_append], first⟩

theorem names_ne_nil (named : Named path names) : names ≠ [] := by
  cases named <;> exact List.cons_ne_nil _ _

/-- The separators before a name are skipped. -/
theorem dropWhile_separators (named : Named path names) {separators : List UInt8}
    (only : ∀ c ∈ separators, isSeparator c) :
    (separators ++ path).dropWhile isSeparator = path := by
  obtain ⟨c, rest, rfl, -, other⟩ := named.first
  rw [List.dropWhile_append_of_pos only, List.dropWhile_cons_of_neg (by simp [other])]

end Named

variable {mount : Mount} {image : Image} {card : Card}
  {directory : List CString → Option (Table mount image)}

namespace Holds

variable {names : List CString} {table : Table mount image}

/-- The directories on the way to a directory. -/
theorem above (holds : Holds card directory) {front : List CString} (below : List CString)
    {sub : Table mount image} (isDirectory : directory (front ++ below) = some sub) :
    ∃ table, directory front = some table := by
  induction below using List.reverseRecOn generalizing sub with
  | nil => exact ⟨sub, by rwa [List.append_nil] at isDirectory⟩
  | append_singleton below name inductionHypothesis =>
      rw [← List.append_assoc] at isDirectory
      obtain ⟨table, isTable, -⟩ := holds.reached isDirectory
      exact inductionHypothesis isTable

/-- The entries of a directory have distinct names. -/
theorem unique (holds : Holds card directory) (isDirectory : directory names = some table)
    {entry other : List UInt8} (member : entry ∈ table.entries) (otherMember : other ∈ table.entries)
    (same : entryName entry = entryName other) : entry = other := by
  have listing : card.listing names = some (table.entries.map entryFile) := by
    rw [holds.listing, isDirectory]
    rfl
  have distinct := card.distinct listing
  rw [List.map_map] at distinct
  exact List.inj_on_of_nodup_map distinct member otherMember same

/-- Only the entry of a sub-directory leads further. -/
theorem leads (holds : Holds card directory) (isDirectory : directory names = some table)
    {name : CString} {below : List CString} {sub : Table mount image}
    (isSub : directory (names ++ (name :: below)) = some sub) :
    ∃ entry ∈ table.entries, entryName entry = name ∧ dirAttr entry &&& amDir ≠ 0 := by
  rw [List.append_cons] at isSub
  obtain ⟨next, isNext⟩ := holds.above below isSub
  obtain ⟨parent, isParent, found⟩ := holds.reached isNext
  obtain rfl : table = parent := Option.some.inj (isDirectory.symm.trans isParent)
  exact found

end Holds

variable {Disk : Type} {drive : Drive Disk} {limit : Nat} {Ready : Disk → Prop}
  {fs : FatFs Disk} {dp : Dir}

/-- The outcomes of following names from a directory. -/
inductive Follows (drive : Drive Disk) (limit : Nat) (Ready : Disk → Prop)
    (directory : List CString → Option (Table mount image)) (names : List CString)
    (fs : FatFs Disk) (after : Dir) : FResult → Prop where
  | found {parent : Table mount image} {entry : List UInt8}
      (isParent : directory names.dropLast = some parent) (member : entry ∈ parent.entries)
      (named : names.getLast? = some (entryName entry)) (shows : after.Shows parent entry fs)
      (flag : after.nsFlag = nsLast) : Follows drive limit Ready directory names fs after .ok
  | missing {res : FResult} (other : res = .noFile ∨ res = .noPath)
      (none : ∀ parent, directory names.dropLast = some parent → ∀ entry ∈ parent.entries,
        names.getLast? ≠ some (entryName entry)) :
      Follows drive limit Ready directory names fs after res
  | failed (failing : ¬ drive.Unfailing image limit Ready) :
      Follows drive limit Ready directory names fs after .diskErr

/-- The loop of `follow_path` finds what the card lists under the names. -/
theorem followLoop_spec (serves : drive.Serves image limit Ready) (fits : mount.Fits image)
    (holds : Holds card directory) (sound : fs.Sound image Ready mount) {front : List CString}
    {table : Table mount image} (isDirectory : directory front = some table) (dp : Dir)
    (opens : table.Opens dp.obj.sclust) {path : List UInt8} {names : List CString}
    (named : Named path names) {passes : Nat} (enough : path.length ≤ passes) :
    let followed := followLoop drive passes path dp fs
    followed.2.2.Sound image Ready mount ∧ followed.2.1.obj.fs = dp.obj.fs ∧
      Follows drive limit Ready directory (front ++ names) followed.2.2 followed.2.1
        followed.1 := by
  induction named generalizing front table dp fs passes with
  | @last name visible =>
      obtain ⟨passes, rfl⟩ : ∃ more, passes = more + 1 :=
        Nat.exists_eq_add_one.mpr ((List.length_pos_of_ne_nil visible).trans_le enough)
      have created := @name.createName_shown visible [] (by simp) dp
      rw [List.append_nil] at created
      have searched := dirFind_name serves fits sound holds isDirectory
        { dp with fn := name.stored, nsFlag := nsLast } opens visible rfl
      dsimp only at searched ⊢
      rw [followLoop, created]
      dsimp only
      rw [if_neg (by decide), if_pos rfl]
      generalize dirFind drive { dp with fn := name.stored, nsFlag := nsLast } fs = result
        at searched ⊢
      obtain ⟨res, after, fs⟩ := result
      obtain ⟨sound, moved, looks⟩ := searched
      dsimp only at sound moved looks ⊢
      have flag : after.nsFlag = nsLast := moved.nsFlag
      have sameFs : after.obj.fs = dp.obj.fs := by rw [moved.obj]
      cases looks with
      | found member entryNamed shows =>
          rw [if_neg (by decide), flag, if_pos (by decide)]
          exact ⟨sound, sameFs, .found (by simpa using isDirectory) member (by simp [entryNamed])
            shows flag⟩
      | missing none =>
          rw [if_pos (by decide), flag, if_neg (by decide)]
          refine ⟨sound, sameFs, .missing (.inl rfl) fun parent isParent entry member => ?_⟩
          rw [List.dropLast_concat, isDirectory] at isParent
          obtain rfl := Option.some.inj isParent
          simpa using (none entry member).symm
      | failed failing =>
          rw [if_pos (by decide)]
          exact ⟨sound, sameFs, .failed failing⟩
  | @step name separators rest names visible separated only later inductionHypothesis =>
      have path : (name.shown ++ (separators ++ rest)).length =
          name.shown.length + (separators.length + rest.length) := by
        rw [List.length_append, List.length_append]
      have nonempty := List.length_pos_of_ne_nil visible
      obtain ⟨passes, rfl⟩ : ∃ more, passes = more + 1 := Nat.exists_eq_add_one.mpr (by omega)
      have ends : ∀ c ∈ (separators ++ rest).head?, isSeparator c := by
        obtain ⟨c, others, rfl⟩ := List.exists_cons_of_ne_nil separated
        simpa using only c List.mem_cons_self
      have created := name.createName_shown visible ends dp
      have behind : separators ++ rest ≠ [] := by simp [separated]
      rw [later.dropWhile_separators only, if_neg behind] at created
      have searched := dirFind_name serves fits sound holds isDirectory
        { dp with fn := name.stored, nsFlag := 0 } opens visible rfl
      have split : front ++ name.shown :: names = front ++ [name.shown] ++ names := by
        rw [List.append_cons]
      have parents : (front ++ name.shown :: names).dropLast =
          front ++ name.shown :: names.dropLast := by
        rw [List.dropLast_append_cons, List.dropLast_cons_of_ne_nil later.names_ne_nil]
      dsimp only at searched ⊢
      rw [followLoop, created]
      dsimp only
      rw [if_neg (by decide)]
      generalize dirFind drive { dp with fn := name.stored, nsFlag := 0 } fs = result
        at searched ⊢
      obtain ⟨res, after, fs⟩ := result
      obtain ⟨sound, moved, looks⟩ := searched
      dsimp only at sound moved looks ⊢
      have onward : after.nsFlag &&& nsLast = 0 := by
        rw [moved.nsFlag]
        change (0 : UInt8) &&& nsLast = 0
        decide
      have sameFs : after.obj.fs = dp.obj.fs := by rw [moved.obj]
      cases looks with
      | @found entry member entryNamed shows =>
          rw [if_neg (by decide), if_neg (not_not.mpr onward), shows.amDir_eq]
          by_cases isFile : dirAttr entry &&& amDir = 0
          · rw [if_pos isFile]
            refine ⟨sound, sameFs, .missing (.inr rfl) fun parent isParent => ?_⟩
            rw [parents] at isParent
            obtain ⟨other, otherMember, otherNamed, isDir⟩ := holds.leads isDirectory isParent
            obtain rfl := holds.unique isDirectory member otherMember
              (entryNamed.trans otherNamed.symm)
            exact absurd isFile isDir
          · obtain ⟨sub, isSub, subOpens⟩ := holds.subdirectory isDirectory entry member isFile
            rw [entryNamed] at isSub
            rw [if_neg isFile, sound.mounted, shows.dir_eq, shows.ldClust_eq]
            obtain ⟨sound, later, follows⟩ := @inductionHypothesis fs sound
              (front ++ [name.shown]) sub isSub
              { after with obj := { after.obj with sclust := ldClust mount entry } } subOpens
              passes (by omega)
            rw [split]
            exact ⟨sound, later.trans sameFs, follows⟩
      | missing none =>
          rw [if_pos (by decide), if_pos ⟨rfl, onward⟩]
          refine ⟨sound, sameFs, .missing (.inr rfl) fun parent isParent => ?_⟩
          rw [parents] at isParent
          obtain ⟨other, otherMember, otherNamed, -⟩ := holds.leads isDirectory isParent
          exact absurd otherNamed (none other otherMember)
      | failed failing =>
          rw [if_pos (by decide), if_neg (fun wrong => by cases wrong.1)]
          exact ⟨sound, sameFs, .failed failing⟩

/-- A path, and the names that it leads through: none where it is the root directory. -/
inductive PathTo : (path : CString) → (names : List CString) → Prop where
  | root {separators : List UInt8} (only : ∀ c ∈ separators, isSeparator c) : PathTo separators []
  | below {separators rest : List UInt8} {names : List CString}
      (only : ∀ c ∈ separators, isSeparator c) (named : Named rest names) :
      PathTo (separators ++ rest) names

/-- A name as it is listed. -/
def IsShown (name : CString) : Prop := ∃ stored : EightThree, stored.shown ≠ [] ∧ stored.shown = name

theorem named_joined {name : CString} {names : List CString} (isShown : IsShown name)
    (others : ∀ other ∈ names, IsShown other) :
    Named (name ++ joined slash names) (name :: names) := by
  obtain ⟨stored, visible, rfl⟩ := isShown
  induction names generalizing stored with
  | nil => simpa [joined] using Named.last visible
  | cons next rest inductionHypothesis =>
      obtain ⟨⟨nextStored, nextVisible, rfl⟩, later⟩ := List.forall_mem_cons.mp others
      have separated : ∀ c ∈ [slash], isSeparator c := List.forall_mem_singleton.mpr rfl
      have named : Named (stored.shown ++ ([slash] ++ (nextStored.shown ++ joined slash rest)))
          (stored.shown :: nextStored.shown :: rest) :=
        .step visible (List.cons_ne_nil slash []) separated
          (inductionHypothesis later nextStored nextVisible)
      exact named

/-- The path that has a separator before every name. -/
theorem pathTo_joined {names : List CString} (shown : ∀ name ∈ names, IsShown name) :
    PathTo (joined slash names) names := by
  cases names with
  | nil => exact .root (by simp [joined])
  | cons name rest =>
      obtain ⟨first, later⟩ := List.forall_mem_cons.mp shown
      have separated : ∀ c ∈ [slash], isSeparator c := List.forall_mem_singleton.mpr rfl
      have leads : PathTo ([slash] ++ (name ++ joined slash rest)) (name :: rest) :=
        .below separated (named_joined first later)
      exact leads

theorem IsShown.plain {name : CString} (isShown : IsShown name) : Plain slash name := by
  obtain ⟨stored, visible, rfl⟩ := isShown
  exact ⟨visible, stored.not_mem_shown (fun single => absurd single.unseparated (by decide))
    (by decide) (by decide) (by decide)⟩

/-- The outcomes of `follow_path`. -/
inductive FollowsPath (drive : Drive Disk) (limit : Nat) (Ready : Disk → Prop)
    (directory : List CString → Option (Table mount image)) (names : List CString)
    (fs : FatFs Disk) (after : Dir) : FResult → Prop where
  | origin (root : names = []) (sclust : after.obj.sclust = 0) (flag : after.nsFlag = nsNoname) :
      FollowsPath drive limit Ready directory names fs after .ok
  | follows {res : FResult} (below : names ≠ [])
      (follows : Follows drive limit Ready directory names fs after res) :
      FollowsPath drive limit Ready directory names fs after res
  | failed (failing : ¬ drive.Unfailing image limit Ready) :
      FollowsPath drive limit Ready directory names fs after .diskErr

/-- `follow_path` finds what the card lists at a path. -/
theorem followPath_spec (serves : drive.Serves image limit Ready) (fits : mount.Fits image)
    (holds : Holds card directory) (sound : fs.Sound image Ready mount) (dp : Dir)
    {path : CString} {names : List CString} (leads : PathTo path names) :
    let followed := followPath drive path dp fs
    followed.2.2.Sound image Ready mount ∧ followed.2.1.obj.fs = dp.obj.fs ∧
      FollowsPath drive limit Ready directory names followed.2.2 followed.2.1 followed.1 := by
  obtain ⟨root, isRoot, opens⟩ := holds.root
  dsimp only
  rw [followPath]
  cases leads with
  | root only =>
      have origin : path.dropWhile isSeparator = [] :=
        List.dropWhile_eq_nil_iff.mpr only
      have sets := dirSdi_spec serves fits sound
        { dp with obj := { dp.obj with sclust := 0 }, nsFlag := nsNoname } opens
        (Table.count_pos fits) (Nat.mul_zero 32).symm
      rw [origin]
      dsimp only
      rw [if_pos (by decide)]
      generalize dirSdi drive 0 _ fs = result at sets ⊢
      obtain ⟨res, after, fs⟩ := result
      obtain ⟨sound, moved, ⟨succeeds, -⟩ | ⟨fails, failing⟩⟩ := sets
      · dsimp only at succeeds moved sound ⊢
        subst succeeds
        exact ⟨sound, by rw [moved.obj], .origin rfl (by rw [moved.obj]) moved.nsFlag⟩
      · dsimp only at fails moved sound ⊢
        subst fails
        exact ⟨sound, by rw [moved.obj], .failed failing⟩
  | @below separators rest _ only named =>
      obtain ⟨c, others, isPath, printable, -⟩ := named.first
      have start : rest.getD 0 0 = c := by rw [isPath]; rfl
      rw [named.dropWhile_separators only]
      dsimp only
      rw [start, if_neg (by grind)]
      obtain ⟨sound, same, follows⟩ := followLoop_spec serves fits holds sound isRoot
        { dp with obj := { dp.obj with sclust := 0 } } opens named (Nat.le_refl _)
      exact ⟨sound, same, .follows named.names_ne_nil follows⟩

end DDSFunctionGen.Fat
