import DDSFunctionGen.Fat.DirectoryObject

/-!
# Short names

An entry holds eleven bytes: a body of eight and an extension of three, filled up with
spaces. `create_name` makes them of a path segment, in upper case and in the double-byte
characters of code page 932; `get_fileinfo` makes a name of them again.
-/

namespace DDSFunctionGen.Fat

/-- `Dc932`, the ranges of the first and the second byte of a double-byte character. -/
def dbcTbl : List UInt8 := [0x81, 0x9F, 0xE0, 0xFC, 0x40, 0x7E, 0x80, 0xFC, 0x00, 0x00]

/-- A byte in the range that starts at entry `i` of `dbcTbl`. -/
def inRange (i : Nat) (c : UInt8) : Bool := dbcTbl.getD i 0 ≤ c && c ≤ dbcTbl.getD (i + 1) 0

/-- `dbc_1st` -/
def dbc1st (c : UInt8) : Bool :=
  dbcTbl.getD 0 0 ≤ c && (c ≤ dbcTbl.getD 1 0 || inRange 2 c)

/-- `dbc_2nd` -/
def dbc2nd (c : UInt8) : Bool :=
  dbcTbl.getD 4 0 ≤ c && (c ≤ dbcTbl.getD 5 0 || inRange 6 c || inRange 8 c)

/-- The characters that `create_name` rejects. -/
def illegalChars : List UInt8 :=
  [0x22, 0x2A, 0x2B, 0x2C, 0x3A, 0x3B, 0x3C, 0x3D, 0x3E, 0x3F, 0x5B, 0x5D, 0x7C, 0x7F]

/-- `IsLower` -/
def isLower (c : UInt8) : Bool := 0x61 ≤ c && c ≤ 0x7A

def toUpper (c : UInt8) : UInt8 := if isLower c then c - 0x20 else c

/-- Both separators of a path. -/
def isSeparator (c : UInt8) : Bool := c == 0x2F || c == 0x5C

/-- `NS_LAST` and `NS_NONAME`, flags of a name. -/
def nsLast : UInt8 := 0x04
def nsNoname : UInt8 := 0x80

/-- The loop of `create_name`: its result, `i`, `sfn`, the path behind the segment and the
character that ended it. -/
def createLoop :
    (path : List UInt8) → (i ni : Nat) → (sfn : List UInt8) →
      FResult × Nat × List UInt8 × List UInt8 × UInt8
  | [], i, _, sfn => (.ok, i, sfn, [], 0)
  | c :: path, i, ni, sfn =>
      -- Break if end of the path name
      if c ≤ 0x20 then (.ok, i, sfn, path, c)
      else if isSeparator c then (.ok, i, sfn, path.dropWhile isSeparator, c)
      else if c = 0x2E ∨ ni ≤ i then
        -- Field overflow or invalid dot?
        if ni = 11 ∨ c ≠ 0x2E then (.invalidName, i, sfn, path, c)
        else createLoop path 8 11 sfn
      else if dbc1st c then
        match path with
        | d :: path =>
            if dbc2nd d = false ∨ ni - 1 ≤ i then (.invalidName, i, sfn, path, c)
            else createLoop path (i + 2) ni ((sfn.set i c).set (i + 1) d)
        -- The end of the path is no second byte
        | [] => (.invalidName, i, sfn, [], c)
      else if illegalChars.contains c then (.invalidName, i, sfn, path, c)
      else createLoop path (i + 1) ni (sfn.set i (toUpper c))

/-- `create_name`: its result, the path that is left and the object with the name. -/
def createName (path : List UInt8) (dp : Dir) : FResult × List UInt8 × Dir :=
  let (res, i, sfn, rest, c) := createLoop path 0 8 (List.replicate 11 0x20)
  if res ≠ .ok then (res, path, { dp with fn := sfn })
  -- Reject nul string
  else if i = 0 then (.invalidName, rest, { dp with fn := sfn })
  else
    -- If the first character collides with DDEM, replace it with RDDEM
    let sfn := if sfn.getD 0 0 = ddem then sfn.set 0 rddem else sfn
    (.ok, rest, { dp with fn := sfn, nsFlag := if c ≤ 0x20 then nsLast else 0 })

/-- A byte that is stored as it is. -/
structure Single (c : UInt8) : Prop where
  printable : 0x20 < c
  unseparated : isSeparator c = false
  undotted : c ≠ 0x2E
  single : dbc1st c = false
  legal : illegalChars.contains c = false
  upper : isLower c = false

/-- The bytes of characters that a name may have. -/
inductive Characters : List UInt8 → Prop where
  | nil : Characters []
  | single {c : UInt8} {rest : List UInt8} (isSingle : Single c) (later : Characters rest) :
      Characters (c :: rest)
  | double {c d : UInt8} {rest : List UInt8} (first : dbc1st c) (second : dbc2nd d)
      (later : Characters rest) : Characters (c :: d :: rest)

/-- The bytes that an entry has for a body and an extension. -/
def layout (body ext : List UInt8) : List UInt8 :=
  body ++ List.replicate (8 - body.length) 0x20 ++ (ext ++ List.replicate (3 - ext.length) 0x20)

/-- A name that an entry can have. -/
structure EightThree where
  body : List UInt8
  ext : List UInt8
  bodyChars : Characters body
  extChars : Characters ext
  body_le : body.length ≤ 8
  ext_le : ext.length ≤ 3

namespace EightThree

variable (name : EightThree)

/-- The name in an entry. -/
def stored : List UInt8 :=
  let sfn := layout name.body name.ext
  if sfn.getD 0 0 = ddem then sfn.set 0 rddem else sfn

/-- The name in a path or a listing. -/
def shown : SdCard.CString := name.body ++ if name.ext = [] then [] else 0x2E :: name.ext

end EightThree

section Bytes

variable {c : UInt8}

theorem dbc1st_printable (first : dbc1st c) : 0x80 < c := by
  simp only [dbc1st, dbcTbl, inRange, List.getD_cons_zero, List.getD_cons_succ, Bool.and_eq_true,
    Bool.or_eq_true, decide_eq_true_eq] at first
  grind

theorem dbc2nd_printable (second : dbc2nd c) : 0x20 < c := by
  simp only [dbc2nd, dbcTbl, inRange, List.getD_cons_zero, List.getD_cons_succ, Bool.and_eq_true,
    Bool.or_eq_true, decide_eq_true_eq] at second
  grind

/-- A first byte neither ends a segment nor starts an extension. -/
theorem dbc1st_inside (first : dbc1st c) :
    ¬ c ≤ 0x20 ∧ isSeparator c = false ∧ c ≠ 0x2E := by
  have printable := dbc1st_printable first
  refine ⟨by grind, ?_, by grind⟩
  simp only [isSeparator, Bool.or_eq_false_iff, beq_eq_false_iff_ne]
  grind

/-- The capital letters are stored as they are. -/
theorem capital_single (least : 0x41 ≤ c) (most : c ≤ 0x5A) : Single c := by
  have outside : illegalChars.all fun illegal => illegal < 0x41 || 0x5A < illegal := by decide
  have legal : c ∉ illegalChars := fun member => by
    have apart := List.all_eq_true.mp outside c member
    grind
  refine ⟨by grind, ?_, by grind, ?_, by simpa using legal, ?_⟩
  · simp [isSeparator]
    grind
  · simp [dbc1st, dbcTbl, inRange]
    grind
  · simp [isLower]
    grind

/-- What `create_name` stores for a byte that it accepts. -/
theorem toUpper_single (printable : ¬ c ≤ 0x20) (unseparated : isSeparator c = false)
    (undotted : c ≠ 0x2E) (single : dbc1st c = false) (legal : illegalChars.contains c = false) :
    Single (toUpper c) := by
  by_cases lower : isLower c
  · rw [toUpper, if_pos lower]
    simp only [isLower, Bool.and_eq_true, decide_eq_true_eq] at lower
    exact capital_single (by grind) (by grind)
  · rw [toUpper, if_neg lower]
    exact ⟨by grind, unseparated, undotted, single, legal, by simpa using lower⟩

end Bytes

namespace Characters

variable {chars later : List UInt8}

theorem append (first : Characters chars) (second : Characters later) :
    Characters (chars ++ later) := by
  induction first with
  | nil => exact second
  | single isSingle _ inductionHypothesis => exact .single isSingle inductionHypothesis
  | double first second _ inductionHypothesis => exact .double first second inductionHypothesis

theorem printable (isName : Characters chars) : ∀ c ∈ chars, 0x20 < c := by
  induction isName with
  | nil => simp
  | single isSingle _ inductionHypothesis =>
      exact List.forall_mem_cons.mpr ⟨isSingle.printable, inductionHypothesis⟩
  | double first second _ inductionHypothesis =>
      have start := dbc1st_printable first
      exact List.forall_mem_cons.mpr ⟨by grind,
        List.forall_mem_cons.mpr ⟨dbc2nd_printable second, inductionHypothesis⟩⟩

end Characters

section Layout

variable {body ext : List UInt8} {c d : UInt8}

/-- The next byte of a body. -/
theorem layout_set_body (room : body.length < 8) :
    (layout body ext).set body.length c = layout (body ++ [c]) ext := by
  have spaces : 8 - body.length = 8 - (body.length + 1) + 1 := by omega
  simp [layout, spaces, List.replicate_succ]

/-- The next byte of an extension. -/
theorem layout_set_ext (fits : body.length ≤ 8) (room : ext.length < 3) :
    (layout body ext).set (8 + ext.length) c = layout body (ext ++ [c]) := by
  have spaces : 3 - ext.length = 3 - (ext.length + 1) + 1 := by omega
  have before : (body ++ List.replicate (8 - body.length) 0x20).length = 8 := by
    simp
    omega
  have behind : ¬ 8 + ext.length < (body ++ List.replicate (8 - body.length) 0x20).length := by
    omega
  have position : 8 + ext.length - (body ++ List.replicate (8 - body.length) 0x20).length =
    ext.length := by omega
  rw [layout, List.set_append, if_neg behind, position]
  simp [layout, spaces, List.replicate_succ]

/-- The next two bytes of a body. -/
theorem layout_setPair_body (room : body.length + 1 < 8) :
    ((layout body ext).set body.length c).set (body.length + 1) d =
      layout (body ++ [c, d]) ext := by
  have next := @layout_set_body (body ++ [c]) ext d
  simp only [List.length_append, List.length_singleton, List.append_assoc, List.cons_append,
    List.nil_append] at next
  rw [layout_set_body (by omega), next room]

/-- The next two bytes of an extension. -/
theorem layout_setPair_ext (fits : body.length ≤ 8) (room : ext.length + 1 < 3) :
    ((layout body ext).set (8 + ext.length) c).set (8 + ext.length + 1) d =
      layout body (ext ++ [c, d]) := by
  have next := @layout_set_ext body (ext ++ [c]) d fits
  simp only [List.length_append, List.length_singleton, List.append_assoc, List.cons_append,
    List.nil_append] at next
  rw [layout_set_ext fits (by omega), Nat.add_assoc, next room]

theorem length_layout (body_le : body.length ≤ 8) (ext_le : ext.length ≤ 3) :
    (layout body ext).length = 11 := by
  simp [layout]
  omega

end Layout

/-- The states of the loop of `create_name`: in the body, or in the extension. -/
inductive Stage : (i ni : Nat) → List UInt8 → Prop where
  | body {body : List UInt8} (chars : Characters body) (room : body.length ≤ 8) :
      Stage body.length 8 (layout body [])
  | ext {body ext : List UInt8} (bodyChars : Characters body) (body_le : body.length ≤ 8)
      (chars : Characters ext) (room : ext.length ≤ 3) : Stage (8 + ext.length) 11 (layout body ext)

namespace Stage

variable {i ni : Nat} {sfn path : List UInt8} {c d : UInt8}

/-- A byte that is stored in the field. -/
theorem store (stage : Stage i ni sfn) (room : i < ni) (isSingle : Single c) :
    Stage (i + 1) ni (sfn.set i c) := by
  have char : Characters [c] := .single isSingle .nil
  cases stage with
  | @body body chars _ =>
      have stored : Stage (body ++ [c]).length 8 (layout (body ++ [c]) []) :=
        .body (chars.append char) (by simp; omega)
      rwa [← layout_set_body room, List.length_append] at stored
  | @ext body ext bodyChars body_le chars _ =>
      have small : ext.length < 3 := by omega
      have stored : Stage (8 + (ext ++ [c]).length) 11 (layout body (ext ++ [c])) :=
        .ext bodyChars body_le (chars.append char) (by simp; omega)
      rwa [← layout_set_ext body_le small, List.length_append, ← Nat.add_assoc] at stored

/-- Both bytes of a character that are stored in the field. -/
theorem storePair (stage : Stage i ni sfn) (room : i + 1 < ni) (first : dbc1st c)
    (second : dbc2nd d) : Stage (i + 2) ni ((sfn.set i c).set (i + 1) d) := by
  have char : Characters [c, d] := .double first second .nil
  cases stage with
  | @body body chars _ =>
      have stored : Stage (body ++ [c, d]).length 8 (layout (body ++ [c, d]) []) :=
        .body (chars.append char) (by simp; omega)
      rwa [← layout_setPair_body room, List.length_append] at stored
  | @ext body ext bodyChars body_le chars _ =>
      have stored : Stage (8 + (ext ++ [c, d]).length) 11 (layout body (ext ++ [c, d])) := by
        refine .ext bodyChars body_le (chars.append char) ?_
        rw [List.length_append, List.length_cons, List.length_singleton]
        omega
      rwa [← layout_setPair_ext body_le (by omega), List.length_append, ← Nat.add_assoc] at stored

/-- The field after the dot. -/
theorem extend (stage : Stage i ni sfn) (dot : ni ≠ 11) : Stage 8 11 sfn := by
  cases stage with
  | body chars room => exact .ext chars room .nil (Nat.zero_le _)
  | ext => exact absurd rfl dot

end Stage

/-- The loop of `create_name` leaves a name, whatever the path. -/
theorem createLoop_stage {i ni : Nat} {path sfn : List UInt8} (stage : Stage i ni sfn) :
    ∃ field, Stage (createLoop path i ni sfn).2.1 field (createLoop path i ni sfn).2.2.1 := by
  fun_induction createLoop path i ni sfn with
  | case5 c path i ni sfn printable separated dot other inductionHypothesis =>
      exact inductionHypothesis (stage.extend fun full => other (.inl full))
  | case7 c i ni sfn printable separated inside first d path room inductionHypothesis =>
      obtain ⟨second, fits⟩ := not_or.mp room
      exact inductionHypothesis (stage.storePair (by omega) first (by simpa using second))
  | case10 c path i ni sfn printable separated inside other legal inductionHypothesis =>
      obtain ⟨undotted, room⟩ := not_or.mp inside
      exact inductionHypothesis (stage.store (by omega) (toUpper_single printable
        (by simpa using separated) undotted (by simpa using other) (by simpa using legal)))
  | _ => exact ⟨_, stage⟩

section Storing

variable {i ni : Nat} {sfn tail : List UInt8} {c d : UInt8}

/-- A pass over a byte that is stored as it is. -/
theorem createLoop_single (isSingle : Single c) (room : i < ni) :
    createLoop (c :: tail) i ni sfn = createLoop tail (i + 1) ni (sfn.set i c) := by
  have printable : ¬ c ≤ 0x20 := by
    have bound := isSingle.printable
    grind
  have inside : ¬ (c = 0x2E ∨ ni ≤ i) := not_or.mpr ⟨isSingle.undotted, by omega⟩
  have upper : toUpper c = c := by simp [toUpper, isSingle.upper]
  rw [createLoop.eq_def]
  dsimp only
  rw [if_neg printable, if_neg (by simp [isSingle.unseparated]), if_neg inside,
    if_neg (by simp [isSingle.single]), if_neg (by simp only [isSingle.legal]; decide), upper]

/-- A pass over a double-byte character. -/
theorem createLoop_double (first : dbc1st c) (second : dbc2nd d) (room : i + 1 < ni) :
    createLoop (c :: d :: tail) i ni sfn =
      createLoop tail (i + 2) ni ((sfn.set i c).set (i + 1) d) := by
  obtain ⟨printable, unseparated, undotted⟩ := dbc1st_inside first
  have inside : ¬ (c = 0x2E ∨ ni ≤ i) := not_or.mpr ⟨undotted, by omega⟩
  have fits : ¬ (dbc2nd d = false ∨ ni - 1 ≤ i) := not_or.mpr ⟨by simp [second], by omega⟩
  rw [createLoop, if_neg printable, if_neg (by simp [unseparated]), if_neg inside, if_pos first]
  exact if_neg fits

/-- The loop stores the characters of a body. -/
theorem createLoop_body {body chars : List UInt8} (isName : Characters chars)
    (room : body.length + chars.length ≤ 8) :
    createLoop (chars ++ tail) body.length 8 (layout body []) =
      createLoop tail (body ++ chars).length 8 (layout (body ++ chars) []) := by
  induction isName generalizing body with
  | nil => simp
  | @single c rest isSingle _ inductionHypothesis =>
      have later := @inductionHypothesis (body ++ [c]) (by grind)
      rw [List.cons_append, createLoop_single isSingle (by grind), layout_set_body (by grind)]
      simpa using later
  | @double c d rest first second _ inductionHypothesis =>
      have later := @inductionHypothesis (body ++ [c, d]) (by grind)
      rw [List.cons_append, List.cons_append, createLoop_double first second (by grind),
        layout_setPair_body (by grind)]
      simpa using later

/-- The loop stores the characters of an extension. -/
theorem createLoop_ext {body ext chars : List UInt8} (body_le : body.length ≤ 8)
    (isName : Characters chars) (room : ext.length + chars.length ≤ 3) :
    createLoop (chars ++ tail) (8 + ext.length) 11 (layout body ext) =
      createLoop tail (8 + (ext ++ chars).length) 11 (layout body (ext ++ chars)) := by
  induction isName generalizing ext with
  | nil => simp
  | @single c rest isSingle _ inductionHypothesis =>
      have later := @inductionHypothesis (ext ++ [c]) (by grind)
      rw [List.cons_append, createLoop_single isSingle (by grind),
        layout_set_ext body_le (by grind)]
      simpa [Nat.add_assoc] using later
  | @double c d rest first second _ inductionHypothesis =>
      have later := @inductionHypothesis (ext ++ [c, d]) (by grind)
      rw [List.cons_append, List.cons_append, createLoop_double first second (by grind),
        layout_setPair_ext body_le (by grind)]
      simpa [Nat.add_assoc] using later

/-- The end of a path or a separator ends the segment; its character tells which. -/
theorem createLoop_end (ends : ∀ c ∈ tail.head?, isSeparator c) :
    ∃ c, createLoop tail i ni sfn = (.ok, i, sfn, tail.dropWhile isSeparator, c) ∧
      (c ≤ 0x20 ↔ tail = []) := by
  cases tail with
  | nil => exact ⟨0, rfl, by decide⟩
  | cons c rest =>
      have separates : isSeparator c := ends c rfl
      have printable : ¬ c ≤ 0x20 := by
        simp only [isSeparator, Bool.or_eq_true, beq_iff_eq] at separates
        grind
      refine ⟨c, ?_, by simpa using printable⟩
      rw [createLoop.eq_def]
      dsimp only
      rw [if_neg printable, if_pos separates, List.dropWhile_cons_of_pos separates]

end Storing

namespace EightThree

variable (name : EightThree)

/-- The loop makes the bytes of a name of the name that is shown. -/
theorem createLoop_shown (tail : List UInt8) :
    ∃ i ni, createLoop (name.shown ++ tail) 0 8 (List.replicate 11 0x20) =
        createLoop tail i ni (layout name.body name.ext) ∧ (i = 0 → name.shown = []) := by
  have body := fun tail => @createLoop_body tail [] _ name.bodyChars (by simpa using name.body_le)
  have blank : layout [] [] = List.replicate 11 0x20 := rfl
  simp only [List.length_nil, List.nil_append, blank] at body
  by_cases noExt : name.ext = []
  · refine ⟨name.body.length, 8, ?_, ?_⟩
    · rw [shown, if_pos noExt, List.append_nil, body, noExt]
    · intro none
      rw [shown, if_pos noExt, List.append_nil]
      exact List.eq_nil_of_length_eq_zero none
  · have ext := @createLoop_ext tail _ [] _ name.body_le name.extChars (by simpa using name.ext_le)
    refine ⟨8 + name.ext.length, 11, ?_, fun none => absurd none (by omega)⟩
    simp only [List.length_nil, List.nil_append] at ext
    rw [shown, if_neg noExt, List.append_assoc, body, List.cons_append, createLoop.eq_def]
    dsimp only
    rw [if_neg (by decide), if_neg (by decide), if_pos (.inl rfl), if_neg (by decide), ext]

/-- `create_name` reads a name that is shown as the name that is stored. -/
theorem createName_shown (visible : name.shown ≠ []) {tail : List UInt8}
    (ends : ∀ c ∈ tail.head?, isSeparator c) (dp : Dir) :
    createName (name.shown ++ tail) dp =
      (.ok, tail.dropWhile isSeparator,
        { dp with fn := name.stored, nsFlag := if tail = [] then nsLast else 0 }) := by
  obtain ⟨i, ni, loop, none⟩ := name.createLoop_shown tail
  obtain ⟨c, ended, last⟩ := @createLoop_end i ni (layout name.body name.ext) tail ends
  rw [createName, loop, ended]
  dsimp only
  rw [if_neg (by decide), if_neg fun zero => visible (none zero), stored]
  simp only [last]

end EightThree

/-- Whatever name `create_name` makes is one that an entry can have. -/
theorem createName_stored {path : List UInt8} {dp : Dir} (succeeds : (createName path dp).1 = .ok) :
    ∃ name : EightThree, (createName path dp).2.2.fn = name.stored := by
  have start : Stage 0 8 (List.replicate 11 0x20) := .body .nil (Nat.zero_le _)
  obtain ⟨field, stage⟩ := @createLoop_stage 0 8 path _ start
  rw [createName] at succeeds ⊢
  generalize createLoop path 0 8 (List.replicate 11 0x20) = result at stage succeeds ⊢
  obtain ⟨res, i, sfn, rest, c⟩ := result
  dsimp only at stage succeeds ⊢
  split at succeeds
  · next failed => exact absurd succeeds failed
  split at succeeds
  · cases succeeds
  next accepted nonempty =>
    rw [if_neg accepted, if_neg nonempty]
    cases stage with
    | @body body chars room => exact ⟨⟨body, [], chars, .nil, room, Nat.zero_le _⟩, rfl⟩
    | @ext body ext bodyChars body_le chars room =>
        exact ⟨⟨body, ext, bodyChars, chars, body_le, room⟩, rfl⟩

section Showing

variable {body ext raw : List UInt8} {c : UInt8}

/-- What `get_fileinfo` appends for a byte, the dot apart. -/
def shownByte (c : UInt8) : List UInt8 := if c = 0x20 then [] else [if c = rddem then ddem else c]

/-- The name that `get_fileinfo` makes, a field after the other. -/
theorem entryName_eq {rest : List UInt8} (bodyLength : body.length = 8)
    (extLength : rest.length = 2) :
    entryName (body ++ c :: rest) = body.flatMap shownByte ++
      ((if c = 0x20 then [] else 0x2E :: shownByte c) ++ rest.flatMap shownByte) := by
  have positions : List.range 11 = [0, 1, 2, 3, 4, 5, 6, 7, 8, 9, 10] := by decide
  match body, rest, bodyLength, extLength with
  | [_, _, _, _, _, _, _, _], [_, _], _, _ =>
      by_cases blank : c = 0x20 <;>
        simp [entryName, nameChar, positions, shownByte, blank]

/-- The characters of a field are shown without the spaces after them. -/
theorem shown_field {chars : List UInt8} (isName : Characters chars) (spaces : Nat) :
    (chars ++ List.replicate spaces 0x20).flatMap shownByte = chars := by
  have none : (List.replicate spaces 0x20).flatMap shownByte = [] := by
    simp [List.flatMap_eq_nil_iff, List.mem_replicate, shownByte]
  have same : chars.flatMap shownByte = chars.flatMap fun c => [c] := by
    refine List.flatMap_congr fun c member => ?_
    have printable := isName.printable c member
    rw [shownByte, if_neg (by grind), if_neg (by simp only [rddem]; grind)]
  rw [List.flatMap_append, none, List.append_nil, same, List.flatMap_singleton']

/-- The first character is restored. -/
theorem shown_restored (marked : body.getD 0 0 = ddem) :
    (body.set 0 rddem).flatMap shownByte = body.flatMap shownByte := by
  cases body with
  | nil => rfl
  | cons first rest =>
      obtain rfl : first = ddem := marked
      rfl

end Showing

/-- What is shown of a body's bytes and an extension. -/
theorem entryName_fields {body ext front : List UInt8} (length : front.length = 8)
    (shows : front.flatMap shownByte = body) (extChars : Characters ext) (ext_le : ext.length ≤ 3) :
    entryName (front ++ (ext ++ List.replicate (3 - ext.length) 0x20)) =
      body ++ if ext = [] then [] else 0x2E :: ext := by
  have shownExt := shown_field extChars (3 - ext.length)
  cases ext with
  | nil =>
      have spaces : List.replicate 3 (0x20 : UInt8) = 0x20 :: List.replicate 2 0x20 := rfl
      rw [List.nil_append, List.length_nil, Nat.sub_zero, spaces,
        entryName_eq length List.length_replicate, shows]
      rfl
  | cons first rest =>
      have printable := extChars.printable first List.mem_cons_self
      have others : (rest ++ List.replicate (3 - (first :: rest).length) 0x20).length = 2 := by
        simp at ext_le ⊢
        omega
      rw [List.cons_append, List.flatMap_cons] at shownExt
      rw [List.cons_append, entryName_eq length others, shows, if_neg (by grind), List.cons_append,
        shownExt, if_neg (List.cons_ne_nil _ _)]

/-- `get_fileinfo` shows the name of an entry. -/
theorem EightThree.entryName_stored (name : EightThree) : entryName name.stored = name.shown := by
  have shows := shown_field name.bodyChars (8 - name.body.length)
  have length : (name.body ++ List.replicate (8 - name.body.length) 0x20).length = 8 := by
    have body_le := name.body_le
    simp
    omega
  rw [stored, layout, shown]
  generalize name.body ++ List.replicate (8 - name.body.length) 0x20 = front at shows length
  have first : ∀ ext, (front ++ ext).getD 0 0 = front.getD 0 0 := fun ext => by
    rw [List.getD_eq_getElem?_getD, List.getElem?_append_left (by omega),
      ← List.getD_eq_getElem?_getD]
  by_cases marked : front.getD 0 0 = ddem
  · rw [if_pos ((first _).trans marked), List.set_append_left _ _ (by omega)]
    exact entryName_fields (by simpa using length) ((shown_restored marked).trans shows)
      name.extChars name.ext_le
  · rw [if_neg (by rwa [first])]
    exact entryName_fields length shows name.extChars name.ext_le

/-- The names that `create_name` makes are those that it makes of what is shown of them, the
blank one apart. -/
theorem created_iff_readBack (dp : Dir) (raw : List UInt8) :
    (entryName raw ≠ [] ∧ ∃ path, (createName path dp).1 = .ok ∧ (createName path dp).2.2.fn = raw) ↔
      createName (entryName raw) dp = (.ok, [], { dp with fn := raw, nsFlag := nsLast }) := by
  constructor
  · rintro ⟨visible, path, succeeds, rfl⟩
    obtain ⟨name, stored⟩ := createName_stored succeeds
    rw [stored, name.entryName_stored] at visible ⊢
    have again := @name.createName_shown visible [] (by simp) dp
    rwa [List.append_nil, if_pos rfl] at again
  · intro readBack
    refine ⟨fun blank => ?_, entryName raw, by rw [readBack], by rw [readBack]⟩
    have rejects : (createName [] dp).1 = .invalidName := rfl
    rw [← blank, readBack] at rejects
    cases rejects

end DDSFunctionGen.Fat
