import PocketMoE.Loader.GgufAgreement

/-!
# The walks over the metadata

Besides `GGUFReader`, two programs walk over the metadata of a GGUF file: `read_gguf_metadata`
(`gguf_tokenizer.py`) and `_metadata_raw_bytes` (`make_routed_source_gguf.py`), which copies it. The
first one reads or skips the values as it is asked to; the second one skips everything, and `seek` goes
behind the end of a file without an error.

`declaredEnd` is where a section ends by its own lengths. Every walk that succeeds ends there, but the
copy is cut off at the end of the file (`agree_iff`).
-/

namespace PocketMoE.Loader.Python
open PocketMoE.Lib

/-! ## The tokenizer's walk -/

/-- What `read_gguf_metadata` keeps of a value. -/
inductive Kept where
  | scalar (value : PyValue)
  | items (values : List PyValue)

section
variable (bytes : List Byte)

/-- The items of an array that is kept. -/
def readItems (itemType length : Nat) : Read PyError (List PyValue) :=
  match metadataTypes itemType with
  | none => throw (.unsupportedType itemType)
  | some .string => do
    let items ← readMany (readString bytes) length
    return items.map .str
  | some .array => throw (.unsupportedType itemType)
  | some (.number kind) => do
    let items ← readMany (readStruct bytes kind.width) length
    return items.map (unpack kind)

/-- Over the items of an array that is not kept. -/
def skipItems (itemType length : Nat) : Read PyError Unit :=
  match metadataTypes itemType with
  | none => throw (.unsupportedType itemType)
  | some .string => do
    let _ ← readMany (skipString bytes) length
    return ()
  | some .array => throw (.unsupportedType itemType)
  | some (.number kind) => seek (length * kind.width)

/-- `_read_or_skip_value`. -/
def readOrSkipValue (valueType : Nat) (keep : Bool) : Read PyError (Option Kept) :=
  match metadataTypes valueType with
  | none => throw (.unsupportedType valueType)
  | some .string => do
    let s ← readString bytes
    return if keep then some (.scalar (.str s)) else none
  | some .array => do
    let itemType ← readStruct bytes 4
    let length ← readStruct bytes 8
    if keep then
      let items ← readItems bytes itemType length
      return some (.items items)
    else
      skipItems bytes itemType length
      return none
  | some (.number kind) => do
    let raw ← readStruct bytes kind.width
    return if keep then some (.scalar (unpack kind raw)) else none

/-- A round of `read_gguf_metadata`. -/
def readKeptEntry (keepArrays : List Text) (keepAllScalars : Bool) :
    Read PyError (Text × Option Kept) := do
  let key ← readString bytes
  let valueType ← readStruct bytes 4
  let keep := if metadataTypes valueType = some .array then decide (key ∈ keepArrays) else keepAllScalars
  let value ← readOrSkipValue bytes valueType keep
  return (key, value)

/-! ## The rewriter's walk -/

/-- `_METADATA_SCALAR_SIZES`. -/
def metadataScalarSizes : Nat → Option Nat
  | 0 => some 1
  | 1 => some 1
  | 2 => some 2
  | 3 => some 2
  | 4 => some 4
  | 5 => some 4
  | 6 => some 4
  | 7 => some 1
  | 10 => some 8
  | 11 => some 8
  | 12 => some 8
  | _ => none

/-- `_skip_metadata_value`; a round over the strings of an array is `_skip_string`. -/
def skipMetadataValue (valueType : Nat) : Read PyError Unit :=
  if valueType = 8 then skipString bytes
  else if valueType = 9 then do
    let itemType ← readStruct bytes 4
    let length ← readStruct bytes 8
    if itemType = 8 then
      let _ ← readMany (skipString bytes) length
      return ()
    else if itemType = 9 then throw .nestedArray
    else
      match metadataScalarSizes itemType with
      | none => throw (.unsupportedType itemType)
      | some size => seek (length * size)
  else
    match metadataScalarSizes valueType with
    | none => throw (.unsupportedType valueType)
    | some size => seek size

/-- A round of `_metadata_raw_bytes`. -/
def skipEntry : Read PyError Unit := do
  skipString bytes
  let valueType ← readStruct bytes 4
  skipMetadataValue bytes valueType

/-- `_metadata_raw_bytes`; `read` gives as much of the section as the file has. -/
def metadataRawBytes (metadataCount : Nat) : Except PyError (List Byte) :=
  if bytes.take 4 ≠ magic then .error .notGguf
  else
    match readMany (skipEntry bytes) metadataCount 24 with
    | .error e => .error e
    | .ok (_, metaEnd) => .ok ((bytes.drop 24).take (metaEnd - 24))

/-- The part of `GGUFReader.read` and of `read_gguf_metadata` from the version to the last entry. -/
def readMetadata {α : Type} (entry : Read PyError α) : Read PyError (List α) := do
  let _version ← readStruct bytes 4
  let _tensorCount ← readStruct bytes 8
  let metadataCount ← readStruct bytes 8
  readMany entry metadataCount

end

/-! ## The walks -/

/-- What stands before the metadata. -/
structure Preamble where
  version : Fin (2 ^ 32)
  tensorCount : Fin (2 ^ 64)
  metadataCount : Fin (2 ^ 64)

/-- The file with these bytes behind the counts. -/
def Preamble.file (p : Preamble) (rest : List Byte) : List Byte :=
  magic ++ (leBytes 4 p.version ++ (leBytes 8 p.tensorCount ++ (leBytes 8 p.metadataCount ++ rest)))

/-- The three walks. -/
inductive Walker where
  | reader
  | tokenizer (keepArrayKeys : List Text) (keepAllScalars : Bool)
  | rewriter

/-- How many bytes a walk takes behind the counts. -/
def Walker.consumed (p : Preamble) (rest : List Byte) : Walker → Except PyError Nat
  | .reader => do
    let (_, pos) ← readMetadata (p.file rest) (readEntry (p.file rest)) 4
    return pos - 24
  | .tokenizer keepArrayKeys keepAllScalars => do
    let entry := readKeptEntry (p.file rest) keepArrayKeys keepAllScalars
    let (_, pos) ← readMetadata (p.file rest) entry 4
    return pos - 24
  | .rewriter => do
    let raw ← metadataRawBytes (p.file rest) p.metadataCount
    return raw.length

/-- A walk that succeeds takes as much as one that succeeds on the same bytes, with nothing or something
behind them. -/
def Agree (p : Preamble) (rest : List Byte) : Prop :=
  ∀ (w w' : Walker) (more : List Byte) n n', w.consumed p (rest ++ more) = .ok n →
    w'.consumed p rest = .ok n' → n' = n

/-! ## The end that is declared -/

section
variable (bytes : List Byte)

/-- Over a number of bytes. -/
def skip (n : Nat) : Read PyError Unit := fun pos => .ok ((), pos + n)

/-- Over a string. -/
def declaredString : Read PyError Unit := do
  let n ← readStruct bytes 8
  skip n

/-- Over the items of an array. -/
def declaredItems (itemType length : Nat) : Read PyError Unit :=
  match metadataTypes itemType with
  | none => throw (.unsupportedType itemType)
  | some .string => do
    let _ ← readMany (declaredString bytes) length
    return ()
  | some .array => throw .nestedArray
  | some (.number kind) => skip (length * kind.width)

/-- Over a value. -/
def declaredValue (valueType : Nat) : Read PyError Unit :=
  match metadataTypes valueType with
  | none => throw (.unsupportedType valueType)
  | some .string => declaredString bytes
  | some .array => do
    let itemType ← readStruct bytes 4
    let length ← readStruct bytes 8
    declaredItems bytes itemType length
  | some (.number kind) => skip kind.width

/-- Over an entry. -/
def declaredEntry : Read PyError Unit := do
  declaredString bytes
  let valueType ← readStruct bytes 4
  declaredValue bytes valueType

end

/-- Where a section ends by its own lengths; it may be behind the end of the file. -/
def declaredEnd (p : Preamble) (rest : List Byte) : Except PyError Nat := do
  let (_, pos) ← readMany (declaredEntry (p.file rest)) p.metadataCount 24
  return pos

/-- Where a walk over a file can be; only `seek` goes behind the end of the file. -/
def Reached (bytes : List Byte) (pos : Nat) : Prop := pos ≤ bytes.length ∨ pos < 2 ^ 63

section
variable {bytes : List Byte}

lemma readExactly_iff {n i j : Nat} {data : List Byte} : readExactly bytes n i = .ok (data, j) ↔
    n ≤ (bytes.drop i).length ∧ data = (bytes.drop i).take n ∧ j = i + n := by
  unfold readExactly
  dsimp only
  rw [List.length_take]
  split_ifs with short
  · exact ⟨nofun, fun ⟨inside, _⟩ => absurd (Nat.min_eq_left inside) short⟩
  · have inside : n ≤ (bytes.drop i).length := by omega
    constructor
    · intro eq
      cases eq
      exact ⟨inside, rfl, rfl⟩
    · rintro ⟨-, rfl, rfl⟩
      rfl

lemma reached_exactly (n : Nat) :
    Follows (Reached bytes) (readExactly bytes n) (readExactly bytes n) Eq := by
  intro i data j place read
  obtain ⟨inside, -, rfl⟩ := readExactly_iff.mp read
  refine ⟨?_, data, read, rfl⟩
  rw [List.length_drop] at inside
  unfold Reached at place ⊢
  omega

lemma reached_struct (width : Nat) :
    Follows (Reached bytes) (readStruct bytes width) (readStruct bytes width) Eq := by
  apply (reached_exactly width).bind
  rintro data _ rfl
  exact .pure rfl

lemma follows_exactly (n : Nat) :
    Follows (Reached bytes) (readExactly bytes n) (skip n) fun _ _ => True := by
  intro i data j place read
  obtain ⟨place', -⟩ := reached_exactly n place read
  obtain ⟨-, -, rfl⟩ := readExactly_iff.mp read
  exact ⟨place', (), rfl, trivial⟩

lemma follows_struct (width : Nat) :
    Follows (Reached bytes) (readStruct bytes width) (skip width) fun _ _ => True := by
  exact .map (follows_exactly width)

lemma follows_seek (n : Nat) :
    Follows (Reached bytes) (seek n) (skip n) fun _ _ => True := by
  intro i u j _ read
  unfold seek at read
  split_ifs at read with large
  cases read
  exact ⟨Or.inr (Nat.lt_of_not_le large), (), rfl, trivial⟩

lemma follows_string :
    Follows (Reached bytes) (readString bytes) (declaredString bytes) fun _ _ => True := by
  exact .same (reached_struct 8) fun n => .map (follows_exactly n)

lemma follows_skipString :
    Follows (Reached bytes) (skipString bytes) (declaredString bytes) fun _ _ => True := by
  exact .same (reached_struct 8) fun n => follows_seek n

lemma follows_numbers (width n : Nat) :
    Follows (Reached bytes) (readMany (readStruct bytes width) n) (skip (n * width))
      fun _ _ => True := by
  induction n with
  | zero =>
    rw [Nat.zero_mul]
    rintro i a j place eq
    cases eq
    exact ⟨place, (), rfl, trivial⟩
  | succ n ih =>
    intro i a j place read
    obtain ⟨first, m, here, rest⟩ := run_bind_ok.mp read
    obtain ⟨others, m', there, last⟩ := run_bind_ok.mp rest
    obtain ⟨place, ⟨⟩, step, -⟩ := follows_struct width place here
    obtain ⟨place, ⟨⟩, steps, -⟩ := ih place there
    clear here there
    cases step
    cases steps
    cases last
    refine ⟨place, (), ?_, trivial⟩
    rw [Nat.succ_mul, Nat.add_comm (n * width), skip, Nat.add_assoc]

lemma follows_skipArray (itemType length : Nat) :
    Follows (Reached bytes) (skipArray bytes itemType length) (declaredItems bytes itemType length)
      fun _ _ => True := by
  unfold skipArray declaredItems
  cases metadataTypes itemType with
  | none => exact .throw
  | some type =>
    cases type with
    | number kind => exact follows_seek _
    | string => exact .map (.forget (.many follows_skipString length))
    | array => exact .throw

lemma follows_skipItems (itemType length : Nat) :
    Follows (Reached bytes) (skipItems bytes itemType length) (declaredItems bytes itemType length)
      fun _ _ => True := by
  unfold skipItems declaredItems
  cases metadataTypes itemType with
  | none => exact .throw
  | some type =>
    cases type with
    | number kind => exact follows_seek _
    | string => exact .map (.forget (.many follows_skipString length))
    | array => exact .throw

lemma follows_readItems (itemType length : Nat) :
    Follows (Reached bytes) (readItems bytes itemType length) (declaredItems bytes itemType length)
      fun _ _ => True := by
  unfold readItems declaredItems
  cases metadataTypes itemType with
  | none => exact .throw
  | some type =>
    cases type with
    | number kind => exact .map (follows_numbers _ length)
    | string => exact .map (.forget (.many follows_string length))
    | array => exact .throw

lemma follows_readValue (valueType : Nat) :
    Follows (Reached bytes) (readValue bytes valueType) (declaredValue bytes valueType)
      fun _ _ => True := by
  unfold readValue declaredValue
  cases metadataTypes valueType with
  | none => exact .throw
  | some type =>
    cases type with
    | number kind => exact .map (follows_struct _)
    | string => exact .map follows_string
    | array =>
      refine .same (reached_struct 4) fun itemType => .same (reached_struct 8) fun length => ?_
      exact .map (follows_skipArray itemType length)

lemma follows_readOrSkipValue (valueType : Nat) (keep : Bool) :
    Follows (Reached bytes) (readOrSkipValue bytes valueType keep) (declaredValue bytes valueType)
      fun _ _ => True := by
  unfold readOrSkipValue declaredValue
  cases metadataTypes valueType with
  | none => exact .throw
  | some type =>
    cases type with
    | number kind => exact .map (follows_struct _)
    | string => exact .map follows_string
    | array =>
      refine .same (reached_struct 4) fun itemType => .same (reached_struct 8) fun length => ?_
      cases keep with
      | true => exact .map (follows_readItems itemType length)
      | false => exact .map (follows_skipItems itemType length)

lemma metadataScalarSizes_eq {type : Nat} (string : type ≠ 8) (array : type ≠ 9) :
    metadataTypes type = none ∧ metadataScalarSizes type = none ∨
      ∃ kind : Kind, metadataTypes type = some (.number kind) ∧
        metadataScalarSizes type = some kind.width := by
  unfold metadataTypes metadataScalarSizes
  split
  case h_9 => exact absurd rfl string
  case h_10 => exact absurd rfl array
  case h_14 => exact Or.inl ⟨rfl, by split <;> first | rfl | contradiction⟩
  all_goals exact Or.inr ⟨_, rfl, rfl⟩

lemma follows_skipMetadataValue (valueType : Nat) :
    Follows (Reached bytes) (skipMetadataValue bytes valueType) (declaredValue bytes valueType)
      fun _ _ => True := by
  unfold skipMetadataValue
  split_ifs with string array
  · subst string
    exact follows_skipString
  · subst array
    refine .same (reached_struct 4) fun itemType => .same (reached_struct 8) fun length => ?_
    split_ifs with strings arrays
    · subst strings
      exact .map (.forget (.many follows_skipString length))
    · exact .throw
    · unfold declaredItems
      rcases metadataScalarSizes_eq strings arrays with ⟨type, size⟩ | ⟨kind, type, size⟩
      · rw [size]
        exact .throw
      · rw [type, size]
        exact follows_seek _
  · unfold declaredValue
    rcases metadataScalarSizes_eq string array with ⟨type, size⟩ | ⟨kind, type, size⟩
    · rw [size]
      exact .throw
    · rw [type, size]
      exact follows_seek _

lemma follows_readEntry :
    Follows (Reached bytes) (readEntry bytes) (declaredEntry bytes) fun _ _ => True := by
  exact .bind follows_string fun _ _ _ => .same (reached_struct 4) fun valueType =>
    .map (follows_readValue valueType)

lemma follows_readKeptEntry (keepArrays : List Text) (keepAllScalars : Bool) :
    Follows (Reached bytes) (readKeptEntry bytes keepArrays keepAllScalars) (declaredEntry bytes)
      fun _ _ => True := by
  exact .bind follows_string fun _ _ _ => .same (reached_struct 4) fun valueType =>
    .map (follows_readOrSkipValue valueType _)

lemma follows_skipEntry :
    Follows (Reached bytes) (skipEntry bytes) (declaredEntry bytes) fun _ _ => True := by
  exact .bind follows_skipString fun _ _ _ => .same (reached_struct 4) fun valueType =>
    follows_skipMetadataValue valueType

end

/-! ## A section that is cut off -/

section
variable {bytes : List Byte} (more : List Byte)

/-- Any place. -/
abbrev Anywhere (_ : Nat) : Prop := True

lemma more_exactly (n : Nat) :
    Follows Anywhere (readExactly bytes n) (readExactly (bytes ++ more) n) Eq := by
  intro i data j _ read
  obtain ⟨inside, rfl, rfl⟩ := readExactly_iff.mp read
  refine ⟨trivial, _, readExactly_iff.mpr ⟨?_, ?_, rfl⟩, rfl⟩
  · rw [List.drop_append, List.length_append]
    exact Nat.le_add_right_of_le inside
  · rw [List.drop_append, List.take_append_of_le_length inside]

lemma more_struct (width : Nat) :
    Follows Anywhere (readStruct bytes width) (readStruct (bytes ++ more) width) Eq := by
  apply (more_exactly more width).bind
  rintro data _ rfl
  exact .pure rfl

lemma more_string :
    Follows Anywhere (declaredString bytes) (declaredString (bytes ++ more)) Eq := by
  apply (more_struct more 8).bind
  rintro n _ rfl
  exact .refl (skip n)

lemma more_items (itemType length : Nat) :
    Follows Anywhere (declaredItems bytes itemType length)
      (declaredItems (bytes ++ more) itemType length) Eq := by
  unfold declaredItems
  cases metadataTypes itemType with
  | none => exact .throw
  | some type =>
    cases type with
    | number kind => exact .refl (skip _)
    | string => exact .bind (.many (more_string more) length) fun _ _ _ => .pure rfl
    | array => exact .throw

lemma more_value (valueType : Nat) :
    Follows Anywhere (declaredValue bytes valueType) (declaredValue (bytes ++ more) valueType) Eq := by
  unfold declaredValue
  cases metadataTypes valueType with
  | none => exact .throw
  | some type =>
    cases type with
    | number kind => exact .refl (skip _)
    | string => exact more_string more
    | array =>
      apply (more_struct more 4).bind
      rintro itemType _ rfl
      apply (more_struct more 8).bind
      rintro length _ rfl
      exact more_items more itemType length

lemma more_entry :
    Follows Anywhere (declaredEntry bytes) (declaredEntry (bytes ++ more)) Eq := by
  apply (more_string more).bind
  rintro _ _ rfl
  apply (more_struct more 4).bind
  rintro valueType _ rfl
  exact more_value more valueType

end

/-! ## What the copy skips -/

section
variable {bytes : List Byte} {stop : Nat}

lemma before_struct (width : Nat) :
    FollowsBefore stop (readStruct bytes width) (readStruct bytes width) Eq := by
  intro i n j read
  obtain ⟨data, m, here, last⟩ := run_bind_ok.mp read
  obtain ⟨-, -, rfl⟩ := readExactly_iff.mp here
  cases last
  exact ⟨Nat.le_add_right i width, fun _ => ⟨_, read, rfl⟩⟩

lemma before_skip (n : Nat) : FollowsBefore (2 ^ 63) (skip n) (seek n) fun _ _ => True := by
  intro i u j eq
  cases eq
  exact ⟨Nat.le_add_right i n, fun inside => ⟨(), if_neg (Nat.not_le.mpr inside), trivial⟩⟩

lemma before_bind {α β : Type} {width : Nat} {k : Nat → Read PyError α} {k' : Nat → Read PyError β}
    (rest : ∀ n, FollowsBefore stop (k n) (k' n) fun _ _ => True) :
    FollowsBefore stop (readStruct bytes width >>= k) (readStruct bytes width >>= k')
      fun _ _ => True := by
  refine (before_struct width).bind ?_ fun n => ⟨n, rfl⟩
  rintro n _ rfl
  exact rest n

lemma before_string :
    FollowsBefore (2 ^ 63) (declaredString bytes) (skipString bytes) fun _ _ => True := by
  exact before_bind before_skip

lemma before_strings (length : Nat) :
    FollowsBefore (2 ^ 63) (declaredItems bytes 8 length)
      (do let _ ← readMany (skipString bytes) length; return ()) fun _ _ => True := by
  refine (before_string.many ?_ length).bind (fun _ _ _ => .pure trivial) ?_
  · exact fun _ => ⟨(), trivial⟩
  · exact fun _ => ⟨[], trivial⟩

lemma before_value (valueType : Nat) :
    FollowsBefore (2 ^ 63) (declaredValue bytes valueType) (skipMetadataValue bytes valueType)
      fun _ _ => True := by
  unfold skipMetadataValue
  split_ifs with string array
  · subst string
    exact before_string
  · subst array
    refine before_bind fun itemType => before_bind fun length => ?_
    split_ifs with strings arrays
    · subst strings
      exact before_strings length
    · subst arrays
      exact .throw
    · unfold declaredItems
      rcases metadataScalarSizes_eq strings arrays with ⟨type, size⟩ | ⟨kind, type, size⟩
      · rw [type]
        exact .throw
      · rw [type, size]
        exact before_skip _
  · unfold declaredValue
    rcases metadataScalarSizes_eq string array with ⟨type, size⟩ | ⟨kind, type, size⟩
    · rw [type]
      exact .throw
    · rw [type, size]
      exact before_skip _

lemma before_entry :
    FollowsBefore (2 ^ 63) (declaredEntry bytes) (skipEntry bytes) fun _ _ => True := by
  refine before_string.bind (fun _ _ _ => ?_) fun _ => ⟨(), trivial⟩
  exact before_bind before_value

end

/-! ## Where the walks end -/

section
variable {p : Preamble} {rest : List Byte} {d n : Nat}

lemma length_file (p : Preamble) (rest : List Byte) : (p.file rest).length = 24 + rest.length := by
  simp only [Preamble.file, magic, List.length_append, List.length_cons, List.length_nil,
    length_leBytes]
  omega

lemma file_append (p : Preamble) (rest more : List Byte) :
    p.file (rest ++ more) = p.file rest ++ more := by
  simp only [Preamble.file, List.append_assoc]

lemma drop_file (p : Preamble) (rest : List Byte) : (p.file rest).drop 24 = rest := by
  unfold Preamble.file
  rw [← List.append_assoc, ← List.append_assoc, ← List.append_assoc]
  apply List.drop_left'
  simp only [magic, List.length_append, List.length_cons, List.length_nil, length_leBytes]

lemma take_magic (p : Preamble) (rest : List Byte) : (p.file rest).take 4 = magic := rfl

lemma readMetadata_eq {α : Type} (entry : Read PyError α) :
    readMetadata (p.file rest) entry 4 = readMany entry p.metadataCount 24 := by
  have whole : At (magic ++ (leBytes 4 p.version ++ (leBytes 8 p.tensorCount ++
      (leBytes 8 p.metadataCount ++ rest)))) (p.file rest) 0 := ⟨Nat.zero_le _, List.prefix_rfl⟩
  obtain ⟨-, behind⟩ := at_parts.mp whole
  obtain ⟨version, behind⟩ := at_parts.mp behind
  obtain ⟨tensorCount, behind⟩ := at_parts.mp behind
  obtain ⟨metadataCount, -⟩ := at_parts.mp behind
  simp only [length_leBytes] at tensorCount metadataCount
  have first := takes_struct 4 ⟨p.version.isLt, rfl⟩ version
  have second := takes_struct 8 ⟨p.tensorCount.isLt, rfl⟩ tensorCount
  have third := takes_struct 8 ⟨p.metadataCount.isLt, rfl⟩ metadataCount
  have start : 0 + magic.length = 4 := rfl
  rw [start, length_leBytes] at first second third
  unfold readMetadata
  rw [read_bind first, read_bind second, read_bind third]

lemma declaredEnd_iff : declaredEnd p rest = .ok d ↔
    ∃ entries, readMany (declaredEntry (p.file rest)) p.metadataCount 24 = .ok (entries, d) := by
  unfold declaredEnd
  cases readMany (declaredEntry (p.file rest)) p.metadataCount 24 with
  | error e => exact ⟨nofun, fun ⟨_, eq⟩ => nomatch eq⟩
  | ok walked =>
    constructor
    · intro eq
      cases eq
      exact ⟨walked.1, rfl⟩
    · rintro ⟨entries, eq⟩
      cases eq
      rfl

lemma declaredEnd_append (ends : declaredEnd p rest = .ok d) (more : List Byte) :
    declaredEnd p (rest ++ more) = .ok d := by
  obtain ⟨entries, walked⟩ := declaredEnd_iff.mp ends
  obtain ⟨-, entries', walked', -⟩ := Follows.many (more_entry more) p.metadataCount trivial walked
  rw [← file_append] at walked'
  exact declaredEnd_iff.mpr ⟨entries', walked'⟩

lemma walked_end {α : Type} {entry : Read PyError α} {values : List α}
    (follows : Follows (Reached (p.file rest)) entry (declaredEntry (p.file rest)) fun _ _ => True)
    (walked : readMany entry p.metadataCount 24 = .ok (values, d)) :
    declaredEnd p rest = .ok d ∧ (d ≤ 24 + rest.length ∨ d < 2 ^ 63) := by
  have start : Reached (p.file rest) 24 := Or.inr (by decide)
  obtain ⟨place, entries, ends, -⟩ := follows.many p.metadataCount start walked
  refine ⟨declaredEnd_iff.mpr ⟨entries, ends⟩, ?_⟩
  unfold Reached at place
  rwa [length_file] at place

lemma consumed_read {α : Type} {entry : Read PyError α}
    (walks : (do let (_, pos) ← readMetadata (p.file rest) entry 4; return pos - 24) = Except.ok n) :
    ∃ values d, readMany entry p.metadataCount 24 = .ok (values, d) ∧ n = d - 24 := by
  rw [readMetadata_eq] at walks
  cases walked : readMany entry p.metadataCount 24 with
  | error e =>
    rw [walked] at walks
    cases walks
  | ok pair =>
    rw [walked] at walks
    cases walks
    exact ⟨pair.1, pair.2, rfl, rfl⟩

lemma consumed_rewriter : Walker.rewriter.consumed p rest = .ok n ↔
    ∃ values d, readMany (skipEntry (p.file rest)) p.metadataCount 24 = .ok (values, d) ∧
      n = min (d - 24) rest.length := by
  unfold Walker.consumed metadataRawBytes
  dsimp only
  rw [take_magic, if_neg (not_not.mpr rfl), drop_file]
  cases readMany (skipEntry (p.file rest)) p.metadataCount 24 with
  | error e => exact ⟨nofun, fun ⟨_, _, eq, _⟩ => nomatch eq⟩
  | ok walked =>
    constructor
    · intro eq
      cases eq
      exact ⟨walked.1, walked.2, rfl, List.length_take ..⟩
    · rintro ⟨values, d, eq, rfl⟩
      cases eq
      show Except.ok _ = _
      rw [List.length_take]

lemma consumed_end {w : Walker} (walks : w.consumed p rest = .ok n) :
    ∃ d, declaredEnd p rest = .ok d ∧ (d ≤ 24 + rest.length ∨ d < 2 ^ 63) ∧
      (d ≤ 24 + rest.length → n = d - 24) := by
  cases w with
  | reader =>
    obtain ⟨values, d, walked, rfl⟩ := consumed_read walks
    obtain ⟨ends, reached⟩ := walked_end follows_readEntry walked
    exact ⟨d, ends, reached, fun _ => rfl⟩
  | tokenizer keepArrayKeys keepAllScalars =>
    obtain ⟨values, d, walked, rfl⟩ := consumed_read walks
    obtain ⟨ends, reached⟩ := walked_end (follows_readKeptEntry _ _) walked
    exact ⟨d, ends, reached, fun _ => rfl⟩
  | rewriter =>
    obtain ⟨values, d, walked, rfl⟩ := consumed_rewriter.mp walks
    obtain ⟨ends, reached⟩ := walked_end follows_skipEntry walked
    exact ⟨d, ends, reached, fun inside => Nat.min_eq_left (by omega)⟩

lemma rewriter_copies (ends : declaredEnd p rest = .ok d) (place : d < 2 ^ 63) :
    Walker.rewriter.consumed p rest = .ok (min (d - 24) rest.length) := by
  obtain ⟨entries, walked⟩ := declaredEnd_iff.mp ends
  obtain ⟨-, before⟩ := before_entry.many (fun _ => ⟨(), trivial⟩) p.metadataCount walked
  obtain ⟨values, walked', -⟩ := before place
  exact consumed_rewriter.mpr ⟨values, d, walked', rfl⟩

end

/-- The walks agree exactly on the sections that do not end behind the file by their own lengths, unless
the end is no place at all. -/
theorem agree_iff (p : Preamble) (rest : List Byte) :
    Agree p rest ↔
      ∀ d, declaredEnd p rest = .ok d → d ≤ 24 + rest.length ∨ 2 ^ 63 ≤ d := by
  constructor
  · intro agree d ends
    by_contra cut
    obtain ⟨behind, place⟩ := not_or.mp cut
    -- the copy of the whole section is longer than the one of what the file has
    let missing := List.replicate (d - (24 + rest.length)) (0 : Byte)
    have short := rewriter_copies ends (Nat.lt_of_not_le place)
    have whole := rewriter_copies (declaredEnd_append ends missing) (Nat.lt_of_not_le place)
    have same := agree .rewriter .rewriter missing _ _ whole short
    rw [List.length_append, List.length_replicate] at same
    omega
  · intro inside w w' more n n' walks walks'
    obtain ⟨d, ends, reached, taken⟩ := consumed_end walks'
    obtain ⟨e, ends', -, taken'⟩ := consumed_end walks
    rw [declaredEnd_append ends more] at ends'
    cases ends'
    have le : d ≤ 24 + rest.length := by
      rcases inside d ends with le | large
      · exact le
      · exact reached.resolve_right (Nat.not_lt.mpr large)
    rw [taken le, taken' (by rw [List.length_append]; omega)]

/-- A section with one entry, an array of four bytes, of which the file has two. -/
def cutArray : List Byte :=
  stringLayout [0x61] ++ (leBytes 4 9 ++ (leBytes 4 0 ++ (leBytes 8 4 ++ [1, 2])))

/-- The reader comes to the end of the array, the copy ends with the file. -/
theorem copy_cut : ¬ Agree ⟨3, 0, 1⟩ cutArray := by
  intro agree
  have reader : Walker.reader.consumed ⟨3, 0, 1⟩ (cutArray ++ []) = .ok 29 := by rfl
  have rewriter : Walker.rewriter.consumed ⟨3, 0, 1⟩ cutArray = .ok 27 := by rfl
  exact absurd (agree .reader .rewriter [] _ _ reader rewriter) (by decide)

end PocketMoE.Loader.Python
