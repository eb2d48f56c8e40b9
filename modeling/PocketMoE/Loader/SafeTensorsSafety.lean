import PocketMoE.Lib.Except
import PocketMoE.Loader.SafeTensors

/-!
# When the safetensors reader is safe

`Safe` says that the reader throws or accepts tensors that lie in the file. The sum of the start of the
data and the end of a tensor is checked after it wrapped, and a number that rounds to 2^64 and a NaN
are converted all the same. `tensors_safe_iff` says for which headers that does no harm.
-/

namespace PocketMoE.Loader.SafeTensors
open PocketMoE.Lib PocketMoE.Server

/-! ## Numbers -/

/-- A number that the conversion takes for an integer. -/
def Rounds (number : Double) (n : Nat) : Prop :=
  ∃ units : Int, number = .finite units ∧ 0 ≤ units ∧ Double.round units = n ∧
    (units - n * Double.one).natAbs ≤ tiny

/-- A number that is converted though no 64-bit number is its integer part. -/
def Unfit (number : Double) : Prop := number = .nan ∨ Rounds number (2 ^ 64)

section
variable {number : Double} {key : String} {n : Nat}

lemma round_nonneg {units : Int} (nonneg : 0 ≤ units) : 0 ≤ Double.round units :=
  Int.mul_nonneg (Int.sign_nonneg_iff.mpr nonneg) (Int.natCast_nonneg _)

lemma u64_ok : jsonNumberToU64 number key = .ok n ↔ Rounds number n ∧ n < 2 ^ 64 := by
  unfold jsonNumberToU64 Rounds
  cases number with
  | nan => exact iff_of_false nofun (by rintro ⟨⟨_, ⟨⟩, -⟩, -⟩)
  | infinite negative => exact iff_of_false nofun (by rintro ⟨⟨_, ⟨⟩, -⟩, -⟩)
  | finite units =>
    simp only [Double.finite.injEq, exists_eq_left']
    split_ifs with thrown edge
    · refine iff_of_false nofun ?_
      rintro ⟨⟨nonneg, rounded, near⟩, small⟩
      rw [rounded] at thrown
      omega
    · refine iff_of_false nofun ?_
      rintro ⟨⟨-, rounded, -⟩, small⟩
      rw [rounded] at edge
      omega
    · rw [Except.ok.injEq]
      obtain ⟨nonneg, near, small⟩ : 0 ≤ units ∧
          (units - Double.round units * Double.one).natAbs ≤ tiny ∧ Double.round units ≤ 2 ^ 64 := by
        omega
      have rounded := round_nonneg nonneg
      constructor
      · rintro rfl
        rw [Int.toNat_of_nonneg rounded]
        exact ⟨⟨nonneg, rfl, near⟩, by omega⟩
      · rintro ⟨⟨-, same, -⟩, -⟩
        omega

lemma u64_undefined : jsonNumberToU64 number key = .error .undefined ↔ Unfit number := by
  unfold jsonNumberToU64 Unfit Rounds
  cases number with
  | nan => exact iff_of_true rfl (Or.inl rfl)
  | infinite negative => exact iff_of_false nofun (by rintro (⟨⟨⟩⟩ | ⟨_, ⟨⟩, -⟩))
  | finite units =>
    simp only [Double.finite.injEq, exists_eq_left', reduceCtorEq, false_or]
    have cast : ((2 ^ 64 : Nat) : Int) = 2 ^ 64 := rfl
    rw [cast]
    split_ifs with thrown edge
    · refine iff_of_false nofun ?_
      rintro ⟨nonneg, rounded, near⟩
      rw [rounded] at thrown
      omega
    · refine iff_of_true rfl ⟨by omega, edge, ?_⟩
      rw [edge] at thrown
      omega
    · exact iff_of_false nofun fun both => edge both.2.1

end

/-! ## Lists of numbers -/

/-- The items of an array of 64-bit numbers. -/
def Numbers (items : List JsonValue) (ns : List Nat) : Prop :=
  List.Forall₂ (fun item n => ∃ text, item = .number text ∧ Rounds (strtod text) n ∧ n < 2 ^ 64)
    items ns

/-- The first item of an array that is not converted to a 64-bit number is converted all the same. -/
def UnfitItem (items : List JsonValue) : Prop :=
  ∃ before text after ns, items = before ++ .number text :: after ∧ Numbers before ns ∧
    Unfit (strtod text)

section
variable {key : String} {items : List JsonValue} {ns : List Nat}

lemma item_ok {item : JsonValue} {n : Nat} : itemToU64 key item = .ok n ↔
    ∃ text, item = .number text ∧ Rounds (strtod text) n ∧ n < 2 ^ 64 := by
  unfold itemToU64
  cases item with
  | number text =>
    simp only [JsonValue.number.injEq, exists_eq_left']
    exact u64_ok
  | _ => exact iff_of_false nofun nofun

lemma item_undefined {item : JsonValue} : itemToU64 key item = .error .undefined ↔
    ∃ text, item = .number text ∧ Unfit (strtod text) := by
  unfold itemToU64
  cases item with
  | number text =>
    simp only [JsonValue.number.injEq, exists_eq_left']
    exact u64_undefined
  | _ => exact iff_of_false nofun nofun

lemma items_ok : items.mapM (itemToU64 key) = .ok ns ↔ Numbers items ns := by
  rw [mapM_ok]
  exact ⟨fun all => all.imp fun _ _ => item_ok.mp, fun all => all.imp fun _ _ => item_ok.mpr⟩

lemma items_undefined : items.mapM (itemToU64 key) = .error .undefined ↔ UnfitItem items := by
  rw [mapM_error]
  constructor
  · rintro ⟨before, item, after, rfl, oks, stop⟩
    obtain ⟨text, rfl, unfit⟩ := item_undefined.mp stop
    obtain ⟨ns, all⟩ := exists_forall₂.mpr oks
    exact ⟨before, text, after, ns, rfl, all.imp fun _ _ => item_ok.mp, unfit⟩
  · rintro ⟨before, text, after, ns, rfl, numbers, unfit⟩
    refine ⟨before, _, after, rfl, ?_, item_undefined.mpr ⟨text, rfl, unfit⟩⟩
    exact exists_forall₂.mp ⟨ns, numbers.imp fun _ _ => item_ok.mpr⟩

end

/-! ## The members of the header -/

/-- What a member says of a tensor. -/
def Describes (value : JsonValue) (dtype : SafeDType) (shape offsets : List Nat) : Prop :=
  ∃ obj s items items', value = .object obj ∧ objectGet obj "dtype" = some (.string s) ∧
    dtype = safeDtypeFromString s ∧ objectGet obj "shape" = some (.array items) ∧
    Numbers items shape ∧ objectGet obj "data_offsets" = some (.array items') ∧
    Numbers items' offsets

/-- An array of a member has an item that is converted without a result. -/
def UnfitMember (value : JsonValue) : Prop :=
  ∃ obj s items, value = .object obj ∧ objectGet obj "dtype" = some (.string s) ∧
    objectGet obj "shape" = some (.array items) ∧
    (UnfitItem items ∨ ∃ shape items', Numbers items shape ∧
      objectGet obj "data_offsets" = some (.array items') ∧ UnfitItem items')

/-- A member passes the checks of the reader. -/
def Passes (size dataStart : Nat) (value : JsonValue) (dataBegin dataEnd : Nat) : Prop :=
  ∃ dtype shape, Describes value dtype shape [dataBegin, dataEnd] ∧ dataBegin ≤ dataEnd ∧
    (dataStart + dataEnd) % 2 ^ 64 ≤ size ∧
    shape.prod * safeDtypeSize dtype % 2 ^ 64 = dataEnd - dataBegin

/-- A step stops with exceptions only. -/
def Throws {α : Type} (step : Except Stop α) : Prop :=
  ∀ stop, step = .error stop → ∃ e, stop = .exception e

lemma Throws.fail {α : Type} (e : SafeError) : Throws (SafeTensors.fail e : Except Stop α) :=
  fun _ eq => ⟨e, (Except.error.inj eq).symm⟩

lemma Throws.inBounds {α : Type} {step : Except Stop α} (throws : Throws step) :
    step ≠ .error .outOfBounds := by
  intro eq
  obtain ⟨e, other⟩ := throws _ eq
  cases other

lemma Throws.defined {α : Type} {step : Except Stop α} (throws : Throws step) :
    step ≠ .error .undefined := by
  intro eq
  obtain ⟨e, other⟩ := throws _ eq
  cases other

section
variable {obj : List (Bytes × JsonValue)} {key : String}

lemma string_ok {s : Bytes} : jsonRequiredString obj key = .ok s ↔
    objectGet obj key = some (.string s) := by
  unfold jsonRequiredString
  cases objectGet obj key with
  | none => exact iff_of_false nofun nofun
  | some value =>
    cases value with
    | string s' =>
      show Except.ok s' = Except.ok s ↔ _
      rw [Except.ok.injEq, Option.some.injEq, JsonValue.string.injEq]
    | _ => exact iff_of_false nofun nofun

lemma string_throws : Throws (jsonRequiredString obj key) := by
  unfold jsonRequiredString
  cases objectGet obj key with
  | none => exact Throws.fail _
  | some value =>
    cases value with
    | string s => exact fun _ => nofun
    | _ => exact Throws.fail _

lemma array_ok {ns : List Nat} : jsonRequiredU64Array obj key = .ok ns ↔
    ∃ items, objectGet obj key = some (.array items) ∧ Numbers items ns := by
  unfold jsonRequiredU64Array
  cases objectGet obj key with
  | none => exact iff_of_false nofun nofun
  | some value =>
    cases value with
    | array items =>
      simp only [Option.some.injEq, JsonValue.array.injEq, exists_eq_left']
      exact items_ok
    | _ => exact iff_of_false nofun nofun

lemma item_inBounds (item : JsonValue) : itemToU64 key item ≠ .error .outOfBounds := by
  unfold itemToU64
  cases item with
  | number text =>
    show jsonNumberToU64 (strtod text) key ≠ _
    unfold jsonNumberToU64
    cases strtod text with
    | finite units =>
      dsimp only
      split_ifs
      · nofun
      · nofun
      · nofun
    | _ => nofun
  | _ => nofun

lemma array_inBounds : jsonRequiredU64Array obj key ≠ .error .outOfBounds := by
  unfold jsonRequiredU64Array
  cases objectGet obj key with
  | none => nofun
  | some value =>
    cases value with
    | array items =>
      intro stop
      obtain ⟨_, item, _, -, -, eq⟩ := mapM_error.mp stop
      exact item_inBounds item eq
    | _ => nofun

lemma array_undefined : jsonRequiredU64Array obj key = .error .undefined ↔
    ∃ items, objectGet obj key = some (.array items) ∧ UnfitItem items := by
  unfold jsonRequiredU64Array
  cases objectGet obj key with
  | none => exact iff_of_false nofun nofun
  | some value =>
    cases value with
    | array items =>
      simp only [Option.some.injEq, JsonValue.array.injEq, exists_eq_left']
      exact items_undefined
    | _ => exact iff_of_false nofun nofun

end

section
variable {size dataStart : Nat} {entry : Bytes × JsonValue} {info : SafeTensorInfo}

lemma foldl_wrapping (shape : List Nat) (start : Nat) :
    shape.foldl (fun total dim => total * dim % 2 ^ 64) (start % 2 ^ 64) =
      start * shape.prod % 2 ^ 64 := by
  induction shape generalizing start with
  | nil => rw [List.prod_nil, Nat.mul_one, List.foldl_nil]
  | cons dim shape ih =>
    rw [List.foldl_cons, Nat.mod_mul_mod, List.prod_cons, ← Nat.mul_assoc]
    exact ih (start * dim)

lemma numel_eq (shape : List Nat) : safeTensorNumel shape = shape.prod % 2 ^ 64 := by
  have fold := foldl_wrapping shape 1
  rwa [Nat.one_mul] at fold

lemma place_ok {name : Bytes} {dtype : SafeDType} {shape offsets : List Nat} :
    place size dataStart name dtype shape offsets = .ok info ↔
      ∃ dataBegin dataEnd, offsets = [dataBegin, dataEnd] ∧ dataBegin ≤ dataEnd ∧
        (dataStart + dataEnd) % 2 ^ 64 ≤ size ∧
        shape.prod * safeDtypeSize dtype % 2 ^ 64 = dataEnd - dataBegin ∧
        info = ⟨name, dtype, shape, dataBegin, dataEnd, (dataStart + dataBegin) % 2 ^ 64,
          dataEnd - dataBegin⟩ := by
  unfold place fail
  split
  · rename_i dataBegin dataEnd
    have sum (le : dataBegin ≤ dataEnd) :
        ((dataStart + dataBegin) % 2 ^ 64 + (dataEnd - dataBegin)) % 2 ^ 64 =
          (dataStart + dataEnd) % 2 ^ 64 := by
      rw [Nat.mod_add_mod]
      congr 1
      omega
    have expected : safeTensorNumel shape * safeDtypeSize dtype % 2 ^ 64 =
        shape.prod * safeDtypeSize dtype % 2 ^ 64 := by
      rw [numel_eq, Nat.mod_mul_mod]
    simp only [List.cons.injEq, and_true, expected]
    constructor
    · intro eq
      split_ifs at eq with reversed behind other
      rw [Nat.not_lt] at reversed
      rw [sum reversed] at behind
      exact ⟨_, _, ⟨rfl, rfl⟩, reversed, Nat.not_lt.mp behind, not_not.mp other,
        (Except.ok.inj eq).symm⟩
    · rintro ⟨_, _, ⟨rfl, rfl⟩, le, inside, bytes, rfl⟩
      rw [if_neg (Nat.not_lt.mpr le), sum le, if_neg (Nat.not_lt.mpr inside),
        if_neg (not_not.mpr bytes)]
  · rename_i other
    refine iff_of_false nofun ?_
    rintro ⟨dataBegin, dataEnd, eq, -⟩
    exact other _ _ eq

lemma place_throws {name : Bytes} {dtype : SafeDType} {shape offsets : List Nat} :
    Throws (place size dataStart name dtype shape offsets) := by
  unfold place
  split
  · dsimp only
    split_ifs
    · exact Throws.fail _
    · exact Throws.fail _
    · exact Throws.fail _
    · exact fun _ => nofun
  · exact Throws.fail _

lemma tensor_ok : readTensor size dataStart entry = .ok info ↔
    ∃ dtype shape dataBegin dataEnd, Describes entry.2 dtype shape [dataBegin, dataEnd] ∧
      dataBegin ≤ dataEnd ∧ (dataStart + dataEnd) % 2 ^ 64 ≤ size ∧
      shape.prod * safeDtypeSize dtype % 2 ^ 64 = dataEnd - dataBegin ∧
      info = ⟨entry.1, dtype, shape, dataBegin, dataEnd, (dataStart + dataBegin) % 2 ^ 64,
        dataEnd - dataBegin⟩ := by
  unfold readTensor Describes
  cases entry.2 with
  | object obj =>
    simp only [asObject, bind_ok, Except.ok.injEq, exists_eq_left', string_ok, array_ok, place_ok]
    constructor
    · rintro ⟨s, type, shape, ⟨items, array, numbers⟩, _, ⟨items', array', numbers'⟩, dataBegin,
        dataEnd, rfl, le, inside, bytes, rfl⟩
      exact ⟨_, shape, dataBegin, dataEnd, ⟨obj, s, items, items', rfl, type, rfl, array, numbers,
        array', numbers'⟩, le, inside, bytes, rfl⟩
    · rintro ⟨_, shape, dataBegin, dataEnd, ⟨_, s, items, items', ⟨⟩, type, rfl, array, numbers,
        array', numbers'⟩, le, inside, bytes, rfl⟩
      exact ⟨s, type, shape, ⟨items, array, numbers⟩, _, ⟨items', array', numbers'⟩, dataBegin,
        dataEnd, rfl, le, inside, bytes, rfl⟩
  | _ =>
    refine iff_of_false nofun ?_
    rintro ⟨_, _, _, _, ⟨_, _, _, _, ⟨⟩, -⟩, -⟩

lemma tensor_undefined :
    readTensor size dataStart entry = .error .undefined ↔ UnfitMember entry.2 := by
  unfold readTensor UnfitMember
  cases entry.2 with
  | object obj =>
    simp only [asObject, error_bind, reduceCtorEq, false_or, Except.ok.injEq, exists_eq_left',
      string_throws.defined, place_throws.defined, and_false, exists_false, or_false, string_ok,
      array_undefined, array_ok]
    constructor
    · rintro ⟨s, type, ⟨items, array, unfit⟩ |
        ⟨shape, ⟨items, array, numbers⟩, items', array', unfit⟩⟩
      · exact ⟨obj, s, items, rfl, type, array, Or.inl unfit⟩
      · exact ⟨obj, s, items, rfl, type, array, Or.inr ⟨shape, items', numbers, array', unfit⟩⟩
    · rintro ⟨_, s, items, ⟨⟩, type, array, unfit | ⟨shape, items', numbers, array', unfit⟩⟩
      · exact ⟨s, type, Or.inl ⟨items, array, unfit⟩⟩
      · exact ⟨s, type, Or.inr ⟨shape, ⟨items, array, numbers⟩, items', array', unfit⟩⟩
  | _ =>
    refine iff_of_false nofun ?_
    rintro ⟨_, _, _, ⟨⟩, -⟩

lemma tensor_inBounds : readTensor size dataStart entry ≠ .error .outOfBounds := by
  unfold readTensor
  cases entry.2 with
  | object obj =>
    simp only [asObject, ne_eq, error_bind, reduceCtorEq, string_throws.inBounds, array_inBounds,
      place_throws.inBounds, and_false, exists_false, or_false, not_false_eq_true]
  | _ => nofun

lemma passes_iff : (∃ info, readTensor size dataStart entry = .ok info) ↔
    ∃ dataBegin dataEnd, Passes size dataStart entry.2 dataBegin dataEnd := by
  constructor
  · rintro ⟨info, read⟩
    obtain ⟨dtype, shape, dataBegin, dataEnd, describes, le, inside, bytes, -⟩ := tensor_ok.mp read
    exact ⟨dataBegin, dataEnd, dtype, shape, describes, le, inside, bytes⟩
  · rintro ⟨dataBegin, dataEnd, dtype, shape, describes, le, inside, bytes⟩
    exact ⟨_, tensor_ok.mpr ⟨dtype, shape, dataBegin, dataEnd, describes, le, inside, bytes, rfl⟩⟩

end

/-! ## The file -/

/-- The length of the header, as the file has it. -/
def headerLen (file : MappedFile) : Nat := leNat (file.bytes.take 8)

/-- A header of members stands in the file. -/
def Stands (file : MappedFile) (root : List (Bytes × JsonValue)) : Prop :=
  8 + headerLen file ≤ file.bytes.length ∧
    parseJson (headerText ((file.bytes.drop 8).take (headerLen file))) = .ok (.object root)

/-- The reader throws or returns tensors that lie in the file, and so does what is read of them. -/
structure Safe (file : MappedFile) : Prop where
  throws : ∀ stop, parse file = .error stop → ∃ e, stop = .exception e
  inside : ∀ shard, parse file = .ok shard → ∀ info ∈ shard.tensors,
    info.dataBegin ≤ info.dataEnd ∧ shard.dataStart + info.dataEnd ≤ file.bytes.length
  reads : ∀ shard, parse file = .ok shard → ∀ info ∈ shard.tensors,
    info.absoluteBegin + info.nbytes ≤ file.bytes.length

section
variable {file : MappedFile} {root : List (Bytes × JsonValue)}

lemma parse_stands (stands : Stands file root) :
    parse file = ((tensorEntries root).mapM (readTensor file.bytes.length (8 + headerLen file)) >>=
      fun tensors => pure ⟨headerLen file, 8 + headerLen file, tensors⟩) := by
  obtain ⟨inside, parsed⟩ := stands
  have small := file.small
  unfold headerLen at inside parsed
  unfold parse headerLen copyHeader stringMaxSize
  dsimp only
  generalize leNat (file.bytes.take 8) = len at inside parsed
  rw [if_neg (by omega), Nat.mod_eq_of_lt (by omega), if_neg (Nat.not_lt.mpr inside),
    if_neg (by omega), if_neg (Nat.not_lt.mpr inside)]
  show (parseHeader _ >>= _) = _
  unfold parseHeader
  rw [parsed]
  rfl

lemma parse_throws (other : ∀ root, ¬ Stands file root) :
    ∃ e, parse file = .error (.exception e) := by
  unfold parse copyHeader
  dsimp only
  split_ifs with short past long behind
  · exact ⟨_, rfl⟩
  · exact ⟨_, rfl⟩
  · exact ⟨_, rfl⟩
  · -- the length that fits did not wrap
    unfold stringMaxSize at long
    omega
  · show ∃ e, (parseHeader _ >>= _) = _
    unfold parseHeader
    cases parsed : parseJson (headerText ((file.bytes.drop 8).take (leNat (file.bytes.take 8)))) with
    | error msg => exact ⟨_, rfl⟩
    | ok value =>
      cases value with
      | object root => exact absurd ⟨Nat.not_lt.mp behind, parsed⟩ (other root)
      | _ => exact ⟨_, rfl⟩

lemma stands_of_ok {shard : SafeTensorsShard} (ok : parse file = .ok shard) :
    ∃ root, Stands file root := by
  by_contra none
  obtain ⟨e, thrown⟩ := parse_throws (not_exists.mp none)
  rw [thrown] at ok
  cases ok

/-- The reader is safe if no number is converted without a result before a member is thrown out, and,
if all members pass the checks, none ends where the sum with the start of the data wraps. -/
theorem tensors_safe_iff (file : MappedFile) :
    Safe file ↔ ∀ root, Stands file root →
      (∀ before entry after, tensorEntries root = before ++ entry :: after →
        (∀ e ∈ before, ∃ dataBegin dataEnd,
          Passes file.bytes.length (8 + headerLen file) e.2 dataBegin dataEnd) →
        ¬ UnfitMember entry.2) ∧
      ((∀ e ∈ tensorEntries root, ∃ dataBegin dataEnd,
          Passes file.bytes.length (8 + headerLen file) e.2 dataBegin dataEnd) →
        ∀ e ∈ tensorEntries root, ∀ dataBegin dataEnd,
          Passes file.bytes.length (8 + headerLen file) e.2 dataBegin dataEnd →
            8 + headerLen file + dataEnd < 2 ^ 64) := by
  constructor
  · intro safe root stands
    have run := parse_stands stands
    refine ⟨fun before entry after split passes unfit => ?_, fun all e mem dataBegin dataEnd => ?_⟩
    · have stop := mapM_error.mpr ⟨before, entry, after, split,
        fun e mem => passes_iff.mpr (passes e mem), tensor_undefined.mpr unfit⟩
      rw [stop] at run
      obtain ⟨x, other⟩ := safe.throws _ run
      cases other
    · rintro ⟨dtype, shape, describes, le, inside, bytes⟩
      obtain ⟨tensors, read⟩ := exists_forall₂.mpr fun e mem => passes_iff.mpr (all e mem)
      rw [mapM_ok.mpr read] at run
      obtain ⟨info, member, here⟩ := forall₂_mem read e mem
      rw [tensor_ok.mpr ⟨dtype, shape, dataBegin, dataEnd, describes, le, inside, bytes, rfl⟩,
        Except.ok.injEq] at here
      subst here
      have small := file.small
      have bound : 8 + headerLen file + dataEnd ≤ _ := (safe.inside _ run _ member).2
      omega
  · intro condition
    have inside : ∀ shard, parse file = .ok shard → ∀ info ∈ shard.tensors,
        info.dataBegin ≤ info.dataEnd ∧ shard.dataStart + info.dataEnd ≤ file.bytes.length ∧
          info.absoluteBegin + info.nbytes = shard.dataStart + info.dataEnd := by
      intro shard ok info mem
      obtain ⟨root, stands⟩ := stands_of_ok ok
      rw [parse_stands stands] at ok
      simp only [bind_ok, pure_ok, mapM_ok] at ok
      obtain ⟨tensors, read, rfl⟩ := ok
      obtain ⟨e, member, here⟩ := forall₂_mem read.flip info mem
      have all : ∀ e ∈ tensorEntries root, ∃ dataBegin dataEnd,
          Passes file.bytes.length (8 + headerLen file) e.2 dataBegin dataEnd :=
        fun e mem => passes_iff.mp (exists_forall₂.mp ⟨_, read⟩ e mem)
      obtain ⟨dtype, shape, dataBegin, dataEnd, describes, le, within, bytes, rfl⟩ :=
        tensor_ok.mp here
      have fits := (condition root stands).2 all e member dataBegin dataEnd
        ⟨dtype, shape, describes, le, within, bytes⟩
      rw [Nat.mod_eq_of_lt fits] at within
      refine ⟨le, within, ?_⟩
      dsimp only
      rw [Nat.mod_eq_of_lt (by omega)]
      omega
    refine ⟨fun stop failed => ?_, fun shard ok info mem => ?_, fun shard ok info mem => ?_⟩
    · by_cases header : ∃ root, Stands file root
      · obtain ⟨root, stands⟩ := header
        rw [parse_stands stands, error_bind] at failed
        rcases failed with stopped | ⟨_, -, other⟩
        · obtain ⟨before, entry, after, split, oks, here⟩ := mapM_error.mp stopped
          have converted := (condition root stands).1 before entry after split fun e mem =>
            passes_iff.mp (oks e mem)
          cases stop with
          | exception e => exact ⟨e, rfl⟩
          | outOfBounds => exact absurd here tensor_inBounds
          | undefined => exact absurd (tensor_undefined.mp here) converted
        · cases other
      · obtain ⟨e, thrown⟩ := parse_throws (not_exists.mp header)
        rw [thrown] at failed
        exact ⟨e, (Except.error.inj failed).symm⟩
    · obtain ⟨le, within, -⟩ := inside shard ok info mem
      exact ⟨le, within⟩
    · obtain ⟨-, within, sum⟩ := inside shard ok info mem
      exact sum ▸ within

end

/-- A shard with a header and nothing behind it. -/
def shardBytes (header : Bytes) : List Byte :=
  leBytes 8 header.length ++ header.map fun c => Fin.ofNat 256 c.toNat

/-- A tensor of 2^64 - 2048 bytes in a file of 2048, and an offset that rounds to 2^64. -/
theorem tensors_not_safe :
    let wide := "\x7b\"w\":\x7b\"dtype\":\"I8\",\"shape\":[18446744073709549568],".toList ++
      "\"data_offsets\":[0,18446744073709549568]\x7d\x7d".toList ++ List.replicate 1949 ' '
    let edge := "\x7b\"w\":\x7b\"dtype\":\"I8\",\"shape\":[0],".toList ++
      "\"data_offsets\":[0,18446744073709551615]\x7d\x7d".toList
    let wideFile : MappedFile := ⟨shardBytes wide, by decide +kernel⟩
    let edgeFile : MappedFile := ⟨shardBytes edge, by decide +kernel⟩
    parse wideFile = .ok ⟨2040, 2048, [⟨"w".toList, .i8, [2 ^ 64 - 2048], 0, 2 ^ 64 - 2048, 2048,
        2 ^ 64 - 2048⟩]⟩ ∧
      parse edgeFile = .error .undefined ∧ ¬ Safe wideFile ∧ ¬ Safe edgeFile := by
  intro wide edge wideFile edgeFile
  have accepts : parse wideFile = .ok ⟨2040, 2048, [⟨"w".toList, .i8, [2 ^ 64 - 2048], 0,
      2 ^ 64 - 2048, 2048, 2 ^ 64 - 2048⟩]⟩ := by decide +kernel
  have converts : parse edgeFile = .error .undefined := by decide +kernel
  have short : wideFile.bytes.length = 2048 := by decide +kernel
  refine ⟨accepts, converts, fun safe => ?_, fun safe => ?_⟩
  · have inside := (safe.inside _ accepts _ (List.mem_singleton_self _)).2
    rw [short] at inside
    exact absurd inside (by decide)
  · obtain ⟨e, other⟩ := safe.throws _ converts
    cases other

end PocketMoE.Loader.SafeTensors
