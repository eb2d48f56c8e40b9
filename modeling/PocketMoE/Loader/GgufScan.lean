import PocketMoE.Loader.GgufFile

/-!
# The parser accepts the layout of the header

`readHeader` accepts the texts that are the layout of a header, with either arithmetic, and otherwise
throws an exception (`scans_header`): no read goes past the end of the file, whatever the lengths in it.
The only sum of a length that could wrap is one with a length that no string can have.
-/

namespace PocketMoE.Loader
open PocketMoE.Lib

/-! ## Arithmetic that fits -/

section
variable {A : Arith} {a b : Nat}

lemma Arith.add_ok (fits : a + b < 2 ^ 64) : A.add a b = .ok (a + b) := by
  cases A with
  | wrapping => exact congrArg Except.ok (Nat.mod_eq_of_lt fits)
  | exact => exact if_pos fits

lemma Arith.sub_ok (le : b ≤ a) (fits : a < 2 ^ 64) : A.sub a b = .ok (a - b) := by
  cases A with
  | wrapping =>
    have eq : a + (2 ^ 64 - b) = a - b + 2 ^ 64 := by omega
    show Except.ok ((a + (2 ^ 64 - b)) % 2 ^ 64) = _
    rw [eq, Nat.add_mod_right, Nat.mod_eq_of_lt (by omega)]
  | exact => exact if_pos le

lemma Arith.mul_ok (fits : a * b < 2 ^ 64) : A.mul a b = .ok (a * b) := by
  cases A with
  | wrapping => exact congrArg Except.ok (Nat.mod_eq_of_lt fits)
  | exact => exact if_pos fits

end

/-! ## What is read -/

/-- How a parser stops: with an exception, if its arithmetic is that of the code. -/
def Expected (A : Arith) (e : Stop) : Prop := A = .wrapping → ∃ x, e = .exception x

/-- The value that is read for a value of the layout. -/
def Value.metadataValue : Value → MetadataValue
  | .number kind raw => kind.metadataValue raw
  | .string bytes => .string bytes
  | .numbers kind items => .vector kind items
  | .strings items => .strings items

/-- `metadata_`, for the metadata of a header. -/
def Header.metadataMap (h : Header) : Metadata :=
  (h.metadata.map fun entry => (entry.1, entry.2.metadataValue)).reverse

/-- The tensor that is read for a record. -/
def TensorRecord.info (A : Arith) (t : TensorRecord) : Except Stop GgufTensorInfo := do
  let nbytes ← ggmlTensorNbytes A t.typeId t.dimensions
  return { name := t.name, shape := t.dimensions, ggmlType := t.typeId,
           dtype := ggmlTypeToDtype t.typeId, offset := t.offset, nbytes }

section
variable (A : Arith) (file : MappedFile)

lemma scans_ensure {c : Prop} [Decidable c] (e : GgufError) :
    Scans file.bytes (Expected A) (ensure c e) fun l _ => l = [] ∧ c := by
  unfold ensure
  by_cases holds : c
  · rw [if_pos holds]
    exact (Scans.pure ()).congr fun l _ => and_congr_right fun _ => iff_of_true rfl holds
  · rw [if_neg holds]
    exact (Scans.throw fun _ => ⟨e, rfl⟩).congr fun l _ => iff_of_false id fun both => holds both.2

lemma copy_ok {cursor length : Nat} (inside : cursor + length ≤ file.bytes.length) :
    file.copy cursor length = .ok ((file.bytes.drop cursor).take length) := if_pos inside

lemma scans_scalar {width : Nat} (narrow : width ≤ 8) :
    Scans file.bytes (Expected A) (readScalar A file width) fun l n =>
      n < 256 ^ width ∧ l = leBytes width n := by
  have small := file.small
  refine Scans.congr (P := fun l n => l.length = width ∧ n = leNat l) ?_ fun l n => ?_
  · refine Scans.of_take (fun cursor inside => ?_) (fun cursor le outside => ?_)
    · unfold readScalar
      rw [Arith.add_ok (by omega)]
      show (if file.bytes.length < cursor + width then _ else _) = _
      rw [if_neg (Nat.not_lt.mpr inside), copy_ok file inside]
      rfl
    · refine ⟨.exception .pastEnd, ?_, fun _ => ⟨_, rfl⟩⟩
      unfold readScalar
      rw [Arith.add_ok (by omega)]
      exact if_pos outside
  · constructor
    · rintro ⟨rfl, rfl⟩
      exact ⟨leNat_lt l, (leBytes_leNat l).symm⟩
    · rintro ⟨lt, rfl⟩
      exact ⟨length_leBytes .., (leNat_leBytes width n lt).symm⟩

lemma scans_u32 : Scans file.bytes (Expected A) (readU32 A file) fun l n =>
    n < 2 ^ 32 ∧ l = leBytes 4 n :=
  scans_scalar A file (by decide)

lemma scans_u64 : Scans file.bytes (Expected A) (readU64 A file) fun l n =>
    n < 2 ^ 64 ∧ l = leBytes 8 n :=
  scans_scalar A file (by decide)

lemma scans_chars (len : Nat) : Scans file.bytes (Expected A) (readChars A file len) fun l b =>
    l.length = len ∧ b = l := by
  have small := file.small
  refine Scans.of_take (f := id) (fun cursor inside => ?_) (fun cursor le outside => ?_)
  · unfold readChars
    rw [Arith.add_ok (by omega)]
    show (if file.bytes.length < cursor + len then _ else if stringMaxSize < len then _ else _) = _
    have fits : ¬ stringMaxSize < len := by
      unfold stringMaxSize
      omega
    rw [if_neg (Nat.not_lt.mpr inside), if_neg fits, copy_ok file inside]
    rfl
  · unfold readChars
    by_cases fits : cursor + len < 2 ^ 64
    · refine ⟨.exception .stringPastEnd, ?_, fun _ => ⟨_, rfl⟩⟩
      rw [Arith.add_ok fits]
      exact if_pos outside
    · cases A with
      | exact => exact ⟨.wrapped, by rw [Arith.add, if_neg fits]; rfl, nofun⟩
      | wrapping =>
        have long : stringMaxSize < len := by
          unfold stringMaxSize
          omega
        by_cases behind : file.bytes.length < (cursor + len) % 2 ^ 64
        · exact ⟨.exception .stringPastEnd, if_pos behind, fun _ => ⟨_, rfl⟩⟩
        · refine ⟨.exception .lengthError, ?_, fun _ => ⟨_, rfl⟩⟩
          exact (if_neg behind).trans (if_pos long)

lemma scans_string : Scans file.bytes (Expected A) (readString A file) fun l b =>
    b.length < 2 ^ 64 ∧ l = stringLayout b := by
  refine (Scans.bind (scans_u64 A file) fun _ => scans_chars A file _).congr fun l b => ?_
  constructor
  · rintro ⟨_, _, _, rfl, ⟨lt, rfl⟩, rfl, rfl⟩
    exact ⟨lt, rfl⟩
  · rintro ⟨lt, rfl⟩
    exact ⟨_, b.length, b, rfl, ⟨lt, rfl⟩, rfl, rfl⟩

/-- The readings of the elements of an array. -/
def Elements (elemType count : Nat) (l : List Byte) (v : MetadataValue) : Prop :=
  (∃ kind items, elemType = kind.id ∧ items.length = count ∧ count ≤ vectorCapacity.numbers kind ∧
    (∀ raw ∈ items, raw < 256 ^ kind.width) ∧ l = items.flatMap (leBytes kind.width) ∧
    v = .vector kind items) ∨
  ∃ items : List (List Byte), elemType = 8 ∧ items.length = count ∧
    count ≤ vectorCapacity.strings ∧ (∀ bytes ∈ items, bytes.length < 2 ^ 64) ∧
    l = items.flatMap stringLayout ∧ v = .strings items

lemma scans_elements (elemType count : Nat) :
    Scans file.bytes (Expected A) (readElements A file elemType count)
      (Elements elemType count) := by
  unfold readElements
  cases other : Kind.ofId elemType with
  | some kind =>
    obtain rfl := Kind.ofId_iff.mp other
    refine (Scans.bind (scans_ensure A file _) fun _ => Scans.bind
      (Scans.many (scans_scalar A file kind.width_le) count) fun _ => Scans.pure _).congr
        fun l v => ?_
    constructor
    · rintro ⟨_, _, _, rfl, ⟨rfl, fits⟩, _, items, _, rfl, many, rfl, rfl⟩
      obtain ⟨length, all, rfl⟩ := many_self.mp many
      refine Or.inl ⟨kind, items, rfl, length, fits, all, ?_, rfl⟩
      rw [List.nil_append, List.append_nil]
    · rintro (⟨kind', items, same, length, fits, all, rfl, rfl⟩ | ⟨items, same, -⟩)
      · obtain rfl := Kind.id_inj same
        exact ⟨[], (), _, rfl, ⟨rfl, fits⟩, _, items, [], (List.append_nil _).symm,
          many_self.mpr ⟨length, all, rfl⟩, rfl, rfl⟩
      · cases kind with
        | _ => cases same
  | none =>
    dsimp only
    split_ifs with string
    · subst string
      refine (Scans.bind (scans_ensure A file _) fun _ => Scans.bind
        (Scans.many (scans_string A file) count) fun _ => Scans.pure _).congr fun l v => ?_
      constructor
      · rintro ⟨_, _, _, rfl, ⟨rfl, fits⟩, _, items, _, rfl, many, rfl, rfl⟩
        obtain ⟨length, all, rfl⟩ := many_self.mp many
        refine Or.inr ⟨items, rfl, length, fits, all, ?_, rfl⟩
        rw [List.nil_append, List.append_nil]
      · rintro (⟨kind, items, same, -⟩ | ⟨items, -, length, fits, all, rfl, rfl⟩)
        · exact absurd same.symm (Kind.id_ne other)
        · exact ⟨[], (), _, rfl, ⟨rfl, fits⟩, _, items, [], (List.append_nil _).symm,
            many_self.mpr ⟨length, all, rfl⟩, rfl, rfl⟩
    · refine (Scans.throw fun _ => ⟨_, rfl⟩).congr fun l v => iff_of_false id ?_
      rintro (⟨kind, items, same, -⟩ | ⟨items, same, -⟩)
      · exact Kind.id_ne other same.symm
      · exact string same

/-- The readings of a value whose type is known. -/
def Typed (valueType : Nat) (l : List Byte) (v : MetadataValue) : Prop :=
  ∃ value : Value, value.Fits vectorCapacity ∧ value.typeId = valueType ∧ l = value.body ∧
    v = value.metadataValue

lemma scans_array : Scans file.bytes (Expected A) (readArray A file) (Typed 9) := by
  refine (Scans.bind (scans_u32 A file) fun _ => Scans.bind (scans_u64 A file) fun _ =>
    scans_elements A file _ _).congr fun l v => ?_
  constructor
  · rintro ⟨_, _, _, rfl, ⟨-, rfl⟩, _, count, _, rfl, ⟨lt, rfl⟩, elements⟩
    rcases elements with ⟨kind, items, rfl, rfl, fits, all, rfl, rfl⟩ |
      ⟨items, rfl, rfl, fits, all, rfl, rfl⟩
    · exact ⟨.numbers kind items, ⟨lt, fits, all⟩, rfl, rfl, rfl⟩
    · exact ⟨.strings items, ⟨lt, fits, all⟩, rfl, rfl, rfl⟩
  · rintro ⟨value, fits, same, rfl, rfl⟩
    cases value with
    | number kind raw => exact absurd same (Kind.id_ne rfl)
    | string bytes => cases same
    | numbers kind items =>
      obtain ⟨lt, fits, all⟩ := fits
      exact ⟨_, kind.id, _, rfl, ⟨kind.id_lt, rfl⟩, _, items.length, _, rfl, ⟨lt, rfl⟩,
        Or.inl ⟨kind, items, rfl, rfl, fits, all, rfl, rfl⟩⟩
    | strings items =>
      obtain ⟨lt, fits, all⟩ := fits
      exact ⟨_, 8, _, rfl, ⟨by decide, rfl⟩, _, items.length, _, rfl, ⟨lt, rfl⟩,
        Or.inr ⟨items, rfl, rfl, fits, all, rfl, rfl⟩⟩

lemma scans_metadataValue (valueType : Nat) :
    Scans file.bytes (Expected A) (readMetadataValue A file valueType) (Typed valueType) := by
  unfold readMetadataValue
  cases other : Kind.ofId valueType with
  | some kind =>
    obtain rfl := Kind.ofId_iff.mp other
    refine (Scans.bind (scans_scalar A file kind.width_le) fun _ => Scans.pure _).congr
      fun l v => ?_
    constructor
    · rintro ⟨_, raw, _, rfl, ⟨fits, rfl⟩, rfl, rfl⟩
      exact ⟨.number kind raw, fits, rfl, List.append_nil _, rfl⟩
    · rintro ⟨value, fits, same, rfl, rfl⟩
      cases value with
      | number kind' raw =>
        obtain rfl := Kind.id_inj same
        exact ⟨_, raw, [], (List.append_nil _).symm, ⟨fits, rfl⟩, rfl, rfl⟩
      | _ =>
        cases kind with
        | _ => cases same
  | none =>
    dsimp only
    split_ifs with string array
    · subst string
      refine (Scans.bind (scans_string A file) fun _ => Scans.pure _).congr fun l v => ?_
      constructor
      · rintro ⟨_, b, _, rfl, ⟨fits, rfl⟩, rfl, rfl⟩
        exact ⟨.string b, fits, rfl, List.append_nil _, rfl⟩
      · rintro ⟨value, fits, same, rfl, rfl⟩
        cases value with
        | number kind raw => exact absurd same (Kind.id_ne other)
        | string bytes => exact ⟨_, bytes, [], (List.append_nil _).symm, ⟨fits, rfl⟩, rfl, rfl⟩
        | _ => cases same
    · subst array
      exact scans_array A file
    · refine (Scans.throw fun _ => ⟨_, rfl⟩).congr fun l v => iff_of_false id ?_
      rintro ⟨value, fits, same, rfl, rfl⟩
      cases value with
      | number kind raw => exact Kind.id_ne other same
      | string bytes => exact string same.symm
      | _ => exact array same.symm

lemma scans_entry : Scans file.bytes (Expected A) (readEntry A file) fun l e =>
    ∃ entry : List Byte × Value, (entry.1.length < 2 ^ 64 ∧ entry.2.Fits vectorCapacity) ∧
      l = entryLayout entry ∧ e = (entry.1, entry.2.metadataValue) := by
  refine (Scans.bind (scans_string A file) fun _ => Scans.bind (scans_u32 A file) fun _ =>
    Scans.bind (scans_metadataValue A file _) fun _ => Scans.pure _).congr fun l e => ?_
  constructor
  · rintro ⟨_, key, _, rfl, ⟨short, rfl⟩, _, _, _, rfl, ⟨-, rfl⟩, _, _, _, rfl,
      ⟨value, fits, rfl, rfl, rfl⟩, rfl, rfl⟩
    refine ⟨(key, value), ⟨short, fits⟩, ?_, rfl⟩
    rw [List.append_nil]
    rfl
  · rintro ⟨⟨key, value⟩, ⟨short, fits⟩, rfl, rfl⟩
    exact ⟨_, key, _, rfl, ⟨short, rfl⟩, _, value.typeId, _, rfl, ⟨value.typeId_lt, rfl⟩, _, _, [],
      (List.append_nil _).symm, ⟨value, fits, rfl, rfl, rfl⟩, rfl, rfl⟩

/-! ## Sizes of tensors, in the arithmetic of the code -/

lemma elementCount_wrapping (shape : List Nat) :
    ∃ n, tensorElementCount .wrapping shape = .ok n := by
  have fold : ∀ (shape : List Nat) (start : Nat), ∃ n, shape.foldlM Arith.wrapping.mul start =
      .ok n := by
    intro shape
    induction shape with
    | nil => exact fun start => ⟨start, rfl⟩
    | cons dim shape ih => exact fun start => ih _
  unfold tensorElementCount
  split_ifs
  · exact ⟨0, rfl⟩
  · exact fold shape 1

lemma nbytes_wrapping (ggmlType : Nat) (shape : List Nat) :
    ∃ n, ggmlTensorNbytes .wrapping ggmlType shape = .ok n := by
  obtain ⟨elems, eq⟩ := elementCount_wrapping shape
  unfold ggmlTensorNbytes
  rw [eq]
  show ∃ n, elementBytes .wrapping ggmlType elems = .ok n
  unfold elementBytes
  split
  all_goals exact ⟨_, rfl⟩

lemma scans_tensorInfo : Scans file.bytes (Expected A) (readTensorInfo A file) fun l info =>
    ∃ t : TensorRecord, t.Fits ∧ l = t.layout ∧ t.info A = .ok info := by
  have expected (ggmlType : Nat) (shape : List Nat) : ∀ e,
      ggmlTensorNbytes A ggmlType shape = .error e → Expected A e := by
    rintro e stop rfl
    obtain ⟨n, eq⟩ := nbytes_wrapping ggmlType shape
    rw [eq] at stop
    cases stop
  refine (Scans.bind (scans_string A file) fun _ => Scans.bind (scans_u32 A file) fun _ =>
    Scans.bind (Scans.many (scans_u64 A file) _) fun _ => Scans.bind (scans_u32 A file) fun _ =>
      Scans.bind (scans_u64 A file) fun _ => Scans.bind (Scans.lift (expected _ _)) fun _ =>
        Scans.pure _).congr fun l info => ?_
  constructor
  · rintro ⟨_, name, _, rfl, ⟨short, rfl⟩, _, nDims, _, rfl, ⟨few, rfl⟩, _, dims, _, rfl, many, _,
      type, _, rfl, ⟨small, rfl⟩, _, offset, _, rfl, ⟨near, rfl⟩, _, nbytes, _, rfl, ⟨rfl, size⟩,
      rfl, rfl⟩
    obtain ⟨rfl, all, rfl⟩ := many_self.mp many
    refine ⟨⟨name, dims, type, offset⟩, ⟨short, few, all, small, near⟩, ?_, ?_⟩
    · simp only [List.append_nil]
      rfl
    · unfold TensorRecord.info
      dsimp only
      rw [size]
      rfl
  · rintro ⟨⟨name, dims, type, offset⟩, ⟨short, few, all, small, near⟩, rfl, size⟩
    unfold TensorRecord.info at size
    dsimp only at size
    cases nbytes : ggmlTensorNbytes A type dims with
    | error e =>
      rw [nbytes] at size
      cases size
    | ok n =>
      rw [nbytes] at size
      cases size
      exact ⟨_, name, _, rfl, ⟨short, rfl⟩, _, dims.length, _, rfl, ⟨few, rfl⟩, _, dims, _, rfl,
        many_self.mpr ⟨rfl, all, rfl⟩, _, type, _, rfl, ⟨small, rfl⟩, _, offset, [],
        (List.append_nil _).symm, ⟨near, rfl⟩, [], n, [], rfl, ⟨rfl, nbytes⟩, rfl, rfl⟩

/-! ## The header -/

/-- A header and what is read for it. -/
def ReadsHeader (l : List Byte) (result : Nat × Metadata × List GgufTensorInfo) : Prop :=
  ∃ h : Header, h.Fits vectorCapacity ∧ l = h.layout ∧ result.1 = h.version ∧
    result.2.1 = h.metadataMap ∧
    List.Forall₂ (fun t info => TensorRecord.info A t = .ok info) h.tensors result.2.2

theorem scans_header : Scans file.bytes (Expected A) (readHeader A file) (ReadsHeader A) := by
  refine (Scans.bind (scans_u32 A file) fun _ => Scans.bind (scans_ensure A file _) fun _ =>
    Scans.bind (scans_u32 A file) fun _ => Scans.bind (scans_ensure A file _) fun _ =>
    Scans.bind (scans_u64 A file) fun _ => Scans.bind (scans_u64 A file) fun _ =>
    Scans.bind (Scans.many (scans_entry A file) _) fun _ =>
    Scans.bind (scans_ensure A file _) fun _ =>
    Scans.bind (Scans.many (scans_tensorInfo A file) _) fun _ => Scans.pure _).congr
      fun l result => ?_
  have entries {n : Nat} {l : List Byte} {es : List (List Byte × MetadataValue)} :
      Many _ n l es ↔ _ := many_iff (fun (l : List Byte) (e : List Byte × MetadataValue) =>
      Iff.rfl (a := ∃ entry : List Byte × Value, (entry.1.length < 2 ^ 64 ∧
        entry.2.Fits vectorCapacity) ∧ l = entryLayout entry ∧
          e = (entry.1, entry.2.metadataValue)))
  have tensors {n : Nat} {l : List Byte} {infos : List GgufTensorInfo} :
      Many _ n l infos ↔ _ := many_iff (fun (l : List Byte) (info : GgufTensorInfo) =>
      Iff.rfl (a := ∃ t : TensorRecord, t.Fits ∧ l = t.layout ∧ t.info A = .ok info))
  constructor
  · rintro ⟨_, _, _, rfl, ⟨-, rfl⟩, _, _, _, rfl, ⟨rfl, rfl⟩, _, version, _, rfl, ⟨-, rfl⟩, _, _, _,
      rfl, ⟨rfl, supported⟩, _, count, _, rfl, ⟨lt, rfl⟩, _, number, _, rfl, ⟨few, rfl⟩, _, es, _,
      rfl, manyEntries, _, _, _, rfl, ⟨rfl, fits⟩, _, infos, _, rfl, manyTensors, rfl, rfl⟩
    obtain ⟨metadata, rfl, wf, rfl, reads⟩ := entries.mp manyEntries
    obtain rfl := forall₂_map.mp reads
    obtain ⟨records, rfl, all, rfl, infos⟩ := tensors.mp manyTensors
    refine ⟨⟨version, metadata, records⟩, ⟨?_, few, wf, ⟨lt, fits⟩, all⟩, ?_, rfl, rfl, infos⟩
    · dsimp only
      omega
    · simp only [List.nil_append, List.append_nil]
      rfl
  · rintro ⟨⟨version, metadata, records⟩, ⟨supported, few, wf, ⟨lt, fits⟩, all⟩, rfl, same, map,
      infos⟩
    obtain ⟨version', map', infos'⟩ := result
    cases same
    cases map
    have small : version < 2 ^ 32 := by
      dsimp only at supported
      omega
    refine ⟨_, kGgufMagic, _, rfl, ⟨by decide, rfl⟩, [], (), _, rfl, ⟨rfl, rfl⟩, _, version, _, rfl,
      ⟨small, rfl⟩, [], (), _, rfl, ⟨rfl, ?_⟩, _, records.length, _, rfl, ⟨lt, rfl⟩, _,
      metadata.length, _, rfl, ⟨few, rfl⟩, _, _, _, rfl, entries.mpr ⟨metadata, rfl, wf, rfl,
      forall₂_map.mpr rfl⟩, [], (), _, rfl, ⟨rfl, fits⟩, _, infos', [], (List.append_nil _).symm,
      tensors.mpr ⟨records, rfl, all, rfl, infos⟩, rfl, rfl⟩
    dsimp only at supported
    omega

end

end PocketMoE.Loader
