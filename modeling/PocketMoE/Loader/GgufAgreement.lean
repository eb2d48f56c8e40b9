import PocketMoE.Loader.GgufReader
import PocketMoE.Loader.GgufSafety

/-!
# When the two GGUF readers agree

Both readers take the same header from a file that the C++ parser accepts. What they report of a tensor
is the same exactly if its name is UTF-8, both begin the data at the same place, and its type is in both
tables and its size computed without wrapping (`agrees_iff`).
-/

namespace PocketMoE.Loader
open PocketMoE.Lib Python

/-! ## What Python reads -/

/-- The value that Python reads for a value of the layout. -/
def Value.pyValue : Value → PyValue
  | .number kind raw => unpack kind raw
  | .string bytes => .str (decodeUtf8 bytes)
  | .numbers kind items => .summary kind.id items.length
  | .strings items => .summary 8 items.length

/-- The metadata that Python reads for a header. -/
def Header.pyMetadata (h : Header) : List (Text × PyValue) :=
  (h.metadata.map fun entry => (decodeUtf8 entry.1, entry.2.pyValue)).reverse

/-- The record that Python reads. -/
def TensorRecord.pyRecord (t : TensorRecord) : Text × List Nat × Nat × Nat :=
  (decodeUtf8 t.name, t.dimensions, t.typeId, t.offset)

lemma metadataTypes_number (kind : Kind) : metadataTypes kind.id = some (.number kind) := by
  cases kind with
  | _ => rfl

section
variable {bytes : List Byte}

lemma takes_exactly (n : Nat) :
    Takes bytes (readExactly bytes n) fun l b => l.length = n ∧ b = l := by
  rintro i b l ⟨rfl, rfl⟩ here
  obtain ⟨inside, eq⟩ := at_iff_take.mp here
  unfold readExactly
  dsimp only
  rw [eq, if_neg (not_not.mpr rfl)]

lemma takes_struct (width : Nat) :
    Takes bytes (readStruct bytes width) fun l n => n < 256 ^ width ∧ l = leBytes width n := by
  refine (Takes.bind (takes_exactly width) fun _ => Takes.pure _).of_imp fun l n => ?_
  rintro ⟨fits, rfl⟩
  refine ⟨_, _, [], (List.append_nil _).symm, ⟨length_leBytes .., rfl⟩, rfl, ?_⟩
  exact (leNat_leBytes width n fits).symm

lemma takes_string : Takes bytes (Python.readString bytes) fun l s =>
    ∃ b : List Byte, b.length < 2 ^ 64 ∧ l = stringLayout b ∧ s = decodeUtf8 b := by
  refine (Takes.bind (takes_struct 8) fun _ => Takes.bind (takes_exactly _) fun _ =>
    Takes.pure _).of_imp fun l s => ?_
  rintro ⟨b, short, rfl, rfl⟩
  exact ⟨_, b.length, b, rfl, ⟨short, rfl⟩, b, b, [], (List.append_nil _).symm, ⟨rfl, rfl⟩, rfl, rfl⟩

lemma takes_seek (small : bytes.length < 2 ^ 63) (n : Nat) :
    Takes bytes (seek n) fun l _ => l.length = n := by
  rintro i ⟨⟩ l rfl here
  have inside := here.length_le
  exact if_neg (by omega)

lemma takes_skipString (small : bytes.length < 2 ^ 63) :
    Takes bytes (skipString bytes) fun l _ =>
      ∃ b : List Byte, b.length < 2 ^ 64 ∧ l = stringLayout b := by
  refine (Takes.bind (takes_struct 8) fun _ => takes_seek small _).of_imp fun l _ => ?_
  rintro ⟨b, short, rfl⟩
  exact ⟨_, b.length, b, rfl, ⟨short, rfl⟩, rfl⟩

lemma takes_skipNumbers (small : bytes.length < 2 ^ 63) (kind : Kind) (length : Nat) :
    Takes bytes (skipArray bytes kind.id length) fun l _ =>
      ∃ items : List Nat, items.length = length ∧ l = items.flatMap (leBytes kind.width) := by
  rintro i ⟨⟩ l ⟨items, rfl, rfl⟩ here
  unfold skipArray
  rw [metadataTypes_number]
  refine takes_seek small _ ?_ here
  dsimp only
  rw [List.length_flatMap, List.map_congr_left fun raw _ => length_leBytes kind.width raw,
    List.map_const', List.sum_replicate_nat]

lemma takes_skipStrings (small : bytes.length < 2 ^ 63) (length : Nat) :
    Takes bytes (skipArray bytes 8 length) fun l _ => ∃ items : List (List Byte),
      items.length = length ∧ (∀ b ∈ items, b.length < 2 ^ 64) ∧
        l = items.flatMap stringLayout := by
  rintro i ⟨⟩ l ⟨items, rfl, all, rfl⟩ here
  have rounds := Takes.bind (Takes.many (takes_skipString small) items.length) fun _ =>
    Takes.pure (ε := PyError) (s := bytes) ()
  have texts : Many (fun l _ => ∃ b : List Byte, b.length < 2 ^ 64 ∧ l = stringLayout b)
      items.length (items.flatMap stringLayout) (items.map fun _ => ()) := by
    refine (many_iff (W := fun b : List Byte => b.length < 2 ^ 64) (f := stringLayout)
      (G := fun _ a => a = ()) fun l a => ?_).mpr ⟨items, rfl, all, rfl, forall₂_map.mpr rfl⟩
    exact exists_congr fun b => and_congr_right fun _ => (and_iff_left rfl).symm
  exact rounds ⟨_, _, [], (List.append_nil _).symm, texts, rfl, rfl⟩ here

/-- The elements of an array. -/
def ArrayText (itemType length : Nat) (l : List Byte) : Prop :=
  (∃ (kind : Kind) (items : List Nat), itemType = kind.id ∧ items.length = length ∧
    l = items.flatMap (leBytes kind.width)) ∨
  itemType = 8 ∧ ∃ items : List (List Byte), items.length = length ∧
    (∀ b ∈ items, b.length < 2 ^ 64) ∧ l = items.flatMap stringLayout

lemma takes_skipArray (small : bytes.length < 2 ^ 63) (itemType length : Nat) :
    Takes bytes (skipArray bytes itemType length) fun l _ => ArrayText itemType length l := by
  rintro i ⟨⟩ l (⟨kind, items, rfl, numbers⟩ | ⟨rfl, strings⟩) here
  · exact takes_skipNumbers small kind length ⟨items, numbers⟩ here
  · exact takes_skipStrings small length strings here

lemma takes_summary (small : bytes.length < 2 ^ 63) :
    Takes bytes (readSummary bytes) fun l v => ∃ value : Value, value.Fits vectorCapacity ∧
      value.typeId = 9 ∧ l = value.body ∧ v = value.pyValue := by
  refine (Takes.bind (takes_struct 4) fun _ => Takes.bind (takes_struct 8) fun _ =>
    Takes.bind (takes_skipArray small _ _) fun _ => Takes.pure _).of_imp fun l v => ?_
  rintro ⟨value, fits, same, rfl, rfl⟩
  cases value with
  | number kind raw => exact absurd same (Kind.id_ne rfl)
  | string b => cases same
  | numbers kind items =>
    exact ⟨_, kind.id, _, rfl, ⟨kind.id_lt, rfl⟩, _, items.length, _, rfl, ⟨fits.1, rfl⟩, _, (), [],
      (List.append_nil _).symm, Or.inl ⟨kind, items, rfl, rfl, rfl⟩, rfl, rfl⟩
  | strings items =>
    exact ⟨_, 8, _, rfl, ⟨by decide, rfl⟩, _, items.length, _, rfl, ⟨fits.1, rfl⟩, _, (), [],
      (List.append_nil _).symm, Or.inr ⟨rfl, items, rfl, fits.2.2, rfl⟩, rfl, rfl⟩

lemma takes_value (small : bytes.length < 2 ^ 63) (valueType : Nat) :
    Takes bytes (readValue bytes valueType) fun l v => ∃ value : Value,
      value.Fits vectorCapacity ∧ value.typeId = valueType ∧ l = value.body ∧
        v = value.pyValue := by
  rintro i v l ⟨value, fits, rfl, rfl, rfl⟩ here
  unfold readValue
  cases value with
  | number kind raw =>
    rw [Value.typeId, metadataTypes_number]
    exact Takes.bind (takes_struct kind.width) (fun _ => Takes.pure _)
      ⟨_, raw, [], (List.append_nil _).symm, ⟨fits, rfl⟩, rfl, rfl⟩ here
  | string b =>
    exact Takes.bind takes_string (fun _ => Takes.pure _)
      ⟨_, _, [], (List.append_nil _).symm, ⟨b, fits, rfl, rfl⟩, rfl, rfl⟩ here
  | numbers kind items => exact takes_summary small ⟨_, fits, rfl, rfl, rfl⟩ here
  | strings items => exact takes_summary small ⟨_, fits, rfl, rfl, rfl⟩ here

lemma takes_entry (small : bytes.length < 2 ^ 63) :
    Takes bytes (Python.readEntry bytes) fun l e => ∃ entry : List Byte × Value,
      (entry.1.length < 2 ^ 64 ∧ entry.2.Fits vectorCapacity) ∧ l = entryLayout entry ∧
        e = (decodeUtf8 entry.1, entry.2.pyValue) := by
  refine (Takes.bind takes_string fun _ => Takes.bind (takes_struct 4) fun _ =>
    Takes.bind (takes_value small _) fun _ => Takes.pure _).of_imp fun l e => ?_
  rintro ⟨⟨key, value⟩, ⟨short, fits⟩, rfl, rfl⟩
  exact ⟨_, _, _, rfl, ⟨key, short, rfl, rfl⟩, _, value.typeId, _, rfl, ⟨value.typeId_lt, rfl⟩, _,
    _, [], (List.append_nil _).symm, ⟨value, fits, rfl, rfl, rfl⟩, rfl, rfl⟩

lemma takes_record :
    Takes bytes (readTensorRecord bytes) fun l record => ∃ t : TensorRecord,
      t.Fits ∧ l = t.layout ∧ record = t.pyRecord := by
  refine (Takes.bind takes_string fun _ => Takes.bind (takes_struct 4) fun _ =>
    Takes.bind (Takes.many (takes_struct 8) _) fun _ => Takes.bind (takes_struct 4) fun _ =>
    Takes.bind (takes_struct 8) fun _ => Takes.pure _).of_imp fun l record => ?_
  rintro ⟨⟨name, dims, typeId, offset⟩, ⟨short, few, all, small, near⟩, rfl, rfl⟩
  exact ⟨_, _, _, rfl, ⟨name, short, rfl, rfl⟩, _, dims.length, _, rfl, ⟨few, rfl⟩, _, dims, _, rfl,
    many_self.mpr ⟨rfl, all, rfl⟩, _, typeId, _, rfl, ⟨small, rfl⟩, _, offset, [],
    (List.append_nil _).symm, ⟨near, rfl⟩, rfl, rfl⟩

end

/-- What Python needs of a header to read it. -/
structure Header.Readable (h : Header) : Prop where
  version : h.version < 256 ^ 4
  entries : h.metadata.length < 2 ^ 64
  metadata : ∀ entry ∈ h.metadata, entry.1.length < 2 ^ 64 ∧ entry.2.Fits vectorCapacity
  count : h.tensors.length < 2 ^ 64
  tensors : ∀ t ∈ h.tensors, t.Fits

section
variable {file : MappedFile} {h : Header}

lemma readHeader_ok {bytes : List Byte} (small : bytes.length < 2 ^ 63) (readable : h.Readable)
    (here : h.layout <+: bytes) :
    bytes.take 4 = magic ∧ Python.readHeader bytes 4 =
      .ok ((h.version, h.pyMetadata, h.tensors.map TensorRecord.pyRecord), h.layout.length) := by
  have parts : At (magic ++ _) bytes 0 := at_zero.mpr here
  obtain ⟨first, rest⟩ := at_parts.mp parts
  refine ⟨(at_iff_take.mp first).2, ?_⟩
  have entries : Many (fun l e => ∃ entry : List Byte × Value,
      (entry.1.length < 2 ^ 64 ∧ entry.2.Fits vectorCapacity) ∧ l = entryLayout entry ∧
        e = (decodeUtf8 entry.1, entry.2.pyValue)) h.metadata.length
      (h.metadata.flatMap entryLayout)
      (h.metadata.map fun entry => (decodeUtf8 entry.1, entry.2.pyValue)) :=
    (many_iff fun _ _ => Iff.rfl).mpr ⟨h.metadata, rfl, readable.metadata, rfl, forall₂_map.mpr rfl⟩
  have records : Many (fun l record => ∃ t : TensorRecord, t.Fits ∧ l = t.layout ∧
      record = t.pyRecord) h.tensors.length (h.tensors.flatMap TensorRecord.layout)
      (h.tensors.map TensorRecord.pyRecord) :=
    (many_iff fun _ _ => Iff.rfl).mpr ⟨h.tensors, rfl, readable.tensors, rfl, forall₂_map.mpr rfl⟩
  have four := @takes_struct bytes 4
  have takes := Takes.bind four fun {_ version} _ =>
    Takes.bind (takes_struct 8) fun {_ tensorCount} _ =>
    Takes.bind (takes_struct 8) fun {_ metadataCount} _ =>
    Takes.bind (Takes.many (takes_entry small) metadataCount) fun {_ es} _ =>
    Takes.bind (Takes.many takes_record tensorCount) fun {_ rs} _ =>
    Takes.pure (version, es.reverse, rs)
  refine (takes ⟨_, h.version, _, rfl, ⟨readable.version, rfl⟩, _, h.tensors.length, _, rfl,
    ⟨readable.count, rfl⟩, _, h.metadata.length, _, rfl, ⟨readable.entries, rfl⟩, _, _, _, rfl,
    entries, _, _, [], (List.append_nil _).symm, records, rfl, rfl⟩ rest).trans ?_
  have length : h.layout.length = magic.length + _ := List.length_append
  rw [length]
  rfl

lemma pyHeader_ok (stands : Stands file h) :
    file.bytes.take 4 = magic ∧ Python.readHeader file.bytes 4 =
      .ok ((h.version, h.pyMetadata, h.tensors.map TensorRecord.pyRecord), h.layout.length) := by
  have small : file.bytes.length < 2 ^ 63 := by
    have := file.small
    omega
  obtain ⟨fits, here⟩ := stands
  have version : h.version < 256 ^ 4 := by
    rcases fits.version with two | three
    · rw [two]
      decide
    · rw [three]
      decide
  exact readHeader_ok small ⟨version, fits.entries, fits.metadata, fits.count.1, fits.tensors⟩ here

end

/-! ## The alignment -/

/-- The value of `general.alignment` that is set last. -/
def Header.alignmentValue (h : Header) : Option Value :=
  h.metadata.reverse.lookup (encodeUtf8 (text "general.alignment"))

/-- The alignment that Python takes. -/
def Header.pyAlignment (py : Builtins) (h : Header) : Except PyError Int :=
  toInt py ((h.alignmentValue.map Value.pyValue).getD (.int 32))

lemma lookup_map {K K' V V' : Type} [BEq K] [LawfulBEq K] [BEq K'] [LawfulBEq K'] {f : K → K'} {g : V → V'}
    {key : K} (alone : ∀ k, f k = f key ↔ k = key) (l : List (K × V)) :
    (l.map fun e => (f e.1, g e.2)).lookup (f key) = (l.lookup key).map g := by
  induction l with
  | nil => rfl
  | cons e l ih =>
    obtain ⟨k, v⟩ := e
    rw [List.map_cons, List.lookup_cons, List.lookup_cons, ih]
    by_cases same : k = key
    · subst same
      simp
    · have other : f k ≠ f key := fun eq => same ((alone k).mp eq)
      rw [beq_false_of_ne (Ne.symm same), beq_false_of_ne (Ne.symm other)]

/-- The alignment that the C++ parser takes for a value. -/
def Value.alignment : Value → Nat
  | .number kind raw =>
    match kind.metadataValue raw with
    | .u64 n => n
    | .i64 n => if 0 ≤ n then n.toNat else 32
    | _ => 32
  | _ => 32

lemma alignment_eq (h : Header) :
    h.alignment = (h.alignmentValue.map Value.alignment).getD 32 := by
  have found : h.metadataMap.lookup (encodeUtf8 (text "general.alignment")) =
      h.alignmentValue.map Value.metadataValue := by
    unfold Header.metadataMap Header.alignmentValue
    rw [← List.map_reverse]
    exact lookup_map (f := id) (fun _ => Iff.rfl) _
  unfold Header.alignment alignmentOf metadataU64
  rw [found]
  cases h.alignmentValue with
  | none => rfl
  | some value =>
    cases value with
    | number kind raw =>
      simp only [Option.map_some, Option.getD_some, Value.metadataValue, Value.alignment]
      cases kind.metadataValue raw with
      | i64 n =>
        dsimp only
        split_ifs
        · rfl
        · rfl
      | _ => rfl
    | _ => rfl

lemma pyAlignment_eq (py : Builtins) (h : Header) :
    toInt py ((h.pyMetadata.lookup (text "general.alignment")).getD (.int 32)) =
      h.pyAlignment py := by
  have ascii : ∀ c ∈ text "general.alignment", c.1 < 0x80 := forall_code (by decide)
  have key : decodeUtf8 (encodeUtf8 (text "general.alignment")) = text "general.alignment" :=
    (decode_ascii ascii _).mpr rfl
  have alone : ∀ k, decodeUtf8 k = decodeUtf8 (encodeUtf8 (text "general.alignment")) ↔
      k = encodeUtf8 (text "general.alignment") := by
    intro k
    rw [key, decode_ascii ascii]
  have found := lookup_map (g := Value.pyValue) alone h.metadata.reverse
  rw [key] at found
  unfold Header.pyAlignment Header.alignmentValue Header.pyMetadata
  rw [← List.map_reverse, found]

lemma alignment_cases {py : Builtins} {h : Header} {a : Int} (taken : h.pyAlignment py = .ok a) :
    h.alignment = 32 ∨ a = h.alignment := by
  rw [alignment_eq]
  unfold Header.pyAlignment at taken
  cases value : h.alignmentValue with
  | none => exact Or.inl rfl
  | some v =>
    rw [value] at taken
    cases v with
    | number kind raw =>
      have unsigned (here : kind.metadataValue raw = .u64 raw) (there : unpack kind raw = .int raw) :
          Value.alignment (.number kind raw) = 32 ∨ a = Value.alignment (.number kind raw) := by
        have taken' : toInt py (unpack kind raw) = .ok a := taken
        rw [there] at taken'
        rw [Value.alignment, here]
        exact Or.inr (Except.ok.inj taken').symm
      have signed' (here : kind.metadataValue raw = .i64 (signed kind.width raw))
          (there : unpack kind raw = .int (signed kind.width raw)) :
          Value.alignment (.number kind raw) = 32 ∨ a = Value.alignment (.number kind raw) := by
        have taken' : toInt py (unpack kind raw) = .ok a := taken
        rw [there] at taken'
        rw [Value.alignment, here]
        dsimp only
        split_ifs with nonneg
        · rw [Int.toNat_of_nonneg nonneg]
          exact Or.inr (Except.ok.inj taken').symm
        · exact Or.inl rfl
      cases kind with
      | uint8 | uint16 | uint32 | uint64 => exact unsigned rfl rfl
      | int8 | int16 | int32 | int64 => exact signed' rfl rfl
      | float32 | float64 | bool => exact Or.inl rfl
    | _ => exact Or.inl rfl

lemma alignment_lt {h : Header} (fits : h.Fits vectorCapacity) : h.alignment < 2 ^ 64 := by
  rw [alignment_eq]
  cases value : h.alignmentValue with
  | none => exact (by decide : 32 < 2 ^ 64)
  | some v =>
    have wf : v.Fits vectorCapacity := by
      obtain ⟨before, after, split, -⟩ := List.lookup_eq_some_iff.mp value
      have mem : (encodeUtf8 (text "general.alignment"), v) ∈ h.metadata.reverse := by
        rw [split]
        exact List.mem_append_right _ (List.mem_cons_self ..)
      exact (fits.metadata _ (List.mem_reverse.mp mem)).2
    cases v with
    | number kind raw =>
      have bound : raw < 256 ^ kind.width := wf
      show Value.alignment (.number kind raw) < _
      unfold Value.alignment
      cases kind with
      | uint8 | uint16 | uint32 | uint64 =>
        dsimp only [Kind.metadataValue, Kind.width] at bound ⊢
        omega
      | int8 | int16 | int32 | int64 =>
        dsimp only [Kind.metadataValue, Kind.width, signed] at bound ⊢
        split_ifs
        all_goals omega
      | float32 | float64 | bool => exact (by decide : 32 < 2 ^ 64)
    | _ => exact (by decide : 32 < 2 ^ 64)

/-! ## The start of the data -/

/-- Both readers begin the data at the same place. -/
def Header.StartsAlike (py : Builtins) (h : Header) : Prop :=
  h.layout.length + h.alignment - 1 < 2 ^ 64 ∧
    ∀ a, h.pyAlignment py = .ok a → Python.alignUp h.layout.length a = .ok (h.dataStart : Int)

section
variable {n : Nat} {a start : Int} {alignment : Nat}

lemma wrapping_alignUp_eq (pos : 1 ≤ n) (some : alignment ≠ 0) :
    alignUp .wrapping n alignment =
      .ok ((n + alignment - 1) % 2 ^ 64 / alignment * alignment) := by
  have top : ((n + alignment) % 2 ^ 64 + (2 ^ 64 - 1)) % 2 ^ 64 = (n + alignment - 1) % 2 ^ 64 := by
    omega
  have le := Nat.div_mul_le_self ((n + alignment - 1) % 2 ^ 64) alignment
  have lt := Nat.mod_lt (n + alignment - 1) (by decide : 2 ^ 64 > 0)
  show (if alignment = 0 then _ else Except.ok
    (((n + alignment) % 2 ^ 64 + (2 ^ 64 - 1)) % 2 ^ 64 / alignment * alignment % 2 ^ 64)) = _
  rw [if_neg some, top, Nat.mod_eq_of_lt (by omega)]

lemma fmod_negative {x : Int} (negative : a < 0) : a < x.fmod a ∧ x.fmod a ≤ 0 := by
  have flip := Int.neg_fmod_neg (-x) (-a)
  rw [Int.neg_neg, Int.neg_neg] at flip
  have lt := Int.fmod_lt_of_pos (-x) (Int.neg_pos.mpr negative)
  have nonneg := Int.fmod_nonneg_of_pos (-x) (Int.neg_pos.mpr negative)
  omega

lemma pyAlignUp_nonneg (long : 2 ≤ n) (aligned : Python.alignUp n a = .ok start) : 0 ≤ start := by
  unfold Python.alignUp at aligned
  split_ifs at aligned with zero
  cases aligned
  rcases Int.lt_or_gt_of_ne zero with negative | positive
  · have parts := Int.fmod_add_fdiv_mul ((n : Int) + a - 1) a
    obtain ⟨-, le⟩ := fmod_negative (x := (n : Int) + a - 1) negative
    have few : ((n : Int) + a - 1).fdiv a ≤ 0 := by
      by_contra many
      have one : 1 ≤ ((n : Int) + a - 1).fdiv a := by omega
      have below := Int.mul_le_mul_of_nonpos_right one negative.le
      omega
    exact Int.mul_nonneg_of_nonpos_of_nonpos few negative.le
  · have quotient := Int.fdiv_nonneg (a := (n : Int) + a - 1) (by omega) positive.le
    exact Int.mul_nonneg quotient positive.le

lemma pyAlignUp_nat (pos : 1 ≤ n) (some : alignment ≠ 0) :
    Python.alignUp n alignment = .ok (((n + alignment - 1) / alignment * alignment : Nat) : Int) := by
  unfold Python.alignUp
  rw [if_neg (by omega)]
  have top : (n : Int) + alignment - 1 = (n + alignment - 1 : Nat) := by omega
  rw [top, Int.fdiv_eq_ediv_of_nonneg _ (by omega)]
  push_cast
  rfl

end

lemma layout_long (h : Header) : 2 ≤ h.layout.length := by
  unfold Header.layout magic
  rw [List.length_append]
  exact Nat.le_add_right_of_le (by decide)

lemma place_iff {py : Builtins} {file : MappedFile} {h : Header} {offset start : Nat} {a s : Int}
    (stands : Stands file h) (near : offset < 2 ^ 64) (taken : h.pyAlignment py = .ok a)
    (aligned : alignUp .wrapping h.layout.length h.alignment = .ok start)
    (pyAligned : Python.alignUp h.layout.length a = .ok s) :
    s + offset = ((start + offset) % 2 ^ 64 : Nat) ↔
      h.StartsAlike py ∧ h.dataStart + offset < 2 ^ 64 := by
  have pos := layout_pos h
  have some : h.alignment ≠ 0 := by
    intro zero
    rw [zero, wrapping_alignUp_zero] at aligned
    cases aligned
  have nonneg := pyAlignUp_nonneg (layout_long h) pyAligned
  rw [wrapping_alignUp_eq pos some, Except.ok.injEq] at aligned
  by_cases fits : h.layout.length + h.alignment - 1 < 2 ^ 64
  · rw [Nat.mod_eq_of_lt fits] at aligned
    have same : start = h.dataStart := aligned.symm
    have below : h.dataStart ≤ h.layout.length + h.alignment - 1 := Nat.div_mul_le_self _ _
    constructor
    · intro eq
      have place : h.dataStart + offset < 2 ^ 64 := by omega
      refine ⟨⟨fits, fun a' taken' => ?_⟩, place⟩
      rw [taken] at taken'
      cases taken'
      rw [pyAligned, Except.ok.injEq]
      rw [same, Nat.mod_eq_of_lt place] at eq
      omega
    · rintro ⟨⟨-, alike⟩, place⟩
      have here := alike a taken
      rw [pyAligned, Except.ok.injEq] at here
      rw [same, Nat.mod_eq_of_lt place, here]
      push_cast
      rfl
  · refine iff_of_false (fun eq => ?_) fun both => fits both.1.1
    -- the sum wraps to less than the alignment
    have small := file.small
    have inside := stands.2.length_le
    have bound := alignment_lt stands.1
    have wraps : (h.layout.length + h.alignment - 1) % 2 ^ 64 < h.alignment := by omega
    rw [Nat.div_eq_of_lt wraps, Nat.zero_mul] at aligned
    have number : a = h.alignment := by
      rcases alignment_cases taken with default | number
      · omega
      · exact number
    rw [number, pyAlignUp_nat pos some, Except.ok.injEq] at pyAligned
    have once : h.alignment ≤ (h.layout.length + h.alignment - 1) / h.alignment * h.alignment := by
      refine Nat.le_mul_of_pos_left _ (Nat.div_pos ?_ (Nat.pos_of_ne_zero some))
      omega
    omega

/-! ## The size -/

/-- Both readers compute the same size: the type is in both tables and nothing wraps, or the type is
only in the table of Python and there are no elements. -/
def TensorRecord.SizeAgrees (t : TensorRecord) : Prop :=
  ∃ block, ggmlTypes t.typeId = some block ∧
    if (typeBlock t.typeId).isSome then
      t.dimensions ≠ [] ∧ t.dimensions.prod + block.1 - 1 < 2 ^ 64 ∧
        bytesIn block t.dimensions.prod < 2 ^ 64
    else t.dimensions.prod = 0

lemma wrapping_foldl_eq (dims : List Nat) (start : Nat) :
    dims.foldlM Arith.wrapping.mul (start % 2 ^ 64) = .ok (start * dims.prod % 2 ^ 64) := by
  induction dims generalizing start with
  | nil =>
    rw [List.prod_nil, Nat.mul_one]
    rfl
  | cons dim dims ih =>
    have first : Arith.wrapping.mul (start % 2 ^ 64) dim = .ok (start * dim % 2 ^ 64) := by
      show Except.ok (start % 2 ^ 64 * dim % 2 ^ 64) = _
      rw [Nat.mod_mul_mod]
    rw [List.foldlM_cons, first, List.prod_cons, ← Nat.mul_assoc]
    exact ih (start * dim)

lemma wrapping_count {dims : List Nat} (some : dims ≠ []) :
    tensorElementCount .wrapping dims = .ok (dims.prod % 2 ^ 64) := by
  rw [tensorElementCount, if_neg some]
  have count := wrapping_foldl_eq dims 1
  rwa [Nat.one_mul] at count

lemma wrapping_blocks (elems size bytes : Nat) (fits : size < 2 ^ 64) (pos : 1 ≤ size) :
    blockBytes .wrapping (elems % 2 ^ 64) size bytes =
      .ok ((elems + size - 1) % 2 ^ 64 / size * bytes % 2 ^ 64) := by
  have top : ((elems % 2 ^ 64 + size) % 2 ^ 64 + (2 ^ 64 - 1)) % 2 ^ 64 =
      (elems + size - 1) % 2 ^ 64 := by omega
  show Except.ok (((elems % 2 ^ 64 + size) % 2 ^ 64 + (2 ^ 64 - 1)) % 2 ^ 64 / size * bytes %
    2 ^ 64) = _
  rw [top]

lemma wraps_iff {m size bytes : Nat} (pos : 1 ≤ size) (fits : size ≤ 2 ^ 64) (some : 1 ≤ bytes) :
    m / size * bytes = m % 2 ^ 64 / size * bytes % 2 ^ 64 ↔
      m < 2 ^ 64 ∧ m / size * bytes < 2 ^ 64 := by
  constructor
  · intro eq
    have low : m < 2 ^ 64 := by
      by_contra high
      have far : m % 2 ^ 64 + size ≤ m := by omega
      have more : m % 2 ^ 64 / size + 1 ≤ m / size := by
        rw [← Nat.add_div_right _ pos]
        exact Nat.div_le_div_right far
      have times := Nat.mul_le_mul_right bytes more
      have le := Nat.mod_le (m % 2 ^ 64 / size * bytes) (2 ^ 64)
      rw [Nat.add_mul, Nat.one_mul] at times
      omega
    rw [Nat.mod_eq_of_lt low] at eq
    exact ⟨low, eq ▸ Nat.mod_lt _ (by decide)⟩
  · rintro ⟨low, small⟩
    rw [Nat.mod_eq_of_lt low, Nat.mod_eq_of_lt small]

lemma typeBlock_bounds {ggmlType : Nat} {block : Nat × Nat}
    (known : typeBlock ggmlType = some block) : block.1 ≤ 2 ^ 63 ∧ 1 ≤ block.2 := by
  unfold typeBlock at known
  split at known
  all_goals first
    | exact (Option.some.inj known) ▸ (by decide)
    | exact absurd known nofun

lemma wrapping_bytes {typeId elems size bytes : Nat} (known : typeBlock typeId = some (size, bytes)) :
    elementBytes .wrapping typeId (elems % 2 ^ 64) =
      .ok ((elems + size - 1) % 2 ^ 64 / size * bytes % 2 ^ 64) := by
  have pos : 1 ≤ size := typeBlock_pos known
  have bounds : size ≤ 2 ^ 63 ∧ 1 ≤ bytes := typeBlock_bounds known
  rw [elementBytes_eq, known]
  dsimp only
  split_ifs with one
  · rw [one, Nat.div_one, Nat.add_sub_cancel]
    rfl
  · exact wrapping_blocks elems size bytes (by omega) pos

lemma ggmlTypes_eq {typeId : Nat} {block block' : Nat × Nat}
    (known : typeBlock typeId = some block) (pyKnown : ggmlTypes typeId = some block') :
    block' = block := by
  unfold typeBlock at known
  split at known
  case h_3 => cases pyKnown
  case h_9 => cases known
  all_goals exact (Option.some.inj pyKnown).symm.trans (Option.some.inj known)

lemma bytesIn_eq_zero {block : Nat × Nat} {elems : Nat} (pos : 1 ≤ block.1) (some : 1 ≤ block.2) :
    bytesIn block elems = 0 ↔ elems = 0 := by
  unfold bytesIn
  rw [Nat.mul_eq_zero, or_iff_left (by omega), Nat.div_eq_zero_iff, or_iff_right (by omega)]
  omega

lemma size_iff {t : TensorRecord} {n : Nat}
    (size : ggmlTensorNbytes .wrapping t.typeId t.dimensions = .ok n) :
    tensorNbytes t.typeId t.dimensions = some n ↔ t.SizeAgrees := by
  unfold TensorRecord.SizeAgrees tensorNbytes
  cases pyKnown : ggmlTypes t.typeId with
  | none => exact iff_of_false (by rintro ⟨⟩) (by rintro ⟨_, ⟨⟩, _⟩)
  | some block =>
    obtain ⟨pos, wide⟩ := ggmlTypes_pos pyKnown
    change some (bytesIn block t.dimensions.prod) = some n ↔ _
    rw [Option.some.injEq]
    simp only [Option.some.injEq, exists_eq_left']
    cases known : typeBlock t.typeId with
    | none =>
      rw [ggmlTensorNbytes, bind_ok] at size
      obtain ⟨elems, -, bytes⟩ := size
      rw [elementBytes_eq, known, Except.ok.injEq] at bytes
      rw [← bytes]
      exact bytesIn_eq_zero pos wide
    | some block' =>
      obtain rfl := ggmlTypes_eq known pyKnown
      have bounds := typeBlock_bounds known
      rw [if_pos Option.isSome_some]
      by_cases empty : t.dimensions = []
      · -- the product of no numbers is 1
        refine iff_of_false (fun eq => ?_) fun all => all.1 empty
        rw [ggmlTensorNbytes, tensorElementCount, if_pos empty, bind_ok] at size
        obtain ⟨elems, zero, bytes⟩ := size
        cases zero
        have value : elementBytes .wrapping t.typeId (0 % 2 ^ 64) = _ := wrapping_bytes known
        rw [Nat.zero_mod, bytes] at value
        have few : (0 + block.1 - 1) % 2 ^ 64 < block.1 := by omega
        rw [Except.ok.injEq, Nat.div_eq_of_lt few, Nat.zero_mul, Nat.zero_mod] at value
        have zero := (bytesIn_eq_zero pos wide).mp (eq.trans value)
        rw [empty, List.prod_nil] at zero
        cases zero
      · rw [ggmlTensorNbytes, wrapping_count empty] at size
        have bytes : elementBytes .wrapping t.typeId (t.dimensions.prod % 2 ^ 64) = _ :=
          wrapping_bytes known
        replace bytes := bytes.symm.trans size
        rw [Except.ok.injEq] at bytes
        rw [and_iff_right empty, ← bytes]
        exact wraps_iff pos (by omega) wide

/-! ## What both readers report -/

/-- Both readers report the same of a tensor. -/
structure SameTensor (c : GgufTensorInfo) (p : GGUFTensorInfo) : Prop where
  name : encodeUtf8 p.name = c.name
  dimensions : p.dimensions = c.shape
  type : p.typeId = c.ggmlType
  place : p.absoluteOffset = c.absoluteOffset
  nbytes : p.nbytes = some c.nbytes

/-- Both readers report the same of the tensor of a record. -/
def Header.TensorAgrees (py : Builtins) (h : Header) (t : TensorRecord) : Prop :=
  ValidUtf8 t.name ∧ h.StartsAlike py ∧ h.dataStart + t.offset < 2 ^ 64 ∧ t.SizeAgrees

section
variable {py : Builtins} {file : MappedFile} {h : Header}

lemma tensor_iff {t : TensorRecord} {start : Nat} {a s : Int} {tensor : GgufTensorInfo}
    (stands : Stands file h) (near : t.offset < 2 ^ 64) (taken : h.pyAlignment py = .ok a)
    (aligned : alignUp .wrapping h.layout.length h.alignment = .ok start)
    (pyAligned : Python.alignUp h.layout.length a = .ok s)
    (placed : ∃ info, t.info .wrapping = .ok info ∧
      placeTensor .wrapping file start info = .ok tensor) :
    SameTensor tensor (tensorInfo s t.pyRecord) ↔ h.TensorAgrees py t := by
  obtain ⟨info, read, placed⟩ := placed
  rw [TensorRecord.info, bind_ok] at read
  obtain ⟨n, size, made⟩ := read
  rw [pure_ok] at made
  subst made
  obtain ⟨-, rfl⟩ := wrapping_place_ok.mp placed
  have place := place_iff stands near taken aligned pyAligned
  constructor
  · intro same
    obtain ⟨alike, fits⟩ := place.mp same.place
    exact ⟨validUtf8_iff.mpr same.name, alike, fits, (size_iff size).mp same.nbytes⟩
  · rintro ⟨name, alike, fits, agrees⟩
    exact ⟨validUtf8_iff.mp name, rfl, rfl, place.mpr ⟨alike, fits⟩, (size_iff size).mpr agrees⟩

lemma read_ok {p : GGUFFile} (stands : Stands file h) (python : Python.read py file.bytes = .ok p) :
    ∃ a s, h.pyAlignment py = .ok a ∧ Python.alignUp h.layout.length a = .ok s ∧
      p.tensors = h.tensors.map fun t => tensorInfo s t.pyRecord := by
  obtain ⟨first, rest⟩ := pyHeader_ok stands
  rw [Python.read, if_neg (not_not.mpr first), rest] at python
  simp only [bind_ok, pure_ok, Except.ok.injEq, exists_eq_left'] at python
  obtain ⟨a, taken, s, aligned, rfl⟩ := python
  rw [pyAlignment_eq] at taken
  exact ⟨a, s, taken, aligned, List.map_map ..⟩

lemma Assembles.of_stands {h' : Header} {g : GgufFile} (stands : Stands file h)
    (stands' : Stands file h') (made : Assembles .wrapping file h g) :
    Assembles .wrapping file h' g := by
  obtain ⟨length, map, records, version⟩ := stands.unique stands'
  have alignment : h.alignment = h'.alignment := congrArg alignmentOf map
  obtain ⟨v, m, a, start, tensors⟩ := made
  rw [length, alignment] at start
  rw [records] at tensors
  exact ⟨v.trans version, m.trans map, a.trans alignment, start, tensors⟩

lemma forall₂_iff {α β γ : Type} {P : α → β → Prop} {R : β → γ → Prop} {C : α → Prop} {f : α → γ}
    (same : ∀ a b, P a b → (R b (f a) ↔ C a)) {l : List α} {bs : List β}
    (all : List.Forall₂ P l bs) : List.Forall₂ R bs (l.map f) ↔ ∀ a ∈ l, C a := by
  induction all with
  | nil => exact iff_of_true .nil nofun
  | cons here _ ih =>
    rw [List.map_cons, List.forall₂_cons, List.forall_mem_cons, ih, same _ _ here]

lemma tensors_iff {g : GgufFile} {p : GGUFFile} (stands : Stands file h)
    (made : Assembles .wrapping file h g) (python : Python.read py file.bytes = .ok p) :
    List.Forall₂ SameTensor g.tensors p.tensors ↔ ∀ t ∈ h.tensors, h.TensorAgrees py t := by
  obtain ⟨a, s, taken, pyAligned, tensors⟩ := read_ok stands python
  rw [tensors]
  have near : ∀ t ∈ h.tensors, t.offset < 2 ^ 64 := fun t mem => (stands.1.tensors t mem).2.2.2.2
  have both := (List.forall₂_and_left ..).mpr ⟨near, made.tensors⟩
  exact forall₂_iff (fun t tensor here =>
    tensor_iff stands here.1 taken made.start pyAligned here.2) both

/-- Of a file that both readers accept they report the same tensors exactly if every name is UTF-8,
the data begins at the same place, and no place or size wraps. -/
theorem agrees_iff (py : Builtins) {file : MappedFile} {g : GgufFile} {p : GGUFFile}
    (cpp : parse .wrapping file = .ok g) (python : Python.read py file.bytes = .ok p) :
    List.Forall₂ SameTensor g.tensors p.tensors ↔
      ∀ h, Stands file h → ∀ t ∈ h.tensors, h.TensorAgrees py t := by
  obtain ⟨h, stands, made⟩ := parse_ok.mp cpp
  constructor
  · intro same h' stands'
    exact (tensors_iff stands' (made.of_stands stands stands') python).mp same
  · exact fun all => (tensors_iff stands made python).mpr (all h stands)

end

/-- Nothing is read from a text. -/
def noTexts : Builtins := ⟨fun _ => none⟩

/-- Four floats agree. -/
theorem agrees_iff_f32 :
    let header : Header := ⟨3, [], [⟨encodeUtf8 (text "w"), [4], 0, 0⟩]⟩
    let file : MappedFile := ⟨header.layout ++ List.replicate 64 0, by decide +kernel⟩
    List.Forall₂ SameTensor [⟨encodeUtf8 (text "w"), [4], 0, .f32, 0, 64, 16⟩]
        [⟨text "w", [4], 0, 0, 64, some 16⟩] ↔
      ∀ h, Stands file h → ∀ t ∈ h.tensors, h.TensorAgrees noTexts t := by
  intro header file
  have cpp : parse .wrapping file = .ok ⟨3, 32, 64, [],
      [⟨encodeUtf8 (text "w"), [4], 0, .f32, 0, 64, 16⟩]⟩ := by decide +kernel
  have python : Python.read noTexts file.bytes = .ok ⟨3, 1, 0, [],
      [⟨text "w", [4], 0, 0, 64, some 16⟩], 64, 32, 121⟩ := by decide +kernel
  exact agrees_iff noTexts cpp python

/-- The type 30 of Python has two bytes an element, and none in the C++ parser. -/
theorem not_same_bf16 :
    let header : Header := ⟨3, [], [⟨encodeUtf8 (text "w"), [4], 30, 0⟩]⟩
    let file : MappedFile := ⟨header.layout ++ List.replicate 64 0, by decide +kernel⟩
    ∃ g p, parse .wrapping file = .ok g ∧ Python.read noTexts file.bytes = .ok p ∧
      g.tensors.map (·.nbytes) = [0] ∧ p.tensors.map (·.nbytes) = [some 8] ∧
        ¬ List.Forall₂ SameTensor g.tensors p.tensors := by
  intro header file
  have cpp : parse .wrapping file = .ok ⟨3, 32, 64, [],
      [⟨encodeUtf8 (text "w"), [4], 30, .unknown, 0, 64, 0⟩]⟩ := by decide +kernel
  have python : Python.read noTexts file.bytes = .ok ⟨3, 1, 0, [],
      [⟨text "w", [4], 30, 0, 64, some 8⟩], 64, 32, 121⟩ := by decide +kernel
  refine ⟨_, _, cpp, python, rfl, rfl, ?_⟩
  rintro (_ | ⟨same, -⟩)
  cases same.nbytes

end PocketMoE.Loader
