import PocketMoE.Lib.Except
import PocketMoE.Loader.GgufScan

/-!
# When the parser is safe

`Safe` says that the parser throws or returns tensors that lie within the file, that nothing is undefined,
and that no number it computed had wrapped. The header is read safely (`scans_header`). What follows is
not checked: an alignment of 0 divides by zero, and sizes and places wrap. `safe_iff` says for which
headers it is safe all the same.
-/

namespace PocketMoE.Loader
open PocketMoE.Lib

/-! ## Numbers that do not wrap -/

/-- `tensor_element_count`, over the natural numbers. -/
def elements (dimensions : List Nat) : Nat := if dimensions = [] then 0 else dimensions.prod

/-- The elements and bytes of a block, for the types that `ggml_tensor_nbytes` knows. -/
def typeBlock : Nat → Option (Nat × Nat)
  | 0 => some (1, 4)
  | 1 => some (1, 2)
  | 32 => some (1, 2)
  | 8 => some (32, 34)
  | 10 => some (256, 84)
  | 16 => some (256, 66)
  | 29 => some (256, 56)
  | 26 => some (1, 4)
  | _ => none

/-- The bytes of some elements, in blocks. -/
def bytesIn (block : Nat × Nat) (elems : Nat) : Nat := (elems + block.1 - 1) / block.1 * block.2

/-- `ggml_tensor_nbytes`, over the natural numbers. -/
def nbytesOf (ggmlType : Nat) (dimensions : List Nat) : Nat :=
  match typeBlock ggmlType with
  | some block => bytesIn block (elements dimensions)
  | none => 0

/-- The size of a tensor is computed without wrapping. -/
structure SizeFits (ggmlType : Nat) (dimensions : List Nat) : Prop where
  products : ∀ k, (dimensions.take k).prod < 2 ^ 64
  blocks : ∀ block ∈ typeBlock ggmlType, block.1 ≠ 1 → elements dimensions + block.1 < 2 ^ 64
  bytes : nbytesOf ggmlType dimensions < 2 ^ 64

/-- `alignment_`, for a header. -/
def Header.alignment (h : Header) : Nat := alignmentOf h.metadataMap

/-- `data_start_`, over the natural numbers. -/
def Header.dataStart (h : Header) : Nat :=
  (h.layout.length + h.alignment - 1) / h.alignment * h.alignment

/-- The place of a tensor is computed without wrapping. -/
structure TensorRecord.PlaceFits (t : TensorRecord) (dataStart : Nat) : Prop where
  size : SizeFits t.typeId t.dimensions
  start : dataStart + t.offset < 2 ^ 64
  stop : dataStart + t.offset + nbytesOf t.typeId t.dimensions < 2 ^ 64

/-- No number that is computed for a header wraps. -/
structure Header.NoWrap (h : Header) : Prop where
  start : h.layout.length + h.alignment < 2 ^ 64
  tensors : ∀ t ∈ h.tensors, t.PlaceFits h.dataStart

/-! ## The exact arithmetic stops where a number would wrap -/

section
variable {a b n : Nat}

lemma exact_add : Arith.exact.add a b = .ok n ↔ a + b < 2 ^ 64 ∧ n = a + b := by
  unfold Arith.add
  dsimp only
  split_ifs with fits
  · rw [Except.ok.injEq, eq_comm]
    exact (and_iff_right fits).symm
  · exact iff_of_false nofun fun both => fits both.1

lemma exact_mul : Arith.exact.mul a b = .ok n ↔ a * b < 2 ^ 64 ∧ n = a * b := by
  unfold Arith.mul
  dsimp only
  split_ifs with fits
  · rw [Except.ok.injEq, eq_comm]
    exact (and_iff_right fits).symm
  · exact iff_of_false nofun fun both => fits both.1

lemma exact_sub : Arith.exact.sub a b = .ok n ↔ b ≤ a ∧ n = a - b := by
  unfold Arith.sub
  dsimp only
  split_ifs with fits
  · rw [Except.ok.injEq, eq_comm]
    exact (and_iff_right fits).symm
  · exact iff_of_false nofun fun both => fits both.1

lemma exact_foldl {dims : List Nat} {start : Nat} (fits : start < 2 ^ 64) :
    dims.foldlM Arith.exact.mul start = .ok n ↔
      (∀ k, start * (dims.take k).prod < 2 ^ 64) ∧ n = start * dims.prod := by
  induction dims generalizing start with
  | nil =>
    rw [List.foldlM_nil, pure_ok, List.prod_nil, Nat.mul_one]
    refine (and_iff_right fun k => ?_).symm
    rwa [List.take_nil, List.prod_nil, Nat.mul_one]
  | cons dim dims ih =>
    rw [List.foldlM_cons, bind_ok]
    constructor
    · rintro ⟨next, eq, rest⟩
      obtain ⟨small, rfl⟩ := exact_mul.mp eq
      obtain ⟨all, rfl⟩ := (ih small).mp rest
      refine ⟨fun k => ?_, by rw [List.prod_cons, Nat.mul_assoc]⟩
      cases k with
      | zero => rwa [List.take_zero, List.prod_nil, Nat.mul_one]
      | succ k =>
        rw [List.take_succ_cons, List.prod_cons, ← Nat.mul_assoc]
        exact all k
    · rintro ⟨all, rfl⟩
      have small : start * dim < 2 ^ 64 := by
        have first := all 1
        rwa [List.take_succ_cons, List.take_zero, List.prod_cons, List.prod_nil,
          Nat.mul_one] at first
      refine ⟨start * dim, exact_mul.mpr ⟨small, rfl⟩, (ih small).mpr ⟨fun k => ?_, ?_⟩⟩
      · have next := all (k + 1)
        rwa [List.take_succ_cons, List.prod_cons, ← Nat.mul_assoc] at next
      · rw [List.prod_cons, Nat.mul_assoc]

lemma exact_elementCount {dims : List Nat} :
    tensorElementCount .exact dims = .ok n ↔
      (∀ k, (dims.take k).prod < 2 ^ 64) ∧ n = elements dims := by
  unfold tensorElementCount elements
  split_ifs with empty
  · subst empty
    rw [Except.ok.injEq, eq_comm]
    refine (and_iff_right fun k => ?_).symm
    rw [List.take_nil]
    decide
  · rw [exact_foldl (by decide), Nat.one_mul]
    simp only [Nat.one_mul]

lemma elementBytes_eq (A : Arith) (ggmlType elems : Nat) :
    elementBytes A ggmlType elems = match typeBlock ggmlType with
      | some (size, bytes) =>
        if size = 1 then A.mul elems bytes else blockBytes A elems size bytes
      | none => .ok 0 := by
  unfold elementBytes
  split
  case h_9 => rw [typeBlock]; all_goals assumption
  all_goals rfl

lemma exact_blockBytes {elems size bytes : Nat} :
    blockBytes .exact elems size bytes = .ok n ↔
      elems + size < 2 ^ 64 ∧ 1 ≤ elems + size ∧ bytesIn (size, bytes) elems < 2 ^ 64 ∧
        n = bytesIn (size, bytes) elems := by
  unfold blockBytes blockCount
  simp only [bind_ok, pure_ok, exact_add, exact_sub, exact_mul]
  constructor
  · rintro ⟨_, ⟨_, ⟨fits, rfl⟩, _, ⟨pos, rfl⟩, rfl⟩, small, rfl⟩
    exact ⟨fits, pos, small, rfl⟩
  · rintro ⟨fits, pos, small, rfl⟩
    exact ⟨_, ⟨_, ⟨fits, rfl⟩, _, ⟨pos, rfl⟩, rfl⟩, small, rfl⟩

lemma typeBlock_pos {ggmlType : Nat} {block : Nat × Nat} (known : typeBlock ggmlType = some block) :
    1 ≤ block.1 := by
  unfold typeBlock at known
  split at known
  all_goals first
    | exact (Option.some.inj known) ▸ (by decide)
    | exact absurd known nofun

lemma exact_nbytes {ggmlType : Nat} {dims : List Nat} :
    ggmlTensorNbytes .exact ggmlType dims = .ok n ↔
      SizeFits ggmlType dims ∧ n = nbytesOf ggmlType dims := by
  unfold ggmlTensorNbytes
  simp only [bind_ok, exact_elementCount, elementBytes_eq]
  constructor
  · rintro ⟨_, ⟨products, rfl⟩, eq⟩
    cases known : typeBlock ggmlType with
    | none =>
      rw [known, Except.ok.injEq] at eq
      refine ⟨⟨products, by rw [known]; nofun, ?_⟩, ?_⟩
      · rw [nbytesOf, known]
        exact (by decide : 0 < 2 ^ 64)
      · rw [nbytesOf, known, eq]
    | some block =>
      obtain ⟨size, bytes⟩ := block
      have value : nbytesOf ggmlType dims = bytesIn (size, bytes) (elements dims) := by
        rw [nbytesOf, known]
      rw [known] at eq
      dsimp only at eq
      split_ifs at eq with one
      · obtain ⟨small, rfl⟩ := exact_mul.mp eq
        subst one
        have same : bytesIn (1, bytes) (elements dims) = elements dims * bytes := by
          rw [bytesIn, Nat.add_sub_cancel, Nat.div_one]
        rw [value, same]
        refine ⟨⟨products, ?_, by rwa [value, same]⟩, rfl⟩
        rintro block mem other
        rw [known, Option.mem_some_iff] at mem
        exact absurd (mem ▸ rfl) other
      · obtain ⟨fits, -, small, rfl⟩ := exact_blockBytes.mp eq
        refine ⟨⟨products, ?_, by rwa [value]⟩, value.symm⟩
        rintro block mem -
        rw [known, Option.mem_some_iff] at mem
        exact mem ▸ fits
  · rintro ⟨⟨products, blocks, bytes⟩, rfl⟩
    refine ⟨_, ⟨products, rfl⟩, ?_⟩
    cases known : typeBlock ggmlType with
    | none => rw [nbytesOf, known]
    | some block =>
      have pos := typeBlock_pos known
      obtain ⟨size, width⟩ := block
      have value : nbytesOf ggmlType dims = bytesIn (size, width) (elements dims) := by
        rw [nbytesOf, known]
      rw [value] at bytes ⊢
      dsimp only
      split_ifs with one
      · subst one
        have same : bytesIn (1, width) (elements dims) = elements dims * width := by
          rw [bytesIn, Nat.add_sub_cancel, Nat.div_one]
        rw [same] at bytes ⊢
        exact exact_mul.mpr ⟨bytes, rfl⟩
      · refine exact_blockBytes.mpr ⟨blocks _ known one, ?_, bytes, rfl⟩
        dsimp only at pos
        omega

lemma exact_alignUp {value alignment : Nat} (pos : 1 ≤ value) :
    alignUp .exact value alignment = .ok n ↔ value + alignment < 2 ^ 64 ∧ alignment ≠ 0 ∧
      n = (value + alignment - 1) / alignment * alignment := by
  unfold alignUp
  simp only [bind_ok, exact_add, exact_sub]
  constructor
  · rintro ⟨_, ⟨fits, rfl⟩, _, ⟨le, rfl⟩, eq⟩
    split_ifs at eq with zero
    obtain ⟨-, rfl⟩ := exact_mul.mp eq
    exact ⟨fits, zero, rfl⟩
  · rintro ⟨fits, some, rfl⟩
    refine ⟨_, ⟨fits, rfl⟩, _, ⟨by omega, rfl⟩, ?_⟩
    rw [if_neg some]
    refine exact_mul.mpr ⟨?_, rfl⟩
    have le := Nat.div_mul_le_self (value + alignment - 1) alignment
    omega

end

/-! ## What does not wrap is what the code computes -/

section
variable {a b n : Nat}

lemma wrapping_mul (eq : Arith.exact.mul a b = .ok n) : Arith.wrapping.mul a b = .ok n := by
  obtain ⟨fits, rfl⟩ := exact_mul.mp eq
  exact Arith.mul_ok fits

lemma wrapping_foldl {dims : List Nat} {start : Nat}
    (eq : dims.foldlM Arith.exact.mul start = .ok n) :
    dims.foldlM Arith.wrapping.mul start = .ok n := by
  induction dims generalizing start with
  | nil => exact eq
  | cons dim dims ih =>
    rw [List.foldlM_cons, bind_ok] at eq ⊢
    obtain ⟨next, first, rest⟩ := eq
    exact ⟨next, wrapping_mul first, ih rest⟩

lemma wrapping_top {value size : Nat} {f : Nat → Except Stop Nat} {g : Nat → Except Stop Nat}
    (same : ∀ top, f top = .ok n → g top = .ok n)
    (eq : (do
      let sum ← Arith.exact.add value size
      let top ← Arith.exact.sub sum 1
      f top) = .ok n) :
    (do
      let sum ← Arith.wrapping.add value size
      let top ← Arith.wrapping.sub sum 1
      g top) = .ok n := by
  simp only [bind_ok, exact_add, exact_sub] at eq
  obtain ⟨_, ⟨fits, rfl⟩, _, ⟨le, rfl⟩, rest⟩ := eq
  rw [bind_ok]
  refine ⟨_, Arith.add_ok fits, ?_⟩
  rw [bind_ok]
  exact ⟨_, Arith.sub_ok le fits, same _ rest⟩

lemma wrapping_alignUp {value alignment : Nat} (eq : alignUp .exact value alignment = .ok n) :
    alignUp .wrapping value alignment = .ok n := by
  refine wrapping_top (fun top rest => ?_) eq
  split_ifs at rest ⊢
  exact wrapping_mul rest

lemma wrapping_nbytes {ggmlType : Nat} {dims : List Nat}
    (eq : ggmlTensorNbytes .exact ggmlType dims = .ok n) :
    ggmlTensorNbytes .wrapping ggmlType dims = .ok n := by
  unfold ggmlTensorNbytes at eq ⊢
  rw [bind_ok] at eq ⊢
  obtain ⟨elems, count, size⟩ := eq
  refine ⟨elems, ?_, ?_⟩
  · unfold tensorElementCount at count ⊢
    split_ifs at count ⊢
    · exact count
    · exact wrapping_foldl count
  · rw [elementBytes_eq] at size ⊢
    cases known : typeBlock ggmlType with
    | none =>
      rw [known] at size
      exact size
    | some block =>
      rw [known] at size
      dsimp only at size ⊢
      split_ifs at size ⊢
      · exact wrapping_mul size
      · unfold blockBytes blockCount at size ⊢
        rw [bind_ok] at size ⊢
        obtain ⟨blocks, number, bytes⟩ := size
        exact ⟨blocks, wrapping_top (fun _ rest => rest) number, wrapping_mul bytes⟩

lemma wrapping_info {t : TensorRecord} {info : GgufTensorInfo} (eq : t.info .exact = .ok info) :
    t.info .wrapping = .ok info := by
  unfold TensorRecord.info at eq ⊢
  rw [bind_ok] at eq ⊢
  obtain ⟨nbytes, size, rest⟩ := eq
  exact ⟨nbytes, wrapping_nbytes size, rest⟩

end

/-! ## The parser and the header -/

/-- The layout of a header stands at the beginning of the file. -/
def Stands (file : MappedFile) (h : Header) : Prop :=
  h.Fits vectorCapacity ∧ h.layout <+: file.bytes

section
variable {A : Arith} {file : MappedFile} {h : Header} {g : GgufFile}

/-- The steps of the parser behind the header. -/
structure Assembles (A : Arith) (file : MappedFile) (h : Header) (g : GgufFile) : Prop where
  version : g.version = h.version
  metadata : g.metadata = h.metadataMap
  alignment : g.alignment = h.alignment
  start : alignUp A h.layout.length h.alignment = .ok g.dataStart
  tensors : List.Forall₂ (fun t tensor => ∃ info, TensorRecord.info A t = .ok info ∧
    placeTensor A file g.dataStart info = .ok tensor) h.tensors g.tensors

lemma header_ok {cursor : Nat} {result : Nat × Metadata × List GgufTensorInfo} :
    readHeader A file 0 = .ok (result, cursor) ↔
      ∃ h, Stands file h ∧ cursor = h.layout.length ∧ result.1 = h.version ∧
        result.2.1 = h.metadataMap ∧
        List.Forall₂ (fun t info => TensorRecord.info A t = .ok info) h.tensors result.2.2 := by
  rw [(scans_header A file).ok (Nat.zero_le _)]
  constructor
  · rintro ⟨_, ⟨h, fits, rfl, version, metadata, infos⟩, here, rfl⟩
    exact ⟨h, ⟨fits, at_zero.mp here⟩, Nat.zero_add _, version, metadata, infos⟩
  · rintro ⟨h, ⟨fits, here⟩, rfl, version, metadata, infos⟩
    exact ⟨_, ⟨h, fits, rfl, version, metadata, infos⟩, at_zero.mpr here, (Nat.zero_add _).symm⟩

lemma parse_ok : parse A file = .ok g ↔ ∃ h, Stands file h ∧ Assembles A file h g := by
  unfold parse
  simp only [bind_ok, pure_ok, mapM_ok]
  constructor
  · rintro ⟨⟨⟨version, metadata, infos⟩, cursor⟩, first, start, aligned, tensors, placed, rfl⟩
    obtain ⟨h, stands, rfl, rfl, rfl, infosOk⟩ := header_ok.mp first
    exact ⟨h, stands, rfl, rfl, rfl, aligned, forall₂_comp.mpr ⟨_, infosOk, placed⟩⟩
  · rintro ⟨h, stands, made⟩
    obtain ⟨infos, infosOk, placed⟩ := forall₂_comp.mp made.tensors
    refine ⟨((h.version, h.metadataMap, infos), h.layout.length),
      header_ok.mpr ⟨h, stands, rfl, rfl, rfl, infosOk⟩, g.dataStart, made.start, g.tensors, placed,
      ?_⟩
    obtain ⟨version, alignment, dataStart, metadata, tensors⟩ := g
    obtain ⟨rfl, rfl, rfl, -, -⟩ := made
    rfl

lemma info_wrapping (t : TensorRecord) : ∃ info, t.info .wrapping = .ok info := by
  obtain ⟨n, eq⟩ := nbytes_wrapping t.typeId t.dimensions
  rw [TensorRecord.info, eq]
  exact ⟨_, rfl⟩

lemma infos_wrapping (records : List TensorRecord) :
    ∃ infos, List.Forall₂ (fun t info => TensorRecord.info .wrapping t = .ok info) records infos :=
  exists_forall₂.mpr fun t _ => info_wrapping t

lemma records_unique {records records' : List TensorRecord} {infos : List GgufTensorInfo}
    (all : List.Forall₂ (fun t info => TensorRecord.info .wrapping t = .ok info) records infos)
    (all' : List.Forall₂ (fun t info => TensorRecord.info .wrapping t = .ok info) records' infos) :
    records = records' := by
  induction all generalizing records' with
  | nil =>
    cases all'
    rfl
  | @cons t info records infos here _ ih =>
    cases all' with
    | @cons t' _ records' _ here' rest =>
      rw [ih rest]
      congr 1
      unfold TensorRecord.info at here here'
      simp only [bind_ok, pure_ok] at here here'
      obtain ⟨n, -, rfl⟩ := here
      obtain ⟨n', -, same⟩ := here'
      obtain ⟨name, dimensions, typeId, offset⟩ := t
      obtain ⟨name', dimensions', typeId', offset'⟩ := t'
      simp only [GgufTensorInfo.mk.injEq] at same
      obtain ⟨rfl, rfl, rfl, -, rfl, -, -⟩ := same
      rfl

lemma Stands.unique {h' : Header} (stands : Stands file h) (stands' : Stands file h') :
    h.layout.length = h'.layout.length ∧ h.metadataMap = h'.metadataMap ∧
      h.tensors = h'.tensors ∧ h.version = h'.version := by
  obtain ⟨infos, all⟩ := infos_wrapping h.tensors
  obtain ⟨infos', all'⟩ := infos_wrapping h'.tensors
  have first : readHeader .wrapping file 0 = .ok ((h.version, h.metadataMap, infos), _) :=
    header_ok.mpr ⟨h, stands, rfl, rfl, rfl, all⟩
  have second : readHeader .wrapping file 0 = .ok ((h'.version, h'.metadataMap, infos'), _) :=
    header_ok.mpr ⟨h', stands', rfl, rfl, rfl, all'⟩
  rw [first] at second
  simp only [Except.ok.injEq, Prod.mk.injEq] at second
  obtain ⟨⟨version, metadata, rfl⟩, length⟩ := second
  refine ⟨length, metadata, records_unique all all', version⟩

/-! ## Safety -/

variable (file) in
/-- The parser throws or returns tensors in the file, and nothing that it computed has wrapped. -/
structure Safe : Prop where
  throws : ∀ e, parse .wrapping file = .error e → ∃ x, e = .exception x
  exact : ∀ g, parse .wrapping file = .ok g → parse .exact file = .ok g
  inside : ∀ g, parse .wrapping file = .ok g → ∀ tensor ∈ g.tensors,
    tensor.absoluteOffset + tensor.nbytes ≤ file.bytes.length

variable (file h) in
/-- The end of a tensor, as the code computes it, does not lie behind the file. -/
def EndsInside (t : TensorRecord) : Prop :=
  ∀ start nbytes, alignUp .wrapping h.layout.length h.alignment = .ok start →
    ggmlTensorNbytes .wrapping t.typeId t.dimensions = .ok nbytes →
      ((start + t.offset) % 2 ^ 64 + nbytes) % 2 ^ 64 ≤ file.bytes.length

variable {start : Nat} {info tensor : GgufTensorInfo} {t : TensorRecord} {e : Stop}

lemma wrapping_place_ok :
    placeTensor .wrapping file start info = .ok tensor ↔
      ((start + info.offset) % 2 ^ 64 + info.nbytes) % 2 ^ 64 ≤ file.bytes.length ∧
        tensor = { info with absoluteOffset := (start + info.offset) % 2 ^ 64 } := by
  show (if file.bytes.length < ((start + info.offset) % 2 ^ 64 + info.nbytes) % 2 ^ 64 then _
    else _) = _ ↔ _
  split_ifs with behind
  · exact iff_of_false nofun fun both => absurd both.1 (Nat.not_le.mpr behind)
  · rw [pure_ok]
    exact (and_iff_right (Nat.not_lt.mp behind)).symm

lemma exact_place_ok :
    placeTensor .exact file start info = .ok tensor ↔ start + info.offset < 2 ^ 64 ∧
      start + info.offset + info.nbytes < 2 ^ 64 ∧
      start + info.offset + info.nbytes ≤ file.bytes.length ∧
      tensor = { info with absoluteOffset := start + info.offset } := by
  unfold placeTensor
  simp only [bind_ok, exact_add]
  constructor
  · rintro ⟨_, ⟨first, rfl⟩, _, ⟨second, rfl⟩, rest⟩
    split_ifs at rest with behind
    rw [pure_ok] at rest
    exact ⟨first, second, Nat.not_lt.mp behind, rest⟩
  · rintro ⟨first, second, inside, rfl⟩
    refine ⟨_, ⟨first, rfl⟩, _, ⟨second, rfl⟩, ?_⟩
    rw [if_neg (Nat.not_lt.mpr inside)]
    rfl

lemma wrapping_place_error (stop : placeTensor .wrapping file start info = .error e) :
    e = .exception (.tensorPastEnd info.name) := by
  have stop' : (if file.bytes.length < ((start + info.offset) % 2 ^ 64 + info.nbytes) % 2 ^ 64 then
      Except.error (.exception (.tensorPastEnd info.name)) else _) = Except.error e := stop
  split_ifs at stop' with behind
  · exact (Except.error.inj stop').symm
  · cases stop'

lemma wrapping_alignUp_error {value alignment : Nat}
    (stop : alignUp .wrapping value alignment = .error e) : alignment = 0 := by
  by_contra some
  have stop' : (if alignment = 0 then _ else Arith.wrapping.mul _ alignment) = Except.error e := stop
  rw [if_neg some] at stop'
  cases stop'

lemma layout_pos (h : Header) : 1 ≤ h.layout.length := by
  unfold Header.layout magic
  rw [List.length_append]
  exact Nat.le_add_right_of_le (by decide)

lemma throws_of_alignment (some : ∀ h, Stands file h → h.alignment ≠ 0)
    (stop : parse .wrapping file = .error e) : ∃ x, e = .exception x := by
  unfold parse at stop
  rcases error_bind.mp stop with read | ⟨⟨⟨version, metadata, infos⟩, cursor⟩, read, rest⟩
  · exact (scans_header .wrapping file).error (Nat.zero_le _) read rfl
  obtain ⟨h, stands, rfl, rfl, rfl, -⟩ := header_ok.mp read
  rcases error_bind.mp rest with aligned | ⟨start, -, rest⟩
  · exact absurd (wrapping_alignUp_error aligned) (some h stands)
  rcases error_bind.mp rest with placed | ⟨tensors, -, other⟩
  · obtain ⟨_, info, _, -, -, eq⟩ := mapM_error.mp placed
    exact ⟨_, wrapping_place_error eq⟩
  · cases other

/-- What is read for a record, over the natural numbers. -/
def TensorRecord.exactInfo (t : TensorRecord) : GgufTensorInfo where
  name := t.name
  shape := t.dimensions
  ggmlType := t.typeId
  dtype := ggmlTypeToDtype t.typeId
  offset := t.offset
  nbytes := nbytesOf t.typeId t.dimensions

lemma exact_info : t.info .exact = .ok info ↔ SizeFits t.typeId t.dimensions ∧
    info = t.exactInfo := by
  unfold TensorRecord.info
  simp only [bind_ok, pure_ok, exact_nbytes]
  constructor
  · rintro ⟨_, ⟨fits, rfl⟩, rfl⟩
    exact ⟨fits, rfl⟩
  · rintro ⟨fits, rfl⟩
    exact ⟨_, ⟨fits, rfl⟩, rfl⟩

lemma exact_tensor :
    (∃ info, t.info .exact = .ok info ∧ placeTensor .exact file start info = .ok tensor) ↔
      (t.PlaceFits start ∧
        start + t.offset + nbytesOf t.typeId t.dimensions ≤ file.bytes.length) ∧
      tensor = { t.exactInfo with absoluteOffset := start + t.offset } := by
  simp only [exact_info, exact_place_ok]
  constructor
  · rintro ⟨_, ⟨size, rfl⟩, first, stop, inside, rfl⟩
    exact ⟨⟨⟨size, first, stop⟩, inside⟩, rfl⟩
  · rintro ⟨⟨⟨size, first, stop⟩, inside⟩, rfl⟩
    exact ⟨_, ⟨size, rfl⟩, first, stop, inside, rfl⟩

lemma Assembles.noWrap (made : Assembles .exact file h g) : h.NoWrap := by
  obtain ⟨fits, -, start⟩ := (exact_alignUp (layout_pos h)).mp made.start
  have all := (List.forall₂_and_left (p := fun t => t.PlaceFits h.dataStart)
    (R := fun _ _ => True) ..).mp (made.tensors.imp fun t tensor placed => by
      rw [start] at placed
      exact ⟨(exact_tensor.mp placed).1.1, trivial⟩)
  exact ⟨fits, all.1⟩

lemma Assembles.exact (made : Assembles .wrapping file h g) (some : h.alignment ≠ 0)
    (noWrap : h.NoWrap) : Assembles .exact file h g := by
  have aligned : alignUp .exact h.layout.length h.alignment = .ok h.dataStart :=
    (exact_alignUp (layout_pos h)).mpr ⟨noWrap.start, some, rfl⟩
  have start : g.dataStart = h.dataStart := by
    have same := wrapping_alignUp aligned
    rw [made.start] at same
    exact Except.ok.inj same
  refine ⟨made.version, made.metadata, made.alignment, start ▸ aligned, ?_⟩
  have both := (List.forall₂_and_left (p := fun t => t.PlaceFits h.dataStart) ..).mpr
    ⟨noWrap.tensors, made.tensors⟩
  refine both.imp ?_
  rintro t tensor ⟨fits, info, read, placed⟩
  have same : info = t.exactInfo := by
    have same := wrapping_info (exact_info.mpr ⟨fits.size, rfl⟩)
    rw [read] at same
    exact Except.ok.inj same
  subst same
  obtain ⟨inside, rfl⟩ := wrapping_place_ok.mp placed
  rw [start] at inside ⊢
  have first := fits.start
  have stop := fits.stop
  have offset : t.exactInfo.offset = t.offset := rfl
  have nbytes : t.exactInfo.nbytes = nbytesOf t.typeId t.dimensions := rfl
  rw [offset, nbytes, Nat.mod_eq_of_lt first, Nat.mod_eq_of_lt stop] at inside
  refine exact_tensor.mpr ⟨⟨fits, inside⟩, ?_⟩
  rw [offset, Nat.mod_eq_of_lt first]
  rfl

lemma wrapping_alignUp_ok {value alignment : Nat} (some : alignment ≠ 0) :
    ∃ n, alignUp .wrapping value alignment = .ok n := by
  cases result : alignUp .wrapping value alignment with
  | ok n => exact ⟨n, rfl⟩
  | error e => exact absurd (wrapping_alignUp_error result) some

lemma wrapping_alignUp_zero (value : Nat) : alignUp .wrapping value 0 = .error .divisionByZero :=
  rfl

lemma wrapping_tensor (aligned : alignUp .wrapping h.layout.length h.alignment = .ok start) :
    (∃ tensor info, t.info .wrapping = .ok info ∧
      placeTensor .wrapping file start info = .ok tensor) ↔ EndsInside file h t := by
  obtain ⟨n, size⟩ := nbytes_wrapping t.typeId t.dimensions
  have read : ∃ info, t.info .wrapping = .ok info ∧ info.nbytes = n ∧ info.offset = t.offset := by
    rw [TensorRecord.info, size]
    exact ⟨_, rfl, rfl, rfl⟩
  obtain ⟨info, read, nbytes, offset⟩ := read
  constructor
  · rintro ⟨tensor, info', read', placed⟩ start' n' aligned' size'
    rw [aligned] at aligned'
    rw [size] at size'
    rw [read] at read'
    cases aligned'
    cases size'
    cases read'
    have inside := (wrapping_place_ok.mp placed).1
    rwa [nbytes, offset] at inside
  · intro inside
    have fits := inside start n aligned size
    rw [← nbytes, ← offset] at fits
    exact ⟨_, info, read, wrapping_place_ok.mpr ⟨fits, rfl⟩⟩

/-- What is accepted with the arithmetic of the code has no tensor that seems to end behind the
file, and without such a tensor it is accepted if there is an alignment. -/
lemma accepted_iff (stands : Stands file h) :
    (∃ g, parse .wrapping file = .ok g) ↔
      h.alignment ≠ 0 ∧ ∀ t ∈ h.tensors, EndsInside file h t := by
  constructor
  · rintro ⟨g, result⟩
    obtain ⟨h', stands', made⟩ := parse_ok.mp result
    obtain ⟨length, map, records, -⟩ := stands.unique stands'
    have alignment : h.alignment = h'.alignment := congrArg alignmentOf map
    have start := made.start
    rw [← length, ← alignment] at start
    refine ⟨fun zero => ?_, ?_⟩
    · rw [zero, wrapping_alignUp_zero] at start
      cases start
    · have all := exists_forall₂.mp ⟨_, made.tensors⟩
      rw [← records] at all
      exact fun t mem => (wrapping_tensor start).mp (all t mem)
  · rintro ⟨some, inside⟩
    obtain ⟨start, aligned⟩ : ∃ start,
        alignUp .wrapping h.layout.length h.alignment = .ok start := wrapping_alignUp_ok some
    obtain ⟨tensors, placed⟩ := exists_forall₂.mpr fun t mem =>
      (wrapping_tensor aligned).mpr (inside t mem)
    exact ⟨⟨h.version, h.alignment, start, h.metadataMap, tensors⟩,
      parse_ok.mpr ⟨h, stands, rfl, rfl, rfl, aligned, placed⟩⟩

lemma parse_zero (stands : Stands file h) (zero : h.alignment = 0) :
    parse .wrapping file = .error .divisionByZero := by
  obtain ⟨infos, all⟩ := infos_wrapping h.tensors
  have read : readHeader .wrapping file 0 = .ok ((h.version, h.metadataMap, infos), _) :=
    header_ok.mpr ⟨h, stands, rfl, rfl, rfl, all⟩
  have alignment : alignmentOf h.metadataMap = 0 := zero
  unfold parse
  rw [read]
  show (alignUp .wrapping h.layout.length (alignmentOf h.metadataMap) >>= _) = _
  rw [alignment, wrapping_alignUp_zero]
  rfl

/-- The parser is safe if the alignment is not 0 and, unless some tensor seems to end behind the
file, nothing wraps. -/
theorem safe_iff (file : MappedFile) :
    Safe file ↔ ∀ h, Stands file h →
      h.alignment ≠ 0 ∧ ((∀ t ∈ h.tensors, EndsInside file h t) → h.NoWrap) := by
  constructor
  · intro safe h stands
    have some : h.alignment ≠ 0 := by
      intro zero
      obtain ⟨x, other⟩ := safe.throws _ (parse_zero stands zero)
      cases other
    refine ⟨some, fun inside => ?_⟩
    obtain ⟨g, result⟩ := (accepted_iff stands).mpr ⟨some, inside⟩
    obtain ⟨h', stands', made⟩ := parse_ok.mp (safe.exact g result)
    obtain ⟨length, map, records, -⟩ := stands.unique stands'
    have alignment : h.alignment = h'.alignment := congrArg alignmentOf map
    have noWrap := made.noWrap
    refine ⟨?_, ?_⟩
    · rw [length, alignment]
      exact noWrap.start
    · rw [records, Header.dataStart, length, alignment]
      exact noWrap.tensors
  · intro condition
    have exact' : ∀ g, parse .wrapping file = .ok g → parse .exact file = .ok g := by
      intro g result
      obtain ⟨h, stands, made⟩ := parse_ok.mp result
      obtain ⟨some, noWrap⟩ := condition h stands
      have inside := ((accepted_iff stands).mp ⟨g, result⟩).2
      exact parse_ok.mpr ⟨h, stands, made.exact some (noWrap inside)⟩
    refine ⟨fun e => throws_of_alignment fun h stands => (condition h stands).1, exact', ?_⟩
    intro g result
    obtain ⟨h, stands, made⟩ := parse_ok.mp (exact' g result)
    have all := (List.forall₂_and_left (p := fun tensor : GgufTensorInfo =>
      tensor.absoluteOffset + tensor.nbytes ≤ file.bytes.length) (R := fun _ _ => True) ..).mp
        (made.tensors.flip.imp fun tensor t placed => by
          obtain ⟨⟨-, inside⟩, rfl⟩ := exact_tensor.mp placed
          exact ⟨inside, trivial⟩)
    exact all.1

end

/-- A file with an alignment of 0, and one with a tensor of 2^64 elements in no bytes. -/
theorem not_safe :
    let zero : Header :=
      ⟨3, [(encodeUtf8 (text "general.alignment"), .number .uint32 0)], []⟩
    let wide : Header := ⟨3, [], [⟨encodeUtf8 (text "w"), [2 ^ 32, 2 ^ 32], 0, 0⟩]⟩
    let zeroFile : MappedFile := ⟨zero.layout, by decide⟩
    let wideFile : MappedFile := ⟨wide.layout ++ List.replicate 64 0, by decide +kernel⟩
    parse .wrapping zeroFile = .error .divisionByZero ∧
      parse .wrapping wideFile = .ok ⟨3, 32, 96, [],
        [⟨encodeUtf8 (text "w"), [2 ^ 32, 2 ^ 32], 0, .f32, 0, 96, 0⟩]⟩ ∧
      ¬ Safe zeroFile ∧ ¬ Safe wideFile := by
  intro zero wide zeroFile wideFile
  have divides : parse .wrapping zeroFile = .error .divisionByZero := by decide +kernel
  have accepts : parse .wrapping wideFile = .ok ⟨3, 32, 96, [],
      [⟨encodeUtf8 (text "w"), [2 ^ 32, 2 ^ 32], 0, .f32, 0, 96, 0⟩]⟩ := by decide +kernel
  have wraps : parse .exact wideFile = .error .wrapped := by decide +kernel
  refine ⟨divides, accepts, fun safe => ?_, fun safe => ?_⟩
  · obtain ⟨x, other⟩ := safe.throws _ divides
    cases other
  · have exact' := safe.exact _ accepts
    rw [wraps] at exact'
    cases exact'

end PocketMoE.Loader
