import PocketMoE.Loader.GgufWriter

/-!
# The files of an importance matrix

Model of `_write_imatrix_gguf` (`imatrix.py`). The file begins with the layout of a header, and
`GGUFReader` reads that header back, with the data of every tensor where it expects it
(`read_written`).
-/

namespace PocketMoE.Loader.Python
open PocketMoE.Lib

/-- An array of `numpy`, in row-major order. -/
structure NdArray (α : Type) where
  shape : List Nat
  data : List α
  size : data.length = shape.prod

/-- An entry: the name, the sums and the counts. -/
structure IMatrixEntry (α : Type) where
  name : Text
  sum2 : NdArray α
  counts : NdArray α

/-- A tensor that is written, with its data as bytes. -/
structure WrittenTensor where
  name : Text
  dims : List Nat
  data : List Byte

section
variable {α : Type} (f4 : α → Fin (2 ^ 32))

/-- `arr.astype("<f4")`, as bytes; `f4` is the conversion of a number. -/
def NdArray.astypeF4 (arr : NdArray α) : List Byte := arr.data.flatMap fun x => leBytes 4 (f4 x)

/-- A round of the first loop of `_write_imatrix_gguf`. -/
def entryTensors (entry : IMatrixEntry α) : Except WriteError (List WrittenTensor) :=
  match entry.sum2.shape, entry.counts.shape with
  | [nExperts, width], [n] =>
    if n ≠ nExperts then .error .valueError
    else .ok [
      ⟨entry.name ++ text ".in_sum2", [width, nExperts], entry.sum2.astypeF4 f4⟩,
      ⟨entry.name ++ text ".counts", [1, nExperts], entry.counts.astypeF4 f4⟩]
  | _, _ => .error .valueError

/-- `_pack_string`. -/
def packString (s : Text) : Except WriteError (List Byte) := do
  let data ← encodeStrict s
  let length ← structPack 8 data.length
  return length ++ data

/-- `f.write(_pack_string(..))`. -/
def writePacked (s : Text) : Write Unit := do
  let data ← packString s
  fwrite data

/-- `_write_kv_u32`. -/
def writeKvU32 (key : Text) (value : Int) : Write Unit := do
  writePacked key
  writeStruct 4 4
  writeStruct 4 value

/-- `_write_kv_string`. -/
def writeKvString (key value : Text) : Write Unit := do
  writePacked key
  writeStruct 4 8
  writePacked value

/-- `_write_kv_string_array`. -/
def writeKvStringArray (key : Text) (values : List Text) : Write Unit := do
  writePacked key
  writeStruct 4 9
  writeStruct 4 8
  writeStruct 8 values.length
  writeAll writePacked values

/-- `_write_metadata`. -/
def writeMetadata (dataset : Text) (chunkSize chunkCount : Int) : Write Unit := do
  writeKvString (text "general.type") (text "imatrix")
  writeKvStringArray (text "imatrix.datasets")
    [if dataset = [] then text "dsv4_runtime_capture" else dataset]
  writeKvU32 (text "imatrix.chunk_count") chunkCount
  writeKvU32 (text "imatrix.chunk_size") chunkSize

/-- `_write_tensor_record`, for the type F32. -/
def writeTensorRecord (record : WrittenTensor × Nat) : Write Unit := do
  writePacked record.1.name
  writeStruct 4 record.1.dims.length
  writeAll (fun dim : Nat => writeStruct 8 dim) record.1.dims
  writeStruct 4 0
  writeStruct 8 record.2

/-- `_write_imatrix_gguf`: the bytes of the file. -/
def writeImatrixGguf (entries : List (IMatrixEntry α)) (dataset : Text) (chunkSize chunkCount : Int) :
    Except WriteError (List Byte) := do
  let tensors ← entries.mapM (entryTensors f4)
  let tensors := tensors.flatten
  let offsets := starts 32 0 (tensors.map fun t => t.data.length)
  let write : Write Unit := do
    fwrite magic
    writeStruct 4 3
    writeStruct 8 tensors.length
    writeStruct 8 4
    writeMetadata dataset chunkSize chunkCount
    writeAll writeTensorRecord (tensors.zip offsets)
    padFile 32
    writeAll (fun t => do fwrite t.data; padFile 32) tensors
  let (_, file) ← write []
  return file

end

/-! ## The header -/

/-- The record of a tensor. -/
def record (tensor : WrittenTensor × Nat) : TensorRecord :=
  ⟨encodeUtf8 tensor.1.name, tensor.1.dims, 0, tensor.2⟩

/-- The header that the file begins with. -/
def imatrixHeader (tensors : List (WrittenTensor × Nat)) (dataset : Text) (chunkSize chunkCount : Nat) :
    Header where
  version := 3
  metadata := [
    (encodeUtf8 (text "general.type"), .string (encodeUtf8 (text "imatrix"))),
    (encodeUtf8 (text "imatrix.datasets"),
      .strings [encodeUtf8 (if dataset = [] then text "dsv4_runtime_capture" else dataset)]),
    (encodeUtf8 (text "imatrix.chunk_count"), .number .uint32 chunkCount),
    (encodeUtf8 (text "imatrix.chunk_size"), .number .uint32 chunkSize)]
  tensors := tensors.map record

lemma appends_packed (s : Text) : Appends (writePacked s) fun l =>
    ((∀ c ∈ s, IsScalar c) ∧ (encodeUtf8 s).length < 2 ^ 64) ∧ l = stringLayout (encodeUtf8 s) := by
  refine .lift fun data packed => (appends_fwrite data).of_imp ?_
  rintro l rfl
  simp only [packString, bind_ok, pure_ok] at packed
  obtain ⟨bytes, encoded, length, counted, rfl⟩ := packed
  obtain ⟨scalars, rfl⟩ := encodeStrict_ok encoded
  obtain ⟨⟨-, short⟩, rfl⟩ := structPack_ok counted
  rw [Int.toNat_natCast] at short ⊢
  exact ⟨⟨scalars, short⟩, rfl⟩

/-- An entry that Python can read. -/
def EntryFits (entry : List Byte × Value) : Prop :=
  entry.1.length < 2 ^ 64 ∧ entry.2.Fits vectorCapacity

lemma appends_kvU32 (key : Text) (value : Int) : Appends (writeKvU32 key value) fun l =>
    (0 ≤ value ∧ EntryFits (encodeUtf8 key, .number .uint32 value.toNat)) ∧
      l = entryLayout (encodeUtf8 key, .number .uint32 value.toNat) := by
  refine ((appends_packed key).bind fun _ => (appends_nat 4 4).bind fun _ =>
    appends_struct 4 value).of_imp ?_
  rintro _ ⟨_, _, rfl, ⟨⟨-, short⟩, rfl⟩, _, _, rfl, ⟨-, rfl⟩, ⟨nonneg, fits⟩, rfl⟩
  exact ⟨⟨nonneg, short, fits⟩, rfl⟩

lemma appends_kvString (key value : Text) : Appends (writeKvString key value) fun l =>
    EntryFits (encodeUtf8 key, .string (encodeUtf8 value)) ∧
      l = entryLayout (encodeUtf8 key, .string (encodeUtf8 value)) := by
  refine ((appends_packed key).bind fun _ => (appends_nat 4 8).bind fun _ =>
    appends_packed value).of_imp ?_
  rintro _ ⟨_, _, rfl, ⟨⟨-, short⟩, rfl⟩, _, _, rfl, ⟨-, rfl⟩, ⟨-, fits⟩, rfl⟩
  exact ⟨⟨short, fits⟩, rfl⟩

lemma appends_kvStringArray (key value : Text) : Appends (writeKvStringArray key [value]) fun l =>
    EntryFits (encodeUtf8 key, .strings [encodeUtf8 value]) ∧
      l = entryLayout (encodeUtf8 key, .strings [encodeUtf8 value]) := by
  refine ((appends_packed key).bind fun _ => (appends_nat 4 9).bind fun _ =>
    (appends_nat 4 8).bind fun _ => (appends_nat 8 1).bind fun _ =>
    appends_all fun value _ => appends_packed value).of_imp ?_
  rintro _ ⟨_, _, rfl, ⟨⟨-, short⟩, rfl⟩, _, _, rfl, ⟨-, rfl⟩, _, _, rfl, ⟨-, rfl⟩, _, _, rfl, ⟨-, rfl⟩,
    all, rfl⟩
  obtain ⟨-, fits⟩ := all value List.mem_cons_self
  refine ⟨⟨short, ?_, ?_, ?_⟩, rfl⟩
  · exact (by decide : 1 < 2 ^ 64)
  · exact (by decide : 1 ≤ vectorMaxSize 32)
  · exact List.forall_mem_singleton.mpr fits

lemma appends_record (tensor : WrittenTensor × Nat) : Appends (writeTensorRecord tensor) fun l =>
    ((∀ c ∈ tensor.1.name, IsScalar c) ∧ (record tensor).Fits) ∧ l = (record tensor).layout := by
  refine ((appends_packed tensor.1.name).bind fun _ => (appends_nat 4 _).bind fun _ =>
    (appends_all fun dim _ => appends_nat 8 dim).bind fun _ => (appends_nat 4 0).bind fun _ =>
    appends_nat 8 tensor.2).of_imp ?_
  rintro _ ⟨_, _, rfl, ⟨⟨scalars, short⟩, rfl⟩, _, _, rfl, ⟨few, rfl⟩, _, _, rfl, ⟨dims, rfl⟩, _, _, rfl,
    ⟨type, rfl⟩, near, rfl⟩
  exact ⟨⟨scalars, short, few, dims, type, near⟩, rfl⟩

lemma appends_metadata (dataset : Text) (chunkSize chunkCount : Int) :
    Appends (writeMetadata dataset chunkSize chunkCount) fun l => ∃ size count : Nat,
      chunkSize = size ∧ chunkCount = count ∧
        (∀ entry ∈ (imatrixHeader [] dataset size count).metadata, EntryFits entry) ∧
        l = (imatrixHeader [] dataset size count).metadata.flatMap entryLayout := by
  refine ((appends_kvString _ _).bind fun _ => (appends_kvStringArray _ _).bind fun _ =>
    (appends_kvU32 _ chunkCount).bind fun _ => appends_kvU32 _ chunkSize).of_imp ?_
  rintro _ ⟨_, _, rfl, ⟨first, rfl⟩, _, _, rfl, ⟨second, rfl⟩, _, _, rfl, ⟨⟨nonneg, third⟩, rfl⟩,
    ⟨nonneg', fourth⟩, rfl⟩
  refine ⟨chunkSize.toNat, chunkCount.toNat, (Int.toNat_of_nonneg nonneg').symm,
    (Int.toNat_of_nonneg nonneg).symm, ?_, ?_⟩
  · exact List.forall_mem_cons.mpr ⟨first, List.forall_mem_cons.mpr ⟨second,
      List.forall_mem_cons.mpr ⟨third, List.forall_mem_singleton.mpr fourth⟩⟩⟩
  · simp only [imatrixHeader, List.flatMap_cons, List.flatMap_nil, List.append_nil]

section
variable {α : Type} {f4 : α → Fin (2 ^ 32)} {entries : List (IMatrixEntry α)} {dataset : Text}
  {chunkSize chunkCount : Int} {file : List Byte}

/-- The tensors with the places of their data. -/
def placed (tensors : List WrittenTensor) : List (WrittenTensor × Nat) :=
  tensors.zip (starts 32 0 (tensors.map fun t => t.data.length))

lemma writeImatrixGguf_ok (written : writeImatrixGguf f4 entries dataset chunkSize chunkCount = .ok file) :
    ∃ tensors, entries.mapM (entryTensors f4) = .ok tensors ∧ ∃ size count : Nat,
      chunkSize = size ∧ chunkCount = count ∧
        (∀ t ∈ placed tensors.flatten, ∀ c ∈ t.1.name, IsScalar c) ∧
        (imatrixHeader (placed tensors.flatten) dataset size count).Readable ∧
        file.length < 2 ^ 63 ∧
        file = filled 32 0 (imatrixHeader (placed tensors.flatten) dataset size count).layout ++
          (tensors.flatten.map WrittenTensor.data).flatMap (filled 32 0) := by
  simp only [writeImatrixGguf, bind_ok, pure_ok] at written
  obtain ⟨tensors, made, ⟨u, file'⟩, wrote, rfl⟩ := written
  simp only [run_bind_ok] at wrote
  obtain ⟨_, f₁, wrote₁, _, f₂, wrote₂, _, f₃, wrote₃, _, f₄, wrote₄, _, f₅, wrote₅, _, f₆, wrote₆,
    _, f₇, wrote₇, wrote₈⟩ := wrote
  rw [← placed] at wrote₆
  have start : ([] : List Byte).length < 2 ^ 63 := by decide
  obtain ⟨small, _, rfl, rfl⟩ := appends_fwrite magic start wrote₁
  obtain ⟨small, _, rfl, -, rfl⟩ := appends_nat 4 3 small wrote₂
  obtain ⟨small, _, rfl, many, rfl⟩ := appends_nat 8 _ small wrote₃
  obtain ⟨small, _, rfl, -, rfl⟩ := appends_nat 8 4 small wrote₄
  obtain ⟨small, _, rfl, size, count, rfl, rfl, metadata, rfl⟩ :=
    appends_metadata dataset chunkSize chunkCount small wrote₅
  obtain ⟨small, _, rfl, records, rfl⟩ := appends_all (fun t _ => appends_record t) small wrote₆
  obtain ⟨small, rfl⟩ := padFile_ok (by decide) small wrote₇
  -- everything so far is the layout of the header
  have length : (placed tensors.flatten).length = tensors.flatten.length := by
    rw [placed, List.length_zip, length_starts, List.length_map, Nat.min_self]
  have layout : magic ++ leBytes 4 3 ++ leBytes 8 tensors.flatten.length ++ leBytes 8 4 ++
      (imatrixHeader [] dataset size count).metadata.flatMap entryLayout ++
      (placed tensors.flatten).flatMap (fun t => (record t).layout) =
        (imatrixHeader (placed tensors.flatten) dataset size count).layout := by
    simp only [Header.layout, imatrixHeader, List.length_map, length, List.flatMap_map,
      List.append_assoc, List.length_cons, List.length_nil]
  rw [layout] at small wrote₈
  have aligned : 32 ∣ (filled 32 (0 : Byte)
      (imatrixHeader (placed tensors.flatten) dataset size count).layout).length := by
    rw [length_filled (by decide)]
    exact dvd_roundUp ..
  obtain ⟨small, -, rfl⟩ := blocks_ok (C := fun _ => True) (by decide)
    (fun t _ => (appends_fwrite t.data).of_imp fun l eq => ⟨trivial, eq⟩) small aligned wrote₈
  refine ⟨tensors, made, size, count, rfl, rfl, fun t member => (records t member).1, ?_, small, rfl⟩
  refine ⟨(by decide : 3 < 256 ^ 4), (by decide : 4 < 2 ^ 64), metadata, ?_, ?_⟩
  · rw [imatrixHeader, List.length_map, length]
    exact many
  · exact List.forall_mem_map.mpr fun t member => (records t member).2

/-! ## Reading it back -/

/-- The two tensors of an entry. -/
def Describes (f4 : α → Fin (2 ^ 32)) (entry : IMatrixEntry α) (tensors : List WrittenTensor) : Prop :=
  ∃ nExperts width, entry.sum2.shape = [nExperts, width] ∧ entry.counts.shape = [nExperts] ∧
    tensors = [
      ⟨entry.name ++ text ".in_sum2", [width, nExperts], entry.sum2.astypeF4 f4⟩,
      ⟨entry.name ++ text ".counts", [1, nExperts], entry.counts.astypeF4 f4⟩]

/-- The reader has found a tensor, and its data where it expects it. -/
structure Found (file : List Byte) (tensor : WrittenTensor) (info : GGUFTensorInfo) : Prop where
  name : info.name = tensor.name
  dimensions : info.dimensions = tensor.dims
  typeId : info.typeId = 0
  nbytes : info.nbytes = some tensor.data.length
  data : ∃ place : Nat, info.absoluteOffset = place ∧ At tensor.data file place

lemma length_astypeF4 (arr : NdArray α) : (arr.astypeF4 f4).length = arr.shape.prod * 4 := by
  have four : ∀ x ∈ arr.data, (leBytes 4 (f4 x)).length = 4 := fun x _ => length_leBytes 4 _
  rw [NdArray.astypeF4, List.length_flatMap, List.map_congr_left four, List.map_const',
    List.sum_replicate_nat, arr.size]

lemma entryTensors_ok {entry : IMatrixEntry α} {tensors : List WrittenTensor}
    (made : entryTensors f4 entry = .ok tensors) : Describes f4 entry tensors := by
  unfold entryTensors at made
  split at made
  case h_1 nExperts width n sums counts =>
    split_ifs at made with same
    cases made
    rw [not_not] at same
    exact ⟨nExperts, width, sums, by rw [counts, same], rfl⟩
  case h_2 => cases made

lemma Describes.nbytes {entry : IMatrixEntry α} {tensors : List WrittenTensor}
    (describes : Describes f4 entry tensors) :
    ∀ t ∈ tensors, tensorNbytes 0 t.dims = some t.data.length := by
  obtain ⟨nExperts, width, sums, counts, rfl⟩ := describes
  have total (n : Nat) : (n + 1 - 1) / 1 * 4 = n * 4 := by
    rw [Nat.add_sub_cancel, Nat.div_one]
  refine List.forall_mem_cons.mpr ⟨?_, List.forall_mem_singleton.mpr ?_⟩
  · rw [length_astypeF4, sums]
    show some (([width, nExperts].prod + 1 - 1) / 1 * 4) = _
    rw [total, List.prod_pair, List.prod_pair, Nat.mul_comm width]
  · rw [length_astypeF4, counts]
    show some (([1, nExperts].prod + 1 - 1) / 1 * 4) = _
    rw [total, List.prod_pair, Nat.one_mul, List.prod_singleton]

/-- The metadata as the reader has it, the last entry first. -/
def readBack (chunkSize chunkCount : Int) : List (Text × PyValue) := [
  (text "imatrix.chunk_size", .int chunkSize),
  (text "imatrix.chunk_count", .int chunkCount),
  (text "imatrix.datasets", .summary 8 1),
  (text "general.type", .str (text "imatrix"))]

lemma pyMetadata_eq (tensors : List (WrittenTensor × Nat)) (size count : Nat) :
    (imatrixHeader tensors dataset size count).pyMetadata = readBack size count := by
  have ascii {s : Text} (low : s.all (fun c => c.1 < 0x80) = true) : decodeUtf8 (encodeUtf8 s) = s :=
    (decode_ascii (forall_code low) _).mpr rfl
  show [(decodeUtf8 (encodeUtf8 (text "imatrix.chunk_size")), PyValue.int size),
    (decodeUtf8 (encodeUtf8 (text "imatrix.chunk_count")), PyValue.int count),
    (decodeUtf8 (encodeUtf8 (text "imatrix.datasets")), PyValue.summary 8 1),
    (decodeUtf8 (encodeUtf8 (text "general.type")),
      PyValue.str (decodeUtf8 (encodeUtf8 (text "imatrix"))))] = _
  rw [ascii (by decide), ascii (by decide), ascii (by decide), ascii (by decide), ascii (by decide)]
  rfl

lemma tensorInfo_found {start : Nat} {tensor : WrittenTensor × Nat}
    (scalars : ∀ c ∈ tensor.1.name, IsScalar c)
    (size : tensorNbytes 0 tensor.1.dims = some tensor.1.data.length)
    (here : At tensor.1.data file (start + tensor.2)) :
    Found file tensor.1 (tensorInfo start (record tensor).pyRecord) where
  name := decode_encode scalars
  dimensions := rfl
  typeId := rfl
  nbytes := size
  data := ⟨start + tensor.2, rfl, here⟩

/-- `GGUFReader` reads back the tensors that were written, with their data, and the metadata. -/
theorem read_written (py : Builtins)
    (written : writeImatrixGguf f4 entries dataset chunkSize chunkCount = .ok file) :
    ∃ tensors g, List.Forall₂ (Describes f4) entries tensors ∧ read py file = .ok g ∧
      List.Forall₂ (Found file) tensors.flatten g.tensors ∧ g.version = 3 ∧
      g.metadata = readBack chunkSize chunkCount := by
  obtain ⟨tensors, made, size, count, rfl, rfl, scalars, readable, small, eq⟩ :=
    writeImatrixGguf_ok written
  have describes : List.Forall₂ (Describes f4) entries tensors :=
    (mapM_ok.mp made).imp fun _ _ => entryTensors_ok
  let header := imatrixHeader (placed tensors.flatten) dataset size count
  let start := roundUp 32 header.layout.length
  have begins : header.layout <+: file := by
    rw [eq, filled, List.append_assoc]
    exact List.prefix_append ..
  obtain ⟨isGguf, parsed⟩ := readHeader_ok small readable begins
  have aligned : alignUp header.layout.length 32 = .ok (start : Int) :=
    alignUp_eq (by decide) header.layout.length
  rw [pyMetadata_eq] at parsed
  have alignment : toInt py (((readBack size count).lookup (text "general.alignment")).getD
      (.int 32)) = .ok 32 := by rfl
  refine ⟨tensors, _, describes, read_eq isGguf parsed alignment aligned, ?_, rfl, rfl⟩
  have found : ∀ tensor ∈ placed tensors.flatten,
      Found file tensor.1 (tensorInfo start (record tensor).pyRecord) := by
    intro tensor member
    refine tensorInfo_found (scalars tensor member) ?_ ?_
    · obtain ⟨ts, among, one⟩ := List.mem_flatten.mp (List.of_mem_zip member).1
      have back : List.Forall₂ (flip (Describes f4)) tensors entries := describes.flip
      obtain ⟨entry, -, described⟩ := forall₂_mem back ts among
      exact described.nbytes tensor.1 one
    · have here := at_starts_zip (by decide : 1 ≤ 32) (0 : Byte) (filled 32 0 header.layout)
        WrittenTensor.data tensors.flatten tensor member
      rwa [length_filled (by decide), ← eq] at here
  -- the records are those of the tensors with their places
  have all : List.Forall₂ (Found file) ((placed tensors.flatten).map Prod.fst)
      ((placed tensors.flatten).map fun tensor => tensorInfo start (record tensor).pyRecord) := by
    rw [List.forall₂_map_left_iff, List.forall₂_map_right_iff, List.forall₂_same]
    exact found
  have tensorsPlaced : (placed tensors.flatten).map Prod.fst = tensors.flatten := by
    apply List.map_fst_zip
    rw [length_starts, List.length_map]
  rw [tensorsPlaced] at all
  rwa [imatrixHeader, List.map_map, List.map_map]

end

/-- An entry with one expert and one number. -/
def oneEntry : IMatrixEntry (Fin (2 ^ 32)) where
  name := text "a"
  sum2 := ⟨[1, 1], [0], rfl⟩
  counts := ⟨[1], [1], rfl⟩

/-- It is read back. -/
theorem read_written_one :
    ∃ file tensors g, writeImatrixGguf id [oneEntry] [] 512 1 = .ok file ∧
      List.Forall₂ (Describes id) [oneEntry] tensors ∧ read noTexts file = .ok g ∧
      List.Forall₂ (Found file) tensors.flatten g.tensors ∧ g.version = 3 ∧
      g.metadata = readBack 512 1 := by
  have fine : (writeImatrixGguf id [oneEntry] [] 512 1).isOk := by decide +kernel
  cases written : writeImatrixGguf id [oneEntry] [] 512 1 with
  | error e =>
    rw [written] at fine
    cases fine
  | ok file =>
    obtain ⟨tensors, g, all⟩ := read_written noTexts written
    exact ⟨file, tensors, g, rfl, all⟩

/-- What is read back of a file without entries, by its dataset. -/
def readDataset (dataset : Text) : Option GGUFFile :=
  match writeImatrixGguf id [] dataset 512 0 with
  | .error _ => none
  | .ok file =>
    match read noTexts file with
    | .error _ => none
    | .ok g => some g

/-- The dataset is not read back. -/
theorem datasets_alike :
    (readDataset (text "a")).isSome ∧ readDataset (text "a") = readDataset (text "b") := by
  decide +kernel

end PocketMoE.Loader.Python
