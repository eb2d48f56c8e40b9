import PocketMoE.Loader.Rewritten

/-!
# Reading the output of the rewriter

`GGUFReader` reads the template's metadata in the output, and for every row of the plan a tensor. Whether
that tensor is as planned depends on the second decision of the writer: a routed tensor that was not
selected but has the type F16 already is converted as well (`rewrites_iff`).
-/

namespace PocketMoE.Loader.Python
open PocketMoE.Lib

/-! ## Reading a part again -/

section
variable {bytes bytes' : List Byte} {stop : Nat}

lemma local_exactly (same : bytes.take stop <+: bytes') (n : Nat) :
    FollowsBefore (stop + 1) (readExactly bytes n) (readExactly bytes' n) Eq := by
  intro i data j read
  obtain ⟨inside, rfl, rfl⟩ := readExactly_iff.mp read
  refine ⟨Nat.le_add_right i n, fun before => ?_⟩
  obtain ⟨rest, rfl⟩ := same
  rw [List.length_drop] at inside
  have enough : n ≤ ((bytes.take stop).drop i).length := by
    rw [List.length_drop, List.length_take]
    omega
  have data : ((bytes.take stop ++ rest).drop i).take n = (bytes.drop i).take n := by
    rw [List.drop_append, List.take_append_of_le_length enough, List.drop_take, List.take_take,
      Nat.min_eq_left (by omega)]
  refine ⟨_, readExactly_iff.mpr ⟨?_, data.symm, rfl⟩, rfl⟩
  rw [List.drop_append, List.length_append]
  exact Nat.le_add_right_of_le enough

lemma local_struct (same : bytes.take stop <+: bytes') (width : Nat) :
    FollowsBefore (stop + 1) (readStruct bytes width) (readStruct bytes' width) Eq := by
  refine (local_exactly same width).bind ?_ fun data => ⟨data, rfl⟩
  rintro data _ rfl
  exact .pure rfl

lemma local_bind {α : Type} {width : Nat} {k k' : Nat → Read PyError α}
    (same : bytes.take stop <+: bytes') (rest : ∀ n, FollowsBefore (stop + 1) (k n) (k' n) Eq) :
    FollowsBefore (stop + 1) (readStruct bytes width >>= k) (readStruct bytes' width >>= k') Eq := by
  refine (local_struct same width).bind ?_ fun n => ⟨n, rfl⟩
  rintro n _ rfl
  exact rest n

lemma local_string (same : bytes.take stop <+: bytes') :
    FollowsBefore (stop + 1) (readString bytes) (readString bytes') Eq := by
  refine local_bind same fun n => (local_exactly same n).bind ?_ fun data => ⟨data, rfl⟩
  rintro data _ rfl
  exact .pure rfl

lemma local_seek (n : Nat) : FollowsBefore (stop + 1) (seek n) (seek n) Eq := by
  intro i u j sought
  have forward := sought
  unfold seek at forward
  split_ifs at forward
  cases forward
  exact ⟨Nat.le_add_right i n, fun _ => ⟨(), sought, rfl⟩⟩

lemma local_skipArray (same : bytes.take stop <+: bytes') (itemType length : Nat) :
    FollowsBefore (stop + 1) (skipArray bytes itemType length) (skipArray bytes' itemType length)
      Eq := by
  unfold skipArray
  cases metadataTypes itemType with
  | none => exact .throw
  | some type =>
    cases type with
    | number kind => exact local_seek _
    | string =>
      have round : FollowsBefore (stop + 1) (skipString bytes) (skipString bytes') Eq :=
        local_bind same local_seek
      refine (round.many (fun u => ⟨u, rfl⟩) length).bind (fun _ _ _ => .pure rfl) fun us => ?_
      exact ⟨us, trivial⟩
    | array => exact .throw

lemma local_value (same : bytes.take stop <+: bytes') (valueType : Nat) :
    FollowsBefore (stop + 1) (readValue bytes valueType) (readValue bytes' valueType) Eq := by
  unfold readValue
  cases metadataTypes valueType with
  | none => exact .throw
  | some type =>
    cases type with
    | number kind => exact local_bind same fun raw => .pure rfl
    | string =>
      refine (local_string same).bind ?_ fun s => ⟨s, rfl⟩
      rintro s _ rfl
      exact .pure rfl
    | array =>
      refine local_bind same fun itemType => local_bind same fun length => ?_
      refine (local_skipArray same itemType length).bind ?_ fun u => ⟨u, rfl⟩
      rintro u _ rfl
      exact .pure rfl

lemma local_entry (same : bytes.take stop <+: bytes') :
    FollowsBefore (stop + 1) (readEntry bytes) (readEntry bytes') Eq := by
  refine (local_string same).bind ?_ fun key => ⟨key, rfl⟩
  rintro key _ rfl
  refine local_bind same fun valueType => ?_
  refine (local_value same valueType).bind ?_ fun value => ⟨value, rfl⟩
  rintro value _ rfl
  exact .pure rfl

end

/-! ## The template -/

lemma readStruct_ok {bytes : List Byte} {width i j n : Nat}
    (read : readStruct bytes width i = .ok (n, j)) :
    (bytes.drop i).take width = leBytes width n ∧ j = i + width := by
  obtain ⟨data, m, here, last⟩ := run_bind_ok.mp read
  obtain ⟨inside, rfl, rfl⟩ := readExactly_iff.mp here
  obtain ⟨rfl, rfl⟩ := run_pure_ok.mp last
  have length : ((bytes.drop i).take width).length = width := List.length_take_of_le inside
  have back := leBytes_leNat ((bytes.drop i).take width)
  rw [length] at back
  exact ⟨back.symm, rfl⟩

/-- What was read of a file. -/
structure Parsed (py : Builtins) (bytes : List Byte) (g : GGUFFile) (entries : List (Text × PyValue))
    (records : List (Text × List Nat × Nat × Nat)) (metaEnd pos : Nat) : Prop where
  preamble : bytes.take 24 = magic ++ (leBytes 4 g.version ++ (leBytes 8 g.tensorCount ++
    leBytes 8 g.metadataCount))
  readEntries : readMany (readEntry bytes) g.metadataCount 24 = .ok (entries, metaEnd)
  readRecords : readMany (readTensorRecord bytes) g.tensorCount metaEnd = .ok (records, pos)
  metadata : g.metadata = entries.reverse
  taken : toInt py ((g.metadata.lookup (text "general.alignment")).getD (.int 32)) = .ok g.alignment
  aligned : alignUp pos g.alignment = .ok g.dataStart
  tensors : g.tensors = records.map (tensorInfo g.dataStart)

lemma read_parsed {py : Builtins} {bytes : List Byte} {g : GGUFFile} (done : read py bytes = .ok g) :
    ∃ entries records metaEnd pos, Parsed py bytes g entries records metaEnd pos := by
  unfold Python.read at done
  split_ifs at done with other
  obtain ⟨⟨⟨version, metadata, records⟩, pos⟩, header, done⟩ := bind_ok.mp done
  obtain ⟨alignment, taken, done⟩ := bind_ok.mp done
  obtain ⟨dataStart, aligned, done⟩ := bind_ok.mp done
  cases done
  obtain ⟨version', _, first, header⟩ := run_bind_ok.mp header
  obtain ⟨tensorCount, _, second, header⟩ := run_bind_ok.mp header
  obtain ⟨metadataCount, _, third, header⟩ := run_bind_ok.mp header
  obtain ⟨entries, metaEnd, fourth, header⟩ := run_bind_ok.mp header
  obtain ⟨records', _, fifth, header⟩ := run_bind_ok.mp header
  obtain ⟨eq, rfl⟩ := run_pure_ok.mp header
  cases eq
  obtain ⟨versionBytes, rfl⟩ := readStruct_ok first
  obtain ⟨tensorBytes, rfl⟩ := readStruct_ok second
  obtain ⟨metadataBytes, rfl⟩ := readStruct_ok third
  refine ⟨entries, records, metaEnd, pos, ?_, ?_, ?_, rfl, taken, aligned, rfl⟩
  · dsimp only
    rw [readMany_length fifth, List.length_reverse, readMany_length fourth, ← versionBytes,
      ← tensorBytes, ← metadataBytes, ← not_not.mp other, ← List.append_assoc, ← List.append_assoc,
      ← List.take_add, ← List.take_add, ← List.take_add]
  · dsimp only
    rw [List.length_reverse, readMany_length fourth]
    exact fourth
  · dsimp only
    rw [readMany_length fifth]
    exact fifth

section
variable {py : Builtins} {template raw : List Byte} {ds4 : GGUFFile}
  {entries : List (Text × PyValue)} {records : List (Text × List Nat × Nat × Nat)} {metaEnd pos : Nat}

lemma Parsed.copied (parsed : Parsed py template ds4 entries records metaEnd pos)
    (copied : metadataRawBytes template ds4.metadataCount = .ok raw) :
    raw = (template.drop 24).take (metaEnd - 24) := by
  have start : Reached template 24 := Or.inr (by decide)
  obtain ⟨-, _, read, -⟩ :=
    Follows.many follows_readEntry ds4.metadataCount start parsed.readEntries
  unfold metadataRawBytes at copied
  split_ifs at copied with other
  cases skipped : readMany (skipEntry template) ds4.metadataCount 24 with
  | error e =>
    rw [skipped] at copied
    cases copied
  | ok walked =>
    rw [skipped] at copied
    cases copied
    obtain ⟨-, _, ends, -⟩ := Follows.many follows_skipEntry ds4.metadataCount start skipped
    rw [read] at ends
    cases ends
    rfl

lemma Parsed.le_metaEnd (parsed : Parsed py template ds4 entries records metaEnd pos) :
    24 ≤ metaEnd := by
  have same : template.take metaEnd <+: template := List.take_prefix ..
  exact ((local_entry same).many_eq _ parsed.readEntries).1

lemma Parsed.head_eq (parsed : Parsed py template ds4 entries records metaEnd pos)
    (copied : metadataRawBytes template ds4.metadataCount = .ok raw) (alignment : Nat)
    (rows : List (GGUFTensorInfo × Bool)) :
    outputHead alignment ds4 raw rows = template.take metaEnd ++
      (placedRows alignment rows).flatMap fun p => (plannedRecord p).layout := by
  have le := parsed.le_metaEnd
  have split : template.take metaEnd = template.take 24 ++ raw := by
    rw [parsed.copied copied, ← List.take_add, Nat.add_sub_cancel' le]
  rw [split, parsed.preamble, outputHead]
  simp only [List.append_assoc]

lemma Parsed.tensorCount_eq (parsed : Parsed py template ds4 entries records metaEnd pos) :
    ds4.tensorCount = ds4.tensors.length := by
  rw [parsed.tensors, List.length_map, readMany_length parsed.readRecords]

lemma Parsed.inside (parsed : Parsed py template ds4 entries records metaEnd pos)
    (some : ds4.tensors ≠ []) : metaEnd ≤ template.length := by
  obtain ⟨tensor, tensors, eq⟩ := List.exists_cons_of_ne_nil some
  have read := parsed.readRecords
  rw [parsed.tensorCount_eq, eq, List.length_cons] at read
  obtain ⟨_, _, first, -⟩ := run_bind_ok.mp read
  obtain ⟨_, _, name, -⟩ := run_bind_ok.mp first
  obtain ⟨_, _, length, -⟩ := run_bind_ok.mp name
  obtain ⟨_, _, exactly, -⟩ := run_bind_ok.mp length
  obtain ⟨inside, -⟩ := readExactly_iff.mp exactly
  rw [List.length_drop] at inside
  omega

end

lemma takes_records {bytes : List Byte} {tensors : List TensorRecord} (fits : ∀ t ∈ tensors, t.Fits)
    {i : Nat} (here : At (tensors.flatMap TensorRecord.layout) bytes i) :
    readMany (readTensorRecord bytes) tensors.length i =
      .ok (tensors.map TensorRecord.pyRecord, i + (tensors.flatMap TensorRecord.layout).length) := by
  refine Takes.many takes_record tensors.length ?_ here
  exact (many_iff fun _ _ => Iff.rfl).mpr ⟨tensors, rfl, fits, rfl, forall₂_map.mpr rfl⟩

/-! ## The output -/

section
variable {py : Builtins} {source : Source} {template raw out : List Byte} {ds4 : GGUFFile}
  {entries : List (Text × PyValue)} {records : List (Text × List Nat × Nat × Nat)} {metaEnd pos : Nat}
  {rows : List (GGUFTensorInfo × Bool)} {alignment : Nat}

/-- The records as they are planned. -/
def plannedRecords (alignment : Nat) (rows : List (GGUFTensorInfo × Bool)) : List TensorRecord :=
  (placedRows alignment rows).map plannedRecord

lemma length_placedRows : (placedRows alignment rows).length = rows.length := by
  conv_rhs => rw [← placedRows_fst alignment rows]
  rw [List.length_map]

lemma length_plannedRecords : (plannedRecords alignment rows).length = rows.length := by
  rw [plannedRecords, List.length_map, length_placedRows]

/-- Where the header of the output ends, for the reader. -/
def headEnd (metaEnd alignment : Nat) (rows : List (GGUFTensorInfo × Bool)) : Nat :=
  metaEnd + ((plannedRecords alignment rows).flatMap TensorRecord.layout).length

lemma Output.header (parsed : Parsed py template ds4 entries records metaEnd pos)
    (copied : metadataRawBytes template ds4.metadataCount = .ok raw)
    (tensors : rows.map Prod.fst = ds4.tensors)
    (output : Output py source template ds4 rows alignment raw out) :
    out.take 4 = magic ∧ readHeader out 4 = .ok ((ds4.version, ds4.metadata,
      (plannedRecords alignment rows).map TensorRecord.pyRecord), headEnd metaEnd alignment rows) := by
  have begins : outputHead alignment ds4 raw rows <+: out := by
    rw [output.eq, filled, List.append_assoc]
    exact List.prefix_append ..
  have whole : At (magic ++ _) out 0 := at_zero.mpr begins
  obtain ⟨isGguf, behind⟩ := at_parts.mp whole
  obtain ⟨version, behind⟩ := at_parts.mp behind
  obtain ⟨tensorCount, behind⟩ := at_parts.mp behind
  obtain ⟨metadataCount, -⟩ := at_parts.mp behind
  refine ⟨(at_iff_take.mp isGguf).2, ?_⟩
  have first := takes_struct 4 ⟨output.version, rfl⟩ version
  have second := takes_struct 8 ⟨output.tensorCount, rfl⟩ tensorCount
  have third := takes_struct 8 ⟨output.metadataCount, rfl⟩ metadataCount
  have start : 0 + magic.length = 4 := rfl
  simp only [start, length_leBytes] at first second third
  rw [parsed.head_eq copied alignment rows] at begins
  -- the entries are read as in the template
  have same : template.take metaEnd <+: out := (List.prefix_append ..).trans begins
  obtain ⟨-, again⟩ := (local_entry same).many_eq _ parsed.readEntries
  obtain ⟨_, fourth, rfl⟩ := again (Nat.lt_succ_self metaEnd)
  have fifth : readMany (readTensorRecord out) ds4.tensorCount metaEnd =
      .ok ((plannedRecords alignment rows).map TensorRecord.pyRecord,
        headEnd metaEnd alignment rows) := by
    rw [parsed.tensorCount_eq, ← tensors, List.length_map]
    cases rows with
    | nil => rfl
    | cons row rows =>
      have inside := parsed.inside (by rw [← tensors, List.map_cons]; exact List.cons_ne_nil _ _)
      have here : At ((plannedRecords alignment (row :: rows)).flatMap TensorRecord.layout) out
          metaEnd := by
        have parts : At (template.take metaEnd ++ _) out 0 := at_zero.mpr begins
        obtain ⟨-, behind⟩ := at_parts.mp parts
        rw [List.length_take_of_le inside, Nat.zero_add] at behind
        rw [plannedRecords, List.flatMap_map]
        exact behind
      rw [← length_plannedRecords]
      refine takes_records ?_ here
      exact List.forall_mem_map.mpr fun p member => (output.records p member).2
  unfold readHeader
  rw [read_bind first, read_bind second, read_bind third, read_bind fourth, read_bind fifth,
    parsed.metadata]
  rfl

/-- What the reader reports of the output. -/
def outputFile (ds4 : GGUFFile) (metaEnd alignment size : Nat) (rows : List (GGUFTensorInfo × Bool)) :
    GGUFFile where
  version := ds4.version
  tensorCount := rows.length
  metadataCount := ds4.metadata.length
  metadata := ds4.metadata
  tensors := (placedRows alignment rows).map fun p =>
    tensorInfo (roundUp alignment (headEnd metaEnd alignment rows) : Nat) (plannedRecord p).pyRecord
  dataStart := (roundUp alignment (headEnd metaEnd alignment rows) : Nat)
  alignment := alignment
  size := size

lemma Output.reads (parsed : Parsed py template ds4 entries records metaEnd pos)
    (copied : metadataRawBytes template ds4.metadataCount = .ok raw)
    (tensors : rows.map Prod.fst = ds4.tensors) (aligned : ds4.alignment = alignment)
    (positive : 1 ≤ alignment) (output : Output py source template ds4 rows alignment raw out) :
    read py out = .ok (outputFile ds4 metaEnd alignment out.length rows) := by
  obtain ⟨isGguf, header⟩ := output.header parsed copied tensors
  have taken := parsed.taken
  rw [aligned] at taken
  rw [read_eq isGguf header taken (alignUp_eq positive _), outputFile, List.length_map,
    length_plannedRecords, plannedRecords, List.map_map, List.map_map]
  rfl

end

/-! ## The tensors -/

/-- A file has the data of a tensor where the reader says. -/
def Holds (bytes : List Byte) (tensor : GGUFTensorInfo) (data : List Byte) : Prop :=
  ∃ place : Nat, tensor.absoluteOffset = place ∧ tensor.nbytes = some data.length ∧
    (bytes.drop place).take data.length = data

lemma Holds.unique {bytes data data' : List Byte} {tensor : GGUFTensorInfo}
    (holds : Holds bytes tensor data) (holds' : Holds bytes tensor data') : data = data' := by
  obtain ⟨place, at_place, size, eq⟩ := holds
  obtain ⟨place', at_place', size', eq'⟩ := holds'
  rw [at_place, Int.natCast_inj] at at_place'
  rw [size, Option.some.injEq] at size'
  rw [← eq, ← eq', at_place', size']

/-- The output has a tensor as it is planned: a selected one is converted, any other one is the
template's. -/
structure Rewritten (py : Builtins) (source : Source) (template out : List Byte)
    (row : GGUFTensorInfo × Bool) (info : GGUFTensorInfo) : Prop where
  name : info.name = row.1.name
  dimensions : info.dimensions = row.1.dimensions
  typeId : info.typeId = plannedType row
  data : ∃ data, Holds out info data ∧
    if row.2 then converted py source row.1.name row.1.dimensions = .ok data
    else Holds template row.1 data

/-- What a rewrite is for. -/
def Faithful (py : Builtins) (source : Source) (args : RewriteArgs) (template : List Byte)
    (ds4 : GGUFFile) (out : List Byte) : Prop :=
  ∃ g, read py out = .ok g ∧ g.metadata = ds4.metadata ∧ g.alignment = ds4.alignment ∧
    List.Forall₂ (Rewritten py source template out) (planned py args 0 ds4.tensors) g.tensors ∧
    (∀ info ∈ g.tensors, g.alignment ∣ info.offset ∧ g.alignment ∣ info.absoluteOffset) ∧
    g.tensors.Pairwise fun first later =>
      first.absoluteOffset + ((first.nbytes.getD 0 : Nat) : Int) ≤ later.absoluteOffset

section
variable {py : Builtins} {source : Source} {args : RewriteArgs} {template raw out : List Byte}
  {ds4 : GGUFFile} {entries : List (Text × PyValue)} {records : List (Text × List Nat × Nat × Nat)}
  {metaEnd pos : Nat} {row : GGUFTensorInfo × Bool} {alignment : Nat}

lemma planned_routed (selected : Nat) (tensors : List GGUFTensorInfo) :
    ∀ row ∈ planned py args selected tensors, row.2 = true →
      (routedSpec py row.1.name).isSome := by
  induction tensors generalizing selected with
  | nil => exact nofun
  | cons tensor tensors ih =>
    refine List.forall_mem_cons.mpr ⟨fun chosen => ?_, ih _⟩
    dsimp only at chosen ⊢
    unfold selectedRoutedTensor at chosen
    cases spec : routedSpec py tensor.name with
    | none =>
      rw [spec] at chosen
      cases chosen
    | some spec => rfl

lemma tensorNbytes_f16 (dimensions : List Nat) :
    tensorNbytes 1 dimensions = some (dimensions.prod * 2) := by
  show some ((dimensions.prod + 1 - 1) / 1 * 2) = _
  rw [Nat.add_sub_cancel, Nat.div_one]

lemma Parsed.nbytes_eq (parsed : Parsed py template ds4 entries records metaEnd pos) :
    ∀ tensor ∈ ds4.tensors, tensor.nbytes = tensorNbytes tensor.typeId tensor.dimensions := by
  rw [parsed.tensors]
  exact List.forall_mem_map.mpr fun record _ => rfl

lemma emitted_length (nbytes : row.1.nbytes = tensorNbytes row.1.typeId row.1.dimensions)
    (known : row.2 = false → row.1.nbytes.isSome)
    (routed : row.2 = true → (routedSpec py row.1.name).isSome)
    (emits : Emits py source template row) :
    (emitted py source template row).length = plannedBytes row ∧
      tensorNbytes (plannedType row) row.1.dimensions = some (plannedBytes row) := by
  obtain ⟨tensor, chosen⟩ := row
  cases chosen with
  | true =>
    obtain ⟨-, length⟩ := emits.converts rfl (routed rfl)
    exact ⟨length, tensorNbytes_f16 _⟩
  | false =>
    obtain ⟨n, some⟩ := Option.isSome_iff_exists.mp (known rfl)
    dsimp only at some nbytes
    have size : plannedBytes (tensor, false) = n := by
      show tensor.nbytes.getD 0 = n
      rw [some]
      rfl
    rw [size]
    refine ⟨?_, nbytes.symm.trans some⟩
    by_cases again : tensor.typeId = 1 ∧ (routedSpec py tensor.name).isSome
    · obtain ⟨-, length⟩ := emits.converts again.1 again.2
      rw [nbytes, again.1, tensorNbytes_f16] at some
      rw [length]
      exact Option.some.inj some
    · obtain ⟨-, -, length, -⟩ := emits.copies again
      dsimp only at length
      rw [some] at length
      exact (Option.some.inj length).symm

/-- What the reader makes of the record of a row. -/
def outputInfo (metaEnd alignment : Nat) (rows : List (GGUFTensorInfo × Bool))
    (p : (GGUFTensorInfo × Bool) × Nat) : GGUFTensorInfo :=
  tensorInfo (roundUp alignment (headEnd metaEnd alignment rows) : Nat) (plannedRecord p).pyRecord

/-- The rows of an output that was written and read. -/
structure Rewrite (py : Builtins) (source : Source) (args : RewriteArgs) (template : List Byte)
    (ds4 : GGUFFile) (rows : List (GGUFTensorInfo × Bool)) (alignment metaEnd : Nat)
    (out : List Byte) : Prop where
  rows_eq : rows = planned py args 0 ds4.tensors
  positive : 1 ≤ alignment
  aligned : ds4.alignment = alignment
  reads : read py out = .ok (outputFile ds4 metaEnd alignment out.length rows)
  emits : ∀ row ∈ rows, Emits py source template row
  sizes : ∀ row ∈ rows, (emitted py source template row).length = plannedBytes row ∧
    tensorNbytes (plannedType row) row.1.dimensions = some (plannedBytes row)
  names : ∀ p ∈ placedRows alignment rows,
    (outputInfo metaEnd alignment rows p).name = p.1.1.name
  data : ∀ p ∈ placedRows alignment rows,
    Holds out (outputInfo metaEnd alignment rows p) (emitted py source template p.1)

lemma rewrite_ok (template_read : read py template = .ok ds4) (aligned : ds4.alignment = alignment)
    (positive : 1 ≤ alignment) (distinct : (ds4.tensors.map GGUFTensorInfo.name).Nodup)
    (written : rewriteGguf py source args template = .ok out) :
    ∃ rows metaEnd, Rewrite py source args template ds4 rows alignment metaEnd out := by
  obtain ⟨raw, copied, output⟩ :=
    rewriteGguf_ok template_read aligned positive distinct written
  obtain ⟨entries, records, metaEnd, pos, parsed⟩ := read_parsed template_read
  generalize rows_eq : planned py args 0 ds4.tensors = rows at output
  have tensors : rows.map Prod.fst = ds4.tensors := rows_eq ▸ planned_fst 0 ds4.tensors
  have sizes : ∀ row ∈ rows, (emitted py source template row).length = plannedBytes row ∧
      tensorNbytes (plannedType row) row.1.dimensions = some (plannedBytes row) := by
    intro row member
    refine emitted_length ?_ (output.known row member) ?_ (output.emits row member)
    · exact parsed.nbytes_eq row.1 (tensors ▸ List.mem_map_of_mem member)
    · rw [← rows_eq] at member
      exact planned_routed 0 ds4.tensors row member
  refine ⟨rows, metaEnd, rows_eq.symm, positive, aligned,
    output.reads parsed copied tensors aligned positive, output.emits, sizes, ?_, ?_⟩
  · exact fun p member => decode_encode (output.records p member).1
  · intro p member
    have rowOf : p.1 ∈ rows := (List.of_mem_zip member).1
    obtain ⟨length, known⟩ := sizes p.1 rowOf
    refine ⟨roundUp alignment (headEnd metaEnd alignment rows) + p.2, rfl, ?_, ?_⟩
    · exact known.trans (congrArg some length.symm)
    · -- there is a tensor, so the metadata ends in the file
      have some : ds4.tensors ≠ [] := by
        rw [← tensors]
        exact List.ne_nil_of_mem (List.mem_map_of_mem rowOf)
      have before : (filled alignment (0 : Byte) (outputHead alignment ds4 raw rows)).length =
          roundUp alignment (headEnd metaEnd alignment rows) := by
        rw [length_filled positive, parsed.head_eq copied, List.length_append,
          List.length_take_of_le (parsed.inside some), headEnd, plannedRecords, List.flatMap_map]
      have lengths : rows.map plannedBytes =
          rows.map fun row => (emitted py source template row).length :=
        List.map_congr_left fun row member => (sizes row member).1.symm
      unfold placedRows at member
      rw [lengths] at member
      have here := at_starts_zip positive (0 : Byte)
        (filled alignment 0 (outputHead alignment ds4 raw rows)) (emitted py source template) rows p
        member
      rw [before, ← output.eq] at here
      exact (at_iff_take.mp here).2

section
variable {rows : List (GGUFTensorInfo × Bool)}

lemma Rewrite.forall₂_iff (rewrite : Rewrite py source args template ds4 rows alignment metaEnd out) :
    List.Forall₂ (Rewritten py source template out) (planned py args 0 ds4.tensors)
        (outputFile ds4 metaEnd alignment out.length rows).tensors ↔
      ∀ p ∈ placedRows alignment rows,
        Rewritten py source template out p.1 (outputInfo metaEnd alignment rows p) := by
  have each : List.Forall₂ (Rewritten py source template out)
      ((placedRows alignment rows).map Prod.fst)
      ((placedRows alignment rows).map (outputInfo metaEnd alignment rows)) ↔
        ∀ p ∈ placedRows alignment rows,
          Rewritten py source template out p.1 (outputInfo metaEnd alignment rows p) := by
    rw [List.forall₂_map_left_iff, List.forall₂_map_right_iff, List.forall₂_same]
  rw [placedRows_fst, rewrite.rows_eq] at each
  rw [rewrite.rows_eq]
  exact each

lemma Rewrite.rewritten_iff
    (rewrite : Rewrite py source args template ds4 rows alignment metaEnd out)
    {p : (GGUFTensorInfo × Bool) × Nat} (member : p ∈ placedRows alignment rows) :
    Rewritten py source template out p.1 (outputInfo metaEnd alignment rows p) ↔
      (p.1.2 = false → p.1.1.typeId = 1 → (routedSpec py p.1.1.name).isSome →
        ∃ data, converted py source p.1.1.name p.1.1.dimensions = .ok data ∧
          Holds template p.1.1 data) := by
  have rowOf : p.1 ∈ rows := (List.of_mem_zip member).1
  have holds := rewrite.data p member
  have emits := rewrite.emits p.1 rowOf
  obtain ⟨⟨tensor, chosen⟩, place⟩ := p
  constructor
  · rintro ⟨-, -, -, data, there, same⟩ rfl type routed
    rw [there.unique holds] at same
    exact ⟨_, (emits.converts type routed).1, same⟩
  · intro same
    refine ⟨rewrite.names _ member, rfl, rfl, _, holds, ?_⟩
    cases chosen with
    | true =>
      have routed := planned_routed 0 ds4.tensors _ (rewrite.rows_eq ▸ rowOf) rfl
      exact (emits.converts rfl routed).1
    | false =>
      by_cases again : tensor.typeId = 1 ∧ (routedSpec py tensor.name).isSome
      · obtain ⟨data, converts, there⟩ := same rfl again.1 again.2
        have eq := (emits.converts again.1 again.2).1
        rw [converts, Except.ok.injEq] at eq
        rw [← eq]
        exact there
      · obtain ⟨place, at_place, size, eq⟩ := emits.copies again
        exact ⟨place, at_place, size, eq.symm⟩

lemma dvd_outputFile (size : Nat) :
    ∀ info ∈ (outputFile ds4 metaEnd alignment size rows).tensors,
      (alignment : Int) ∣ info.offset ∧ (alignment : Int) ∣ info.absoluteOffset := by
  refine List.forall_mem_map.mpr fun p member => ?_
  have offset : alignment ∣ p.2 :=
    dvd_starts (Nat.dvd_zero alignment) _ p.2 (List.of_mem_zip member).2
  have start : alignment ∣ roundUp alignment (headEnd metaEnd alignment rows) := dvd_roundUp ..
  refine ⟨Int.natCast_dvd_natCast.mpr offset, ?_⟩
  exact Int.natCast_dvd_natCast.mpr (Nat.dvd_add start offset)

lemma Rewrite.disjoint (rewrite : Rewrite py source args template ds4 rows alignment metaEnd out) :
    (outputFile ds4 metaEnd alignment out.length rows).tensors.Pairwise fun first later =>
      first.absoluteOffset + ((first.nbytes.getD 0 : Nat) : Int) ≤ later.absoluteOffset := by
  rw [outputFile, List.pairwise_map]
  refine (starts_disjoint rewrite.positive 0 plannedBytes rows).imp_of_mem ?_
  intro first later member _ le
  have size : tensorNbytes (plannedType first.1) first.1.1.dimensions =
      some (plannedBytes first.1) := (rewrite.sizes first.1 (List.of_mem_zip member).1).2
  show ((roundUp alignment (headEnd metaEnd alignment rows) : Nat) : Int) + (first.2 : Int) +
    (((tensorNbytes (plannedType first.1) first.1.1.dimensions).getD 0 : Nat) : Int) ≤
      ((roundUp alignment (headEnd metaEnd alignment rows) : Nat) : Int) + (later.2 : Int)
  rw [size]
  dsimp only [Option.getD_some]
  omega

lemma Rewrite.faithful_iff
    (rewrite : Rewrite py source args template ds4 rows alignment metaEnd out) :
    Faithful py source args template ds4 out ↔
      ∀ row ∈ planned py args 0 ds4.tensors, row.2 = false → row.1.typeId = 1 →
        (routedSpec py row.1.name).isSome →
          ∃ data, converted py source row.1.name row.1.dimensions = .ok data ∧
            Holds template row.1 data := by
  have each : (∀ p ∈ placedRows alignment rows,
      Rewritten py source template out p.1 (outputInfo metaEnd alignment rows p)) ↔
        ∀ row ∈ planned py args 0 ds4.tensors, row.2 = false → row.1.typeId = 1 →
          (routedSpec py row.1.name).isSome →
            ∃ data, converted py source row.1.name row.1.dimensions = .ok data ∧
              Holds template row.1 data := by
    rw [← rewrite.rows_eq, ← placedRows_fst alignment rows, List.forall_mem_map, placedRows_fst]
    exact forall₂_congr fun p member => rewrite.rewritten_iff member
  rw [← each, ← rewrite.forall₂_iff]
  constructor
  · rintro ⟨g, read, -, -, all, -⟩
    rw [rewrite.reads] at read
    cases read
    exact all
  · intro all
    exact ⟨_, rewrite.reads, rfl, rewrite.aligned.symm, all, dvd_outputFile out.length,
      rewrite.disjoint⟩

end

/-- Of a template with distinct names and a positive alignment the output is as planned exactly if every
routed tensor that has the type F16 and was not selected has the data that is converted for it. -/
theorem rewrites_iff (template_read : read py template = .ok ds4) (aligned : 0 < ds4.alignment)
    (distinct : (ds4.tensors.map GGUFTensorInfo.name).Nodup)
    (written : rewriteGguf py source args template = .ok out) :
    Faithful py source args template ds4 out ↔
      ∀ row ∈ planned py args 0 ds4.tensors, row.2 = false → row.1.typeId = 1 →
        (routedSpec py row.1.name).isSome →
          ∃ data, converted py source row.1.name row.1.dimensions = .ok data ∧
            Holds template row.1 data := by
  obtain ⟨alignment, eq⟩ := Int.eq_ofNat_of_zero_le aligned.le
  have positive : 1 ≤ alignment := by omega
  obtain ⟨rows, metaEnd, rewrite⟩ := rewrite_ok template_read eq positive distinct written
  exact rewrite.faithful_iff

end

/-! ## A template with one routed tensor -/

/-- `int` of one digit. -/
def zeroText : Builtins := ⟨fun s => if s = text "0" then some 0 else none⟩

/-- A checkpoint of zeros. -/
def zeroSource : Source where
  tensorPair _ := .ok (⟨text "I8", [1, 16], List.replicate 16 0⟩, ⟨text "F8_E8M0", [1, 1], [127]⟩)
  f16 _ _ := 0
  str _ := text "0"

/-- A routed tensor, of the type F16 already. -/
def f16Header : Header := ⟨3, [], [⟨encodeUtf8 (text "blk.0.ffn_gate_exps.weight"), [32, 1, 1], 1, 0⟩]⟩

def f16Template : List Byte := filled 32 0 f16Header.layout ++ List.replicate 64 1

/-- What is read of it. -/
def f16File : GGUFFile where
  version := 3
  tensorCount := 1
  metadataCount := 0
  metadata := []
  tensors := [⟨text "blk.0.ffn_gate_exps.weight", [32, 1, 1], 1, 0, 128, some 64⟩]
  dataStart := 128
  alignment := 32
  size := 192

/-- A rewrite of the layers that are given. -/
def layersArgs (layers : List Int) : RewriteArgs := ⟨some layers, none, none, 64, 67108864⟩

lemma f16Template_read : read zeroText f16Template = .ok f16File := by decide +kernel

lemma f16Template_written (layers : List Int)
    (fine : (rewriteGguf zeroText zeroSource (layersArgs layers) f16Template).isOk) :
    ∃ out, rewriteGguf zeroText zeroSource (layersArgs layers) f16Template = .ok out := by
  cases written : rewriteGguf zeroText zeroSource (layersArgs layers) f16Template with
  | error e =>
    rw [written] at fine
    cases fine
  | ok out => exact ⟨out, rfl⟩

/-- The tensor is selected. -/
theorem rewrites_iff_selected :
    ∃ out, rewriteGguf zeroText zeroSource (layersArgs [0]) f16Template = .ok out ∧
      (Faithful zeroText zeroSource (layersArgs [0]) f16Template f16File out ↔
        ∀ row ∈ planned zeroText (layersArgs [0]) 0 f16File.tensors, row.2 = false →
          row.1.typeId = 1 → (routedSpec zeroText row.1.name).isSome →
            ∃ data, converted zeroText zeroSource row.1.name row.1.dimensions = .ok data ∧
              Holds f16Template row.1 data) := by
  obtain ⟨out, written⟩ := f16Template_written [0] (by decide +kernel)
  exact ⟨out, written, rewrites_iff f16Template_read (by decide) (by decide) written⟩

/-- The layer is not selected, but its tensor is replaced. -/
theorem requantised :
    ∃ out, rewriteGguf zeroText zeroSource (layersArgs [1]) f16Template = .ok out ∧
      ¬ Faithful zeroText zeroSource (layersArgs [1]) f16Template f16File out := by
  obtain ⟨out, written⟩ := f16Template_written [1] (by decide +kernel)
  have aligned : f16File.alignment = (32 : Nat) := rfl
  obtain ⟨rows, metaEnd, rewrite⟩ :=
    rewrite_ok f16Template_read aligned (by decide) (by decide) written
  refine ⟨out, written, fun faithful => ?_⟩
  have row : planned zeroText (layersArgs [1]) 0 f16File.tensors =
      [(⟨text "blk.0.ffn_gate_exps.weight", [32, 1, 1], 1, 0, 128, some 64⟩, false)] := by
    decide +kernel
  have same := rewrite.faithful_iff.mp faithful
  rw [row, List.forall_mem_singleton] at same
  obtain ⟨data, converts, place, at_place, -, eq⟩ := same rfl rfl (by decide +kernel)
  have zeros : converted zeroText zeroSource (text "blk.0.ffn_gate_exps.weight") [32, 1, 1] =
      .ok (List.replicate 64 0) := by
    decide +kernel
  rw [zeros] at converts
  cases converts
  obtain rfl : place = 128 := by
    have at_place : (128 : Int) = place := at_place
    omega
  exact absurd eq (by decide +kernel)

end PocketMoE.Loader.Python
