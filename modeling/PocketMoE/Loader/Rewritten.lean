import Mathlib.Data.List.Nodup
import PocketMoE.Loader.Rewriter

/-!
# What the rewriter writes

The plan and the writer, in terms of the rows of the plan: a tensor, and whether it was selected. Where
the names are distinct the dictionaries have the entry of every row, and the output is the header with the
planned records, filled up, and the data of every tensor, filled up, where the offsets say.
-/

namespace PocketMoE.Loader.Python
open PocketMoE.Lib

/-! ## The rows of the plan -/

section
variable (py : Builtins) (args : RewriteArgs)

/-- The tensors, and which are selected. -/
def planned : Nat → List GGUFTensorInfo → List (GGUFTensorInfo × Bool)
  | _, [] => []
  | selected, tensor :: tensors =>
    let here := selectedRoutedTensor py args tensor.name selected
    (tensor, here) :: planned (if here then selected + 1 else selected) tensors

end

/-- The type that is planned. -/
def plannedType (row : GGUFTensorInfo × Bool) : Nat := if row.2 then 1 else row.1.typeId

/-- The size that is planned. -/
def plannedBytes (row : GGUFTensorInfo × Bool) : Nat :=
  if row.2 then row.1.elements * 2 else row.1.nbytes.getD 0

section
variable {py : Builtins} {args : RewriteArgs} {alignment : Int}

lemma planned_fst (selected : Nat) (tensors : List GGUFTensorInfo) :
    (planned py args selected tensors).map Prod.fst = tensors := by
  induction tensors generalizing selected with
  | nil => rfl
  | cons tensor tensors ih => rw [planned, List.map_cons, ih]

lemma planTensors_ok {tensors : List GGUFTensorInfo} {plan plan' : RewritePlan}
    (made : planTensors py args alignment tensors plan = .ok plan') :
    let rows := planned py args plan.convertedRoutedTensors tensors
    plan'.typeIds = (rows.map fun row => (row.1.name, plannedType row)).reverse ++ plan.typeIds ∧
      plan'.nbytes = (rows.map fun row => (row.1.name, plannedBytes row)).reverse ++ plan.nbytes ∧
      ∀ row ∈ rows, row.2 = false → row.1.nbytes.isSome := by
  induction tensors generalizing plan with
  | nil =>
    cases made
    exact ⟨rfl, rfl, nofun⟩
  | cons tensor tensors ih =>
    rw [planTensors] at made
    dsimp only [planned]
    split_ifs at made with selected
    · obtain ⟨padded, -, rest⟩ := bind_ok.mp made
      obtain ⟨types, sizes, known⟩ := ih rest
      rw [selected]
      refine ⟨?_, ?_, List.forall_mem_cons.mpr ⟨nofun, known⟩⟩
      · rw [types, List.map_cons, List.reverse_cons, List.append_assoc]
        rfl
      · rw [sizes, List.map_cons, List.reverse_cons, List.append_assoc]
        rfl
    · cases size : tensor.nbytes with
      | none =>
        rw [size] at made
        cases made
      | some nbytes =>
        rw [size] at made
        obtain ⟨padded, -, rest⟩ := bind_ok.mp made
        obtain ⟨types, sizes, known⟩ := ih rest
        rw [Bool.not_eq_true] at selected
        rw [selected]
        refine ⟨?_, ?_, List.forall_mem_cons.mpr ⟨fun _ => by rw [size]; rfl, known⟩⟩
        · rw [types, List.map_cons, List.reverse_cons, List.append_assoc]
          rfl
        · rw [sizes, List.map_cons, List.reverse_cons, List.append_assoc, plannedBytes, size]
          rfl

end

/-! ## Dictionaries with distinct keys -/

lemma lookup_reverse {α β : Type} {key : β → Text} {value : β → α} {bs : List β}
    (distinct : (bs.map key).Nodup) : ∀ b ∈ bs,
      ((bs.map fun b => (key b, value b)).reverse ++ []).lookup (key b) = some (value b) := by
  intro b member
  rw [List.append_nil, ← List.map_reverse]
  have member' : b ∈ bs.reverse := List.mem_reverse.mpr member
  have distinct' : (bs.reverse.map key).Nodup := by
    rw [List.map_reverse]
    exact List.nodup_reverse.mpr distinct
  generalize bs.reverse = cs at member' distinct'
  induction cs with
  | nil => cases member'
  | cons c cs ih =>
    rw [List.map_cons, List.nodup_cons] at distinct'
    rw [List.map_cons, List.lookup_cons]
    cases member' with
    | head => rw [beq_self_eq_true]
    | tail _ later =>
      have other : key b ≠ key c := fun eq =>
        distinct'.1 (eq ▸ List.mem_map_of_mem later)
      rw [beq_false_of_ne other]
      exact ih later distinct'.2

section
variable {alignment : Nat} {rows : List (GGUFTensorInfo × Bool)}

lemma alignUpWrite_eq (pos : 1 ≤ alignment) (n : Nat) :
    alignUpWrite n alignment = .ok (roundUp alignment n : Nat) := by
  rw [alignUpWrite, alignUp_eq pos]

lemma planOffsets_ok (pos : 1 ≤ alignment) {nbytes : List (Text × Nat)}
    (sizes : ∀ row ∈ rows, nbytes.lookup row.1.name = some (plannedBytes row)) (off : Nat)
    {offsets offsets' : List (Text × Int)}
    (made : planOffsets alignment nbytes (rows.map Prod.fst) off offsets = .ok offsets') :
    offsets' = ((rows.zip (starts alignment off (rows.map plannedBytes))).map fun p =>
      (p.1.1.name, (p.2 : Int))).reverse ++ offsets := by
  induction rows generalizing off offsets with
  | nil =>
    cases made
    rfl
  | cons row rows ih =>
    obtain ⟨here, others⟩ := List.forall_mem_cons.mp sizes
    rw [List.map_cons, planOffsets, getKey, here] at made
    obtain ⟨size, ⟨⟩, made⟩ := bind_ok.mp made
    rw [alignUpWrite_eq pos] at made
    obtain ⟨padded, ⟨⟩, made⟩ := bind_ok.mp made
    rw [← Int.natCast_add] at made
    rw [ih others _ made, List.map_cons, starts, List.zip_cons_cons, List.map_cons,
      List.reverse_cons, List.append_assoc]
    rfl

end

/-! ## The converted data -/

section
variable {py : Builtins} {source : Source}

/-- The data that is converted for a tensor. -/
def converted (py : Builtins) (source : Source) (name : Text) (dimensions : List Nat) :
    Except WriteError (List Byte) :=
  match routedSpec py name, dimensions with
  | some spec, [inDim, outDim, nExperts] => do
    let rows ← (List.range nExperts).mapM (expertRows source spec inDim outDim)
    return rows.flatten.flatten
  | _, _ => .error .valueError

lemma slices_flatten {α : Type} {chunk : Nat} (l : List α) (k : Nat) :
    (List.range k).flatMap (fun i => (l.drop (i * chunk)).take chunk) = l.take (k * chunk) := by
  induction k with
  | zero => rw [Nat.zero_mul, List.take_zero, List.range_zero, List.flatMap_nil]
  | succ k ih =>
    rw [List.range_succ, List.flatMap_append, ih, List.flatMap_singleton, Nat.succ_mul,
      List.take_add]

lemma rowChunks_flatten (rows : List (List Byte)) (rowChunk : Int) :
    (rowChunks rows rowChunk).flatten = rows.flatten := by
  have pos : 1 ≤ (max 1 rowChunk).toNat := by omega
  have enough := le_roundUp pos rows.length
  unfold roundUp at enough
  have slices := @slices_flatten _ (max 1 rowChunk).toNat rows
    ((rows.length + (max 1 rowChunk).toNat - 1) / (max 1 rowChunk).toNat)
  rw [List.take_of_length_le enough] at slices
  unfold rowChunks
  dsimp only
  rw [← List.flatMap_def]
  conv_rhs => rw [← slices, ← List.flatMap_id, List.flatMap_assoc]
  simp only [List.flatMap_id]

lemma appends_chunks (chunks : List (List Byte)) :
    Appends (writeAll fwrite chunks) fun l => l = chunks.flatten := by
  refine (appends_all (C := fun _ => True) (f := id) fun chunk _ =>
    (appends_fwrite chunk).of_imp fun l eq => ⟨trivial, eq⟩).of_imp ?_
  rintro l ⟨-, rfl⟩
  exact List.flatMap_id

lemma writeExperts_ok {spec : RoutedTensorSpec} {inDim outDim : Nat} {rowChunk : Int}
    {experts : List Nat} {written n : Nat} {file file' : List Byte} (small : file.length < 2 ^ 63)
    (wrote : writeExperts source spec inDim outDim rowChunk experts written file = .ok (n, file')) :
    file'.length < 2 ^ 63 ∧ ∃ rows, experts.mapM (expertRows source spec inDim outDim) = .ok rows ∧
      file' = file ++ rows.flatten.flatten ∧ n = written + rows.flatten.flatten.length := by
  induction experts generalizing written file with
  | nil =>
    obtain ⟨rfl, rfl⟩ := run_pure_ok.mp wrote
    exact ⟨small, [], rfl, (List.append_nil _).symm, rfl⟩
  | cons expert experts ih =>
    obtain ⟨rows, mid, here, wrote⟩ := run_bind_ok.mp wrote
    cases converts : expertRows source spec inDim outDim expert with
    | error e =>
      rw [converts] at here
      cases here
    | ok rows' =>
      rw [converts] at here
      cases here
      obtain ⟨u, mid, chunks, wrote⟩ := run_bind_ok.mp wrote
      obtain ⟨small, _, rfl, rfl⟩ := appends_chunks _ small chunks
      obtain ⟨small, others, converted, rfl, rfl⟩ := ih small wrote
      refine ⟨small, rows :: others, ?_, ?_, ?_⟩
      · rw [List.mapM_cons, converts, converted]
        rfl
      · rw [rowChunks_flatten, List.flatten_cons, List.flatten_append, List.append_assoc]
      · rw [← List.length_flatten, rowChunks_flatten, List.flatten_cons, List.flatten_append,
          List.length_append, Nat.add_assoc]

lemma appends_routed (name : Text) (dimensions : List Nat) (rowChunk : Int) :
    Appends (writeRoutedTensorF16 py source name dimensions rowChunk) fun l =>
      converted py source name dimensions = .ok l ∧ l.length = dimensions.prod * 2 := by
  unfold writeRoutedTensorF16
  split
  case h_1 _ _ spec inDim outDim nExperts routed =>
    split_ifs with divisible
    · exact nofun
    · intro file a file' small wrote
      obtain ⟨n, mid, experts, checked⟩ := run_bind_ok.mp wrote
      obtain ⟨small, rows, made, rfl, rfl⟩ := writeExperts_ok small experts
      split_ifs at checked with wrong
      · cases checked
      · rw [not_not, Nat.zero_add] at wrong
        obtain ⟨-, rfl⟩ := run_pure_ok.mp checked
        refine ⟨small, _, rfl, ?_, wrong⟩
        unfold converted
        rw [routed]
        dsimp only
        rw [made]
        rfl
  case h_2 => exact nofun

/-! ## The copied data -/

lemma pread_ok {template : List Byte} {size pos : Nat}
    (whole : (pread template size pos).length = size) :
    pread template size pos = (template.drop pos).take size ∧ size ≤ (template.drop pos).length := by
  unfold pread at whole ⊢
  rw [List.length_take] at whole
  have inside : min size 0x7FFFF000 = size := by omega
  rw [inside]
  exact ⟨rfl, by omega⟩

lemma appends_copy {template : List Byte} (chunkBytes : Int) (rounds remaining pos : Nat) :
    Appends (copyBytes template chunkBytes rounds remaining pos) fun l =>
      l = (template.drop pos).take remaining ∧ l.length = remaining := by
  induction rounds generalizing remaining pos with
  | zero =>
    cases remaining with
    | zero =>
      rw [copyBytes]
      refine (Appends.pure ()).of_imp ?_
      rintro l rfl
      exact ⟨List.take_zero.symm, rfl⟩
    | succ remaining => exact nofun
  | succ rounds ih =>
    cases remaining with
    | zero =>
      rw [copyBytes]
      refine (Appends.pure ()).of_imp ?_
      rintro l rfl
      exact ⟨List.take_zero.symm, rfl⟩
    | succ remaining =>
      rw [copyBytes.eq_def]
      dsimp only
      split_ifs with stop
      · exact nofun
      · obtain ⟨-, whole⟩ := not_or.mp stop
        obtain ⟨here, inside⟩ := pread_ok (not_not.mp whole)
        rw [here]
        have le : min (remaining + 1) chunkBytes.toNat ≤ remaining + 1 := Nat.min_le_left ..
        refine ((appends_fwrite _).bind fun _ => ih _ _).of_imp ?_
        rintro _ ⟨_, _, rfl, rfl, rfl, length⟩
        constructor
        · conv_rhs => rw [← Nat.add_sub_cancel' le, List.take_add, List.drop_drop]
        · rw [List.length_append, length, List.length_take_of_le inside]
          omega

/-! ## A tensor -/

/-- The data that is written for a row: the second decision is made by the planned type and the name. -/
def emitted (py : Builtins) (source : Source) (template : List Byte) (row : GGUFTensorInfo × Bool) :
    List Byte :=
  if plannedType row = 1 ∧ (routedSpec py row.1.name).isSome then
    match converted py source row.1.name row.1.dimensions with
    | .ok data => data
    | .error _ => []
  else (template.drop row.1.absoluteOffset.toNat).take (row.1.nbytes.getD 0)

/-- What is known of a row whose data was written. -/
structure Emits (py : Builtins) (source : Source) (template : List Byte) (row : GGUFTensorInfo × Bool) :
    Prop where
  converts : plannedType row = 1 → (routedSpec py row.1.name).isSome →
    converted py source row.1.name row.1.dimensions = .ok (emitted py source template row) ∧
      (emitted py source template row).length = row.1.elements * 2
  copies : ¬ (plannedType row = 1 ∧ (routedSpec py row.1.name).isSome) →
    ∃ place : Nat, row.1.absoluteOffset = place ∧
      row.1.nbytes = some (emitted py source template row).length ∧
      emitted py source template row = (template.drop place).take (emitted py source template row).length

lemma appends_getKey {α β : Type} {d : List (Text × α)} {name : Text} {value : α} {k : α → Write β}
    {P : List Byte → Prop} (has : d.lookup name = some value) (rest : Appends (k value) P) :
    Appends (liftM (getKey d name) >>= k) P := by
  refine .lift fun value' found => ?_
  rw [getKey, has] at found
  cases found
  exact rest

lemma appends_tensor {args : RewriteArgs} {template : List Byte} {typeIds : List (Text × Nat)}
    {row : GGUFTensorInfo × Bool} (type : typeIds.lookup row.1.name = some (plannedType row)) :
    Appends (writeTensor py source args template typeIds row.1) fun l =>
      Emits py source template row ∧ l = emitted py source template row := by
  refine appends_getKey type ?_
  split_ifs with routed negative
  · refine (appends_routed row.1.name row.1.dimensions args.rowChunk).of_imp ?_
    rintro l ⟨eq, length⟩
    have written : emitted py source template row = l := by
      rw [emitted, if_pos routed, eq]
    rw [written]
    refine ⟨⟨fun _ _ => ?_, fun other => absurd routed other⟩, rfl⟩
    rw [written]
    exact ⟨eq, length⟩
  · cases row.1.nbytes with
    | none => exact nofun
    | some nbytes => exact nofun
  · cases size : row.1.nbytes with
    | none => exact nofun
    | some nbytes =>
      refine (appends_copy args.copyChunkBytes nbytes nbytes _).of_imp ?_
      rintro l ⟨eq, length⟩
      have written : emitted py source template row = l := by
        rw [emitted, if_neg routed, size, eq]
        rfl
      rw [written]
      refine ⟨⟨fun one spec => absurd ⟨one, spec⟩ routed, fun _ => ?_⟩, rfl⟩
      rw [written, length]
      refine ⟨row.1.absoluteOffset.toNat, ?_, size, eq⟩
      exact (Int.toNat_of_nonneg (Int.not_lt.mp negative)).symm

/-! ## A record -/

lemma appends_string (s : Text) : Appends (writeString s) fun l =>
    ((∀ c ∈ s, IsScalar c) ∧ (encodeUtf8 s).length < 2 ^ 64) ∧ l = stringLayout (encodeUtf8 s) := by
  refine .lift fun data encoded => ?_
  obtain ⟨scalars, rfl⟩ := encodeStrict_ok encoded
  refine ((appends_nat 8 _).bind fun _ => appends_fwrite _).of_imp ?_
  rintro _ ⟨_, _, rfl, ⟨short, rfl⟩, rfl⟩
  exact ⟨⟨scalars, short⟩, rfl⟩

/-- The record of a row, with its place. -/
def plannedRecord (p : (GGUFTensorInfo × Bool) × Nat) : TensorRecord :=
  ⟨encodeUtf8 p.1.1.name, p.1.1.dimensions, plannedType p.1, p.2⟩

lemma appends_writeRecord {typeIds : List (Text × Nat)} {offsets : List (Text × Int)}
    {p : (GGUFTensorInfo × Bool) × Nat} (type : typeIds.lookup p.1.1.name = some (plannedType p.1))
    (offset : offsets.lookup p.1.1.name = some (p.2 : Int)) :
    Appends (writeRecord typeIds offsets p.1.1) fun l =>
      ((∀ c ∈ p.1.1.name, IsScalar c) ∧ (plannedRecord p).Fits) ∧ l = (plannedRecord p).layout := by
  have typeAndOffset : Appends (do
      let typeId ← getKey typeIds p.1.1.name
      writeStruct 4 typeId
      let offset ← getKey offsets p.1.1.name
      writeStruct 8 offset) fun l => ∃ l₁ l₂, l = l₁ ++ l₂ ∧
        (plannedType p.1 < 256 ^ 4 ∧ l₁ = leBytes 4 (plannedType p.1)) ∧
          p.2 < 256 ^ 8 ∧ l₂ = leBytes 8 p.2 := by
    refine appends_getKey type ((appends_nat 4 (plannedType p.1)).bind fun _ => ?_)
    exact appends_getKey offset (appends_nat 8 p.2)
  refine ((appends_string p.1.1.name).bind fun _ =>
    (appends_nat 4 p.1.1.dimensions.length).bind fun _ =>
    (appends_all fun dim _ => appends_nat 8 dim).bind fun _ => typeAndOffset).of_imp ?_
  rintro _ ⟨_, _, rfl, ⟨⟨scalars, short⟩, rfl⟩, _, _, rfl, ⟨few, rfl⟩, _, _, rfl, ⟨dims, rfl⟩, _, _,
    rfl, ⟨small, rfl⟩, near, rfl⟩
  exact ⟨⟨scalars, short, few, dims, small, near⟩, rfl⟩

/-! ## The output -/

/-- The rows with the places of their data. -/
def placedRows (alignment : Nat) (rows : List (GGUFTensorInfo × Bool)) :
    List ((GGUFTensorInfo × Bool) × Nat) :=
  rows.zip (starts alignment 0 (rows.map plannedBytes))

lemma placedRows_fst (alignment : Nat) (rows : List (GGUFTensorInfo × Bool)) :
    (placedRows alignment rows).map Prod.fst = rows := by
  apply List.map_fst_zip
  rw [length_starts, List.length_map]

/-- What stands before the data. -/
def outputHead (alignment : Nat) (ds4 : GGUFFile) (raw : List Byte)
    (rows : List (GGUFTensorInfo × Bool)) : List Byte :=
  magic ++ (leBytes 4 ds4.version ++ (leBytes 8 ds4.tensorCount ++ (leBytes 8 ds4.metadataCount ++
    (raw ++ (placedRows alignment rows).flatMap fun p => (plannedRecord p).layout))))

/-- What is known of an output. -/
structure Output (py : Builtins) (source : Source) (template : List Byte) (ds4 : GGUFFile)
    (rows : List (GGUFTensorInfo × Bool)) (alignment : Nat) (raw out : List Byte) : Prop where
  small : out.length < 2 ^ 63
  version : ds4.version < 256 ^ 4
  tensorCount : ds4.tensorCount < 256 ^ 8
  metadataCount : ds4.metadataCount < 256 ^ 8
  records : ∀ p ∈ placedRows alignment rows, (∀ c ∈ p.1.1.name, IsScalar c) ∧ (plannedRecord p).Fits
  known : ∀ row ∈ rows, row.2 = false → row.1.nbytes.isSome
  emits : ∀ row ∈ rows, Emits py source template row
  eq : out = filled alignment 0 (outputHead alignment ds4 raw rows) ++
    (rows.map (emitted py source template)).flatMap (filled alignment 0)

lemma orReading_ok {α : Type} {x : Except PyError α} {a : α} : orReading x = .ok a ↔ x = .ok a := by
  cases x with
  | error e => exact iff_of_false nofun nofun
  | ok a' => exact ⟨fun eq => congrArg Except.ok (Except.ok.inj eq), fun eq => eq ▸ rfl⟩

lemma rewriteGguf_ok {args : RewriteArgs} {template out : List Byte} {ds4 : GGUFFile} {alignment : Nat}
    (template_read : read py template = .ok ds4) (aligned : ds4.alignment = alignment)
    (pos : 1 ≤ alignment) (distinct : (ds4.tensors.map GGUFTensorInfo.name).Nodup)
    (written : rewriteGguf py source args template = .ok out) :
    ∃ raw, metadataRawBytes template ds4.metadataCount = .ok raw ∧
      Output py source template ds4 (planned py args 0 ds4.tensors) alignment raw out := by
  unfold rewriteGguf at written
  dsimp only at written
  split_ifs at written with bad
  simp only [bind_ok, pure_ok, orReading_ok] at written
  obtain ⟨_, again, plan, made, raw, copied, offsets, placed, ⟨u, _⟩, wrote, rfl⟩ := written
  rw [template_read] at again
  cases again
  refine ⟨raw, copied, ?_⟩
  obtain ⟨types, sizes, known⟩ := planTensors_ok made
  dsimp only at types sizes known
  generalize rows_eq : planned py args 0 ds4.tensors = rows at types sizes known ⊢
  have rows_fst : rows.map Prod.fst = ds4.tensors := rows_eq ▸ planned_fst 0 ds4.tensors
  -- the dictionaries have the entry of every row
  have names : (rows.map fun row => row.1.name).Nodup := by
    rw [← rows_fst, List.map_map] at distinct
    exact distinct
  have type : ∀ row ∈ rows, plan.typeIds.lookup row.1.name = some (plannedType row) := by
    rw [types]
    exact lookup_reverse names
  have size : ∀ row ∈ rows, plan.nbytes.lookup row.1.name = some (plannedBytes row) := by
    rw [sizes]
    exact lookup_reverse names
  rw [aligned, ← rows_fst] at placed
  have offsets_eq := planOffsets_ok pos size 0 placed
  have offset : ∀ p ∈ placedRows alignment rows, offsets.lookup p.1.1.name = some (p.2 : Int) := by
    rw [offsets_eq]
    refine @lookup_reverse _ _ (fun p : (GGUFTensorInfo × Bool) × Nat => p.1.1.name) _ _ ?_
    rw [← placedRows_fst alignment rows, List.map_map] at names
    exact names
  have tensors_eq : ds4.tensors = (placedRows alignment rows).map fun p => p.1.1 := by
    rw [← rows_fst, ← placedRows_fst alignment rows, List.map_map, placedRows_fst]
    rfl
  simp only [run_bind_ok] at wrote
  obtain ⟨_, f₁, wrote₁, _, f₂, wrote₂, _, f₃, wrote₃, _, f₄, wrote₄, _, f₅, wrote₅, _, f₆, wrote₆,
    _, f₇, wrote₇, wrote₈⟩ := wrote
  rw [tensors_eq, writeAll_map] at wrote₆
  rw [aligned] at wrote₇
  rw [aligned, ← rows_fst, writeAll_map] at wrote₈
  have start : ([] : List Byte).length < 2 ^ 63 := by decide
  obtain ⟨small, _, rfl, rfl⟩ := appends_fwrite magic start wrote₁
  obtain ⟨small, _, rfl, version, rfl⟩ := appends_nat 4 _ small wrote₂
  obtain ⟨small, _, rfl, tensorCount, rfl⟩ := appends_nat 8 _ small wrote₃
  obtain ⟨small, _, rfl, metadataCount, rfl⟩ := appends_nat 8 _ small wrote₄
  obtain ⟨small, _, rfl, eq⟩ := appends_fwrite raw small wrote₅
  rw [eq] at small wrote₆
  have rowOf : ∀ p ∈ placedRows alignment rows, p.1 ∈ rows := fun p member =>
    (List.of_mem_zip member).1
  obtain ⟨small, _, rfl, records, rfl⟩ := appends_all (fun p member =>
    appends_writeRecord (type p.1 (rowOf p member)) (offset p member)) small wrote₆
  obtain ⟨small, rfl⟩ := padFile_ok pos small wrote₇
  have head : magic ++ leBytes 4 ds4.version ++ leBytes 8 ds4.tensorCount ++
      leBytes 8 ds4.metadataCount ++ raw ++
      (placedRows alignment rows).flatMap (fun p => (plannedRecord p).layout) =
        outputHead alignment ds4 raw rows := by
    simp only [outputHead, List.append_assoc]
  rw [head] at small wrote₈
  have dvd : alignment ∣ (filled alignment (0 : Byte) (outputHead alignment ds4 raw rows)).length := by
    rw [length_filled pos]
    exact dvd_roundUp ..
  obtain ⟨small, emits, eq⟩ :=
    blocks_ok pos (fun row member => appends_tensor (type row member)) small dvd wrote₈
  exact ⟨small, version, tensorCount, metadataCount, records, known, emits, eq⟩

end

end PocketMoE.Loader.Python
