import PocketMoE.Lib.Bytes
import PocketMoE.Lib.Except
import PocketMoE.Lib.Shard
import PocketMoE.Lib.Text
import Mathlib.Algebra.Order.Ring.Rat
import Mathlib.Data.List.Infix

/-!
# The partition of the parameters

Which part of a parameter a rank has: the rule of a name and a module, the part as three numbers for
the lazy loaders, the part of a dense tensor, and the part of the blocks of a Q8_0 tensor. The first
three agree (`partitioned`). The blocks are cut as the tensor is unless a cut falls inside one
(`blocks_iff`).
-/

namespace PocketMoE.Loader.Partition

open Lib

/-- The classes of modules that the rules tell apart. -/
inductive Kind
  | parallelEmbedding
  | parallelHead
  | columnParallelLinear
  | rowParallelLinear
  | attention
  | other
deriving DecidableEq

/-- What the rules read of a module. An attribute may be absent. -/
structure Module where
  kind : Kind
  replicatedC4Indexer : Bool
  nLocalExperts : Option Nat
  expertsStartIdx : Option Int
  expertsEndIdx : Option Int

/-- The exceptions. -/
inductive ShardError
  /-- `shape {shape} not divisible on dim {dim}` -/
  | shape (shape : List Nat) (dim : Nat)
  /-- `{name} not divisible on dim {dim}` -/
  | tensor (name : Text) (dim : Nat)
  /-- `{name} not divisible on q8_0 rows` -/
  | rows (name : Text)
  /-- `{name} not divisible on q8_0 block columns` -/
  | blockColumns (name : Text)
  | zeroDivision
  | index
  | value

section

variable {α : Type}

/-- `"experts." in name and "shared_experts" not in name`. -/
def expertOwned (name : Text) : Bool :=
  text "experts." <:+: name ∧ ¬ text "shared_experts" <:+: name

/-- `is_replicated_c4_indexer_param`. -/
def isReplicatedC4IndexerParam (name : Text) (module : Module) : Bool :=
  module.replicatedC4Indexer ∧
    (text "indexer.wq_b.weight" <:+ name ∨ text "indexer.weights_proj.weight" <:+ name ∨
      text "indexer.wq_b.scale" <:+ name ∨ text "indexer.weights_proj.scale" <:+ name)

/-- `is_column_parallel`. -/
def isColumnParallel (module : Module) : Bool :=
  module.kind = .parallelEmbedding ∨ module.kind = .parallelHead ∨
    module.kind = .columnParallelLinear

/-- `is_row_parallel`. -/
def isRowParallel (module : Module) : Bool := module.kind = .rowParallelLinear

/-- `isinstance(module, Attention) and name.endswith("attn_sink")`. -/
def isAttnSink (name : Text) (module : Module) : Bool :=
  module.kind = .attention ∧ text "attn_sink" <:+ name

/-- The rules. -/
inductive Rule
  | expertOwned
  | replicatedIndexer
  | columnParallel
  | rowParallel
  | attnSink
  | replicatedSharedExpert
  | replicatedBaseline
deriving DecidableEq

/-- `partition_rule_kind`. -/
def partitionRuleKind (name : Text) (module : Module) : Rule :=
  if expertOwned name then .expertOwned
  else if isReplicatedC4IndexerParam name module then .replicatedIndexer
  else if isColumnParallel module then .columnParallel
  else if isRowParallel module then .rowParallel
  else if isAttnSink name module then .attnSink
  else if text "shared_experts" <:+: name then .replicatedSharedExpert
  else .replicatedBaseline

/-- `assert size % world_size == 0; shard = size // world_size`. -/
def shardSize (size worldSize : Nat) (message : ShardError) : Except ShardError Nat :=
  if worldSize = 0 then throw .zeroDivision
  else if size % worldSize ≠ 0 then throw message
  else pure (size / worldSize)

/-- `(shard_dim, start, shard_size)`, or `(None, None, None)`. -/
abbrev Slice := Option (Nat × Nat × Nat)

/-- The part of a dimension. -/
def shapeShard (shape : List Nat) (dim worldSize rank : Nat) : Except ShardError Slice := do
  let shard ← shardSize (shape.getD dim 0) worldSize (.shape shape dim)
  return some (dim, rank * shard, shard)

/-- `shard_shape_for_rank`. -/
def shardShapeForRank (shape : List Nat) (rule : Rule) (worldSize rank : Nat) :
    Except ShardError Slice :=
  match rule with
  | .columnParallel =>
    if shape.length = 1 ∨ shape.length = 2 then shapeShard shape 0 worldSize rank else pure none
  | .rowParallel => if shape.length = 2 then shapeShard shape 1 worldSize rank else pure none
  | .attnSink => if shape = [] then throw .index else shapeShard shape 0 worldSize rank
  | _ => pure none

/-- `tensor.narrow(dim, rank * shard, shard)`, where the assertion passes. -/
def tensorShard (tensor : DenseTensor α) (dim worldSize rank : Nat) (message : ShardError) :
    Except ShardError (Option (DenseTensor α)) := do
  let shard ← shardSize (tensor.size dim) worldSize message
  return some (tensor.narrow dim (rank * shard) shard)

/-- `_attn_sink_shard`. -/
def attnSinkShard (name : Text) (tensor : DenseTensor α) (module : Module)
    (worldSize rank : Nat) : Except ShardError (Option (DenseTensor α)) :=
  if ¬ isAttnSink name module then pure (some tensor)
  else if tensor.shape = [] then throw .index
  else tensorShard tensor 0 worldSize rank (.tensor name 0)

variable (int : Text → Option Int)

/-- `int(parts[parts.index("experts") + 1])`. -/
def expertIdx (name : Text) : Except ShardError Int :=
  let parts := name.splitOn (code '.')
  if text "experts" ∉ parts then throw .value
  else match parts[parts.idxOf (text "experts") + 1]? with
    | none => throw .index
    | some part =>
      match int part with
      | none => throw .value
      | some idx => pure idx

/-- `shard_tensor_for_rank`. -/
def shardTensorForRank (name : Text) (tensor : DenseTensor α) (module : Module)
    (worldSize rank : Nat) : Except ShardError (Option (DenseTensor α)) :=
  if expertOwned name then do
    let expert ← expertIdx int name
    match module.nLocalExperts with
    | none => return some tensor
    | some localExperts =>
      let start := module.expertsStartIdx.getD (rank * localExperts)
      let stop := module.expertsEndIdx.getD (start + localExperts)
      if expert < start ∨ stop ≤ expert then return none else return some tensor
  else if isReplicatedC4IndexerParam name module then pure (some tensor)
  else if isColumnParallel module then
    if tensor.shape.length = 1 ∨ tensor.shape.length = 2 then
      tensorShard tensor 0 worldSize rank (.tensor name 0)
    else pure (some tensor)
  else if isRowParallel module then
    if tensor.shape.length = 2 then tensorShard tensor 1 worldSize rank (.tensor name 1)
    else pure (some tensor)
  else attnSinkShard name tensor module worldSize rank

/-- `shard_q8_0_blocks_for_rank`: the blocks have three dimensions. -/
def shardQ80BlocksForRank (name : Text) (blocks : DenseTensor α) (module : Module)
    (worldSize rank : Nat) : Except ShardError (Option (DenseTensor α)) :=
  if expertOwned name then shardTensorForRank int name blocks module worldSize rank
  else if isColumnParallel module then tensorShard blocks 0 worldSize rank (.rows name)
  else if isRowParallel module then tensorShard blocks 1 worldSize rank (.blockColumns name)
  else attnSinkShard name blocks module worldSize rank

end

/-- A parameter of the model: the weights of an expert belong to its linear layers, whose names have the
number of the expert, and an indexer that is replicated has plain linear layers. -/
structure Parameter (int : Text → Option Int) where
  name : Text
  module : Module
  expert : expertOwned name → module.nLocalExperts = none ∧ ∃ k, expertIdx int name = .ok k
  replicated : module.replicatedC4Indexer → module.kind = .other

/-- The part that a slice describes. -/
def Slice.of {α : Type} (slice : Slice) (tensor : DenseTensor α) : DenseTensor α :=
  match slice with
  | none => tensor
  | some (dim, start, size) => tensor.narrow dim start size

/-- The shape of the part. -/
def Slice.shape (slice : Slice) (shape : List Nat) : List Nat :=
  match slice with
  | none => shape
  | some (dim, _, size) => shape.set dim size

/-- A slice is described and taken, or both are refused. -/
inductive Takes {α : Type} (tensor : DenseTensor α) :
    Except ShardError Slice → Except ShardError (Option (DenseTensor α)) → Prop
  | slice (slice : Slice) (shape : (slice.of tensor).shape = slice.shape tensor.shape) :
    Takes tensor (.ok slice) (.ok (some (slice.of tensor)))
  | refused (e e' : ShardError) : Takes tensor (.error e) (.error e')

/-- What the ranks have of a tensor: each the whole of it, or the parts of it along a dimension. -/
inductive Gathers {α : Type} (tensor : DenseTensor α) (worldSize : Nat)
    (slice : Nat → Except ShardError (Option (DenseTensor α))) : Prop
  | replicated (all : ∀ rank < worldSize, slice rank = .ok (some tensor))
  | sharded (dim : Nat) (slices : List (DenseTensor α))
    (each : List.Forall₂ (fun rank S => slice rank = .ok (some S)) (List.range worldSize) slices)
    (concat : DenseTensor.Concat dim slices tensor)
  | refused (all : ∀ rank < worldSize, ∃ e, slice rank = .error e)

section

variable {int : Text → Option Int} {α : Type}

/-- The part of a tensor by its rule. -/
def byRule (rule : Rule) (name : Text) (tensor : DenseTensor α) (worldSize rank : Nat) :
    Except ShardError (Option (DenseTensor α)) :=
  match rule with
  | .columnParallel =>
    if tensor.shape.length = 1 ∨ tensor.shape.length = 2 then
      tensorShard tensor 0 worldSize rank (.tensor name 0)
    else pure (some tensor)
  | .rowParallel =>
    if tensor.shape.length = 2 then tensorShard tensor 1 worldSize rank (.tensor name 1)
    else pure (some tensor)
  | .attnSink =>
    if tensor.shape = [] then throw .index
    else tensorShard tensor 0 worldSize rank (.tensor name 0)
  | _ => pure (some tensor)

lemma shardTensorForRank_eq (p : Parameter int) (tensor : DenseTensor α) (worldSize rank : Nat) :
    shardTensorForRank int p.name tensor p.module worldSize rank =
      byRule (partitionRuleKind p.name p.module) p.name tensor worldSize rank := by
  rw [shardTensorForRank, partitionRuleKind]
  by_cases owned : expertOwned p.name
  · obtain ⟨absent, k, parsed⟩ := p.expert owned
    rw [if_pos owned, if_pos owned, parsed, absent]
    rfl
  rw [if_neg owned, if_neg owned]
  by_cases indexer : isReplicatedC4IndexerParam p.name p.module
  · rw [if_pos indexer, if_pos indexer]
    rfl
  rw [if_neg indexer, if_neg indexer]
  by_cases column : isColumnParallel p.module
  · rw [if_pos column, if_pos column]
    rfl
  rw [if_neg column, if_neg column]
  by_cases row : isRowParallel p.module
  · rw [if_pos row, if_pos row]
    rfl
  rw [if_neg row, if_neg row, attnSinkShard]
  by_cases sink : isAttnSink p.name p.module
  · rw [if_neg (not_not.mpr sink), if_pos sink]
    rfl
  rw [if_pos sink, if_neg sink]
  split_ifs <;> rfl

lemma shardSize_ok {size worldSize : Nat} {message : ShardError} {shard : Nat} :
    shardSize size worldSize message = .ok shard ↔
      worldSize ≠ 0 ∧ worldSize ∣ size ∧ shard = size / worldSize := by
  rw [shardSize, Nat.dvd_iff_mod_eq_zero]
  split_ifs with none ragged
  · exact iff_of_false nofun fun ok => ok.1 none
  · exact iff_of_false nofun fun ok => ragged ok.2.1
  · rw [pure_ok]
    exact ⟨fun eq => ⟨none, not_not.mp ragged, eq⟩, fun ok => ok.2.2⟩

lemma shardSize_error {size worldSize : Nat} (message : ShardError)
    (ragged : ¬ (worldSize ≠ 0 ∧ worldSize ∣ size)) :
    ∃ e, shardSize size worldSize message = .error e := by
  cases shard : shardSize size worldSize message with
  | error e => exact ⟨e, rfl⟩
  | ok n =>
    obtain ⟨positive, divides, -⟩ := shardSize_ok.mp shard
    exact absurd ⟨positive, divides⟩ ragged

lemma tensorShard_ok {tensor : DenseTensor α} {dim worldSize rank : Nat} {message : ShardError}
    {S : Option (DenseTensor α)} : tensorShard tensor dim worldSize rank message = .ok S ↔
      worldSize ≠ 0 ∧ worldSize ∣ tensor.size dim ∧
        S = some (tensor.narrow dim (rank * (tensor.size dim / worldSize))
          (tensor.size dim / worldSize)) := by
  simp only [tensorShard, bind_ok, pure_ok, shardSize_ok]
  constructor
  · rintro ⟨_, ⟨positive, divides, rfl⟩, rfl⟩
    exact ⟨positive, divides, rfl⟩
  · rintro ⟨positive, divides, rfl⟩
    exact ⟨_, ⟨positive, divides, rfl⟩, rfl⟩

lemma tensorShard_error {tensor : DenseTensor α} {dim worldSize : Nat} (rank : Nat)
    (message : ShardError) (ragged : ¬ (worldSize ≠ 0 ∧ worldSize ∣ tensor.size dim)) :
    ∃ e, tensorShard tensor dim worldSize rank message = .error e := by
  obtain ⟨e, refused⟩ := shardSize_error message ragged
  exact ⟨e, error_bind.mpr (.inl refused)⟩

lemma takes_shard (tensor : DenseTensor α) (dim worldSize rank : Nat) (message : ShardError) :
    Takes tensor (shapeShard tensor.shape dim worldSize rank)
      (tensorShard tensor dim worldSize rank message) := by
  by_cases even : worldSize ≠ 0 ∧ worldSize ∣ tensor.size dim
  · have described : shapeShard tensor.shape dim worldSize rank = .ok (some (dim,
        rank * (tensor.size dim / worldSize), tensor.size dim / worldSize)) :=
      bind_ok.mpr ⟨_, shardSize_ok.mpr ⟨even.1, even.2, rfl⟩, rfl⟩
    rw [described, tensorShard_ok.mpr ⟨even.1, even.2, rfl⟩]
    exact .slice (some (dim, _, _)) rfl
  · obtain ⟨e, refused⟩ := tensorShard_error rank message even
    obtain ⟨e', undescribed⟩ := shardSize_error (.shape tensor.shape dim) even
    have undescribed' : shapeShard tensor.shape dim worldSize rank = .error e' :=
      error_bind.mpr (.inl undescribed)
    rw [refused, undescribed']
    exact .refused e' e

lemma gathers_shard {tensor : DenseTensor α} {dim : Nat} (inside : dim < tensor.shape.length)
    (worldSize : Nat) (message : ShardError) :
    Gathers tensor worldSize (tensorShard tensor dim worldSize · message) := by
  by_cases even : worldSize ≠ 0 ∧ worldSize ∣ tensor.size dim
  · refine .sharded dim (tensor.parts dim worldSize (tensor.size dim / worldSize)) ?_
      (DenseTensor.concat_parts tensor inside (Nat.mul_div_cancel' even.2))
    rw [DenseTensor.parts, List.forall₂_map_right_iff, List.forall₂_same]
    exact fun rank _ => tensorShard_ok.mpr ⟨even.1, even.2, rfl⟩
  · exact .refused fun rank _ => tensorShard_error rank message even

end

section

variable {int : Text → Option Int} {α : Type} (p : Parameter int) (tensor : DenseTensor α)

/-- `shard_shape_for_rank` describes the part that `shard_tensor_for_rank` takes. -/
theorem takes_slice (worldSize rank : Nat) :
    Takes tensor (shardShapeForRank tensor.shape (partitionRuleKind p.name p.module) worldSize rank)
      (shardTensorForRank int p.name tensor p.module worldSize rank) := by
  rw [shardTensorForRank_eq]
  have whole : Takes tensor (pure none) (pure (some tensor)) := .slice none rfl
  cases partitionRuleKind p.name p.module with
  | columnParallel =>
    rw [shardShapeForRank, byRule]
    split_ifs
    · exact takes_shard tensor 0 worldSize rank _
    · exact whole
  | rowParallel =>
    rw [shardShapeForRank, byRule]
    split_ifs
    · exact takes_shard tensor 1 worldSize rank _
    · exact whole
  | attnSink =>
    rw [shardShapeForRank, byRule]
    split_ifs
    · exact .refused .index .index
    · exact takes_shard tensor 0 worldSize rank _
  | expertOwned | replicatedIndexer | replicatedSharedExpert | replicatedBaseline => exact whole

/-- The parts that the ranks take are the tensor, or each is. -/
theorem gathers_slices (worldSize : Nat) :
    Gathers tensor worldSize (shardTensorForRank int p.name tensor p.module worldSize) := by
  have rule : shardTensorForRank int p.name tensor p.module worldSize =
      fun rank => byRule (partitionRuleKind p.name p.module) p.name tensor worldSize rank :=
    funext fun rank => shardTensorForRank_eq p tensor worldSize rank
  rw [rule]
  have whole : Gathers tensor worldSize fun _ => pure (some tensor) := .replicated fun _ _ => rfl
  cases partitionRuleKind p.name p.module with
  | columnParallel =>
    by_cases flat : tensor.shape.length = 1 ∨ tensor.shape.length = 2
    · have inside : 0 < tensor.shape.length := by omega
      have here := gathers_shard inside worldSize (.tensor p.name 0)
      simpa only [byRule, if_pos flat] using here
    · simpa only [byRule, if_neg flat] using whole
  | rowParallel =>
    by_cases flat : tensor.shape.length = 2
    · have inside : 1 < tensor.shape.length := by omega
      have here := gathers_shard inside worldSize (.tensor p.name 1)
      simpa only [byRule, if_pos flat] using here
    · simpa only [byRule, if_neg flat] using whole
  | attnSink =>
    by_cases scalar : tensor.shape = []
    · refine .refused fun rank _ => ⟨.index, ?_⟩
      rw [byRule, if_pos scalar]
      rfl
    · have here := gathers_shard (List.length_pos_iff.mpr scalar) worldSize (.tensor p.name 0)
      simpa only [byRule, if_neg scalar] using here
  | expertOwned | replicatedIndexer | replicatedSharedExpert | replicatedBaseline => exact whole

end

/-- How a float16 is read from its two bytes. -/
structure Half where
  value : Byte → Byte → ℚ
  one : value 0x00 0x3C = 1

/-- A byte as an int8. -/
def int8 (b : Byte) : Int := if b.val < 128 then b.val else b.val - 256

/-- `math.ceil(row_elems / 32)`. -/
def blocksPerRow (rowElems : Nat) : Nat := (rowElems + 31) / 32

/-- `_read_q8_0_rows_array`: a block is a float16 and 32 numbers, and a row has `row_elems` of them. -/
def readQ80 (half : Half) (blocks : DenseTensor Byte) (rowElems : Nat) : DenseTensor ℚ where
  shape := [blocks.size 0, rowElems]
  entry
    | [row, column] =>
      int8 (blocks.entry [row, column / 32, 2 + column % 32]) *
        half.value (blocks.entry [row, column / 32, 0]) (blocks.entry [row, column / 32, 1])
    | _ => 0

/-- The blocks of the part of a tensor. -/
structure BlocksOf (half : Half) (S : DenseTensor Byte) (F : DenseTensor ℚ) : Prop where
  shape : S.shape = [F.size 0, blocksPerRow (F.size 1), 34]
  same : DenseTensor.Same (readQ80 half S (F.size 1)) F

/-- What the block rule takes of a matrix with some number of columns is the blocks of what is taken of
the matrix. -/
def BlocksFollow {int : Text → Option Int} (half : Half) (p : Parameter int)
    (worldSize columns : Nat) : Prop :=
  ∀ (rows : Nat) (blocks : DenseTensor Byte), blocks.shape = [rows, blocksPerRow columns, 34] →
    ∀ rank < worldSize, ∀ S,
      shardQ80BlocksForRank int p.name blocks p.module worldSize rank = .ok (some S) →
      ∃ F, shardTensorForRank int p.name (readQ80 half blocks columns) p.module worldSize rank =
        .ok (some F) ∧ BlocksOf half S F

section

variable {int : Text → Option Int} {half : Half} {p : Parameter int} {blocks : DenseTensor Byte}
variable {rows columns worldSize rank : Nat}

/-- The part of the blocks by the rule. -/
def blocksByRule (rule : Rule) (name : Text) (blocks : DenseTensor Byte) (worldSize rank : Nat) :
    Except ShardError (Option (DenseTensor Byte)) :=
  match rule with
  | .columnParallel => tensorShard blocks 0 worldSize rank (.rows name)
  | .rowParallel => tensorShard blocks 1 worldSize rank (.blockColumns name)
  | .attnSink => tensorShard blocks 0 worldSize rank (.tensor name 0)
  | _ => pure (some blocks)

lemma shardQ80BlocksForRank_eq (p : Parameter int) (nonempty : blocks.shape ≠ [])
    (worldSize rank : Nat) : shardQ80BlocksForRank int p.name blocks p.module worldSize rank =
      blocksByRule (partitionRuleKind p.name p.module) p.name blocks worldSize rank := by
  by_cases owned : expertOwned p.name
  · rw [shardQ80BlocksForRank, if_pos owned, shardTensorForRank_eq, partitionRuleKind, if_pos owned]
    rfl
  rw [shardQ80BlocksForRank, if_neg owned, partitionRuleKind, if_neg owned]
  by_cases indexer : isReplicatedC4IndexerParam p.name p.module
  · -- a replicated module is of none of the classes
    have plain : p.module.kind = .other := p.replicated (of_decide_eq_true indexer).1
    have column : ¬ isColumnParallel p.module := by simp [isColumnParallel, plain]
    have row : ¬ isRowParallel p.module := by simp [isRowParallel, plain]
    have sink : ¬ isAttnSink p.name p.module := by simp [isAttnSink, plain]
    rw [if_neg column, if_neg row, attnSinkShard, if_pos sink, if_pos indexer]
    rfl
  rw [if_neg indexer]
  by_cases column : isColumnParallel p.module
  · rw [if_pos column, if_pos column]
    rfl
  rw [if_neg column, if_neg column]
  by_cases row : isRowParallel p.module
  · rw [if_pos row, if_pos row]
    rfl
  rw [if_neg row, if_neg row, attnSinkShard]
  by_cases sink : isAttnSink p.name p.module
  · rw [if_neg (not_not.mpr sink), if_neg nonempty, if_pos sink]
    rfl
  rw [if_pos sink, if_neg sink]
  split_ifs <;> rfl

lemma readQ80_entry (half : Half) (blocks : DenseTensor Byte) (rowElems row column : Nat) :
    (readQ80 half blocks rowElems).entry [row, column] =
      int8 (blocks.entry [row, column / 32, 2 + column % 32]) *
        half.value (blocks.entry [row, column / 32, 0]) (blocks.entry [row, column / 32, 1]) := rfl

lemma blocksOf_rows (start size : Nat) (shape : blocks.shape = [rows, blocksPerRow columns, 34]) :
    BlocksOf half (blocks.narrow 0 start size) ((readQ80 half blocks columns).narrow 0 start size) := by
  refine ⟨?_, ?_, ?_⟩
  · show blocks.shape.set 0 size = _
    rw [shape]
    rfl
  · show [(blocks.shape.set 0 size).getD 0 0, columns] = [size, columns]
    rw [shape]
    rfl
  · rintro _ (_ | ⟨-, _ | ⟨-, _ | _⟩⟩)
    rfl

lemma blocksOf_columns {start startBlock size sizeBlocks : Nat}
    (shape : blocks.shape = [rows, blocksPerRow columns, 34]) (starts : start = 32 * startBlock)
    (sizes : sizeBlocks = blocksPerRow size) :
    BlocksOf half (blocks.narrow 1 startBlock sizeBlocks)
      ((readQ80 half blocks columns).narrow 1 start size) := by
  have height : blocks.size 0 = rows := by
    rw [DenseTensor.size, shape]
    rfl
  refine ⟨?_, ?_, ?_⟩
  · show blocks.shape.set 1 sizeBlocks = [blocks.size 0, blocksPerRow size, 34]
    rw [shape, height, sizes]
    rfl
  · show [(blocks.shape.set 1 sizeBlocks).getD 0 0, size] = [blocks.size 0, size]
    rw [shape, height]
    rfl
  · rintro _ (_ | ⟨-, _ | ⟨-, _ | _⟩⟩)
    rename_i row column
    have block : (start + column) / 32 = startBlock + column / 32 := by omega
    have place : (start + column) % 32 = column % 32 := by omega
    show _ = (readQ80 half blocks columns).entry [row, start + column]
    rw [readQ80_entry, readQ80_entry, block, place]
    rfl

lemma aligned_columns (few : rank < worldSize) (even : worldSize ∣ blocksPerRow columns)
    (aligned : worldSize ≤ 1 ∨ 32 * worldSize ∣ columns) :
    worldSize ∣ columns ∧ rank * (columns / worldSize) =
      32 * (rank * (blocksPerRow columns / worldSize)) ∧
      blocksPerRow columns / worldSize = blocksPerRow (columns / worldSize) := by
  rcases aligned with one | ⟨m, rfl⟩
  · obtain rfl : worldSize = 1 := by omega
    obtain rfl : rank = 0 := by omega
    rw [Nat.div_one, Nat.div_one]
    exact ⟨Nat.one_dvd columns, by omega, rfl⟩
  · have positive : 0 < worldSize := Nat.zero_lt_of_lt few
    have share : 32 * worldSize * m / worldSize = 32 * m := by
      rw [Nat.mul_right_comm, Nat.mul_div_cancel _ positive]
    have blocks : blocksPerRow (32 * worldSize * m) = worldSize * m := by
      rw [blocksPerRow, Nat.mul_assoc]
      omega
    rw [share, blocks, Nat.mul_div_cancel_left m positive, blocksPerRow]
    refine ⟨⟨32 * m, by ring⟩, by ring, by omega⟩

/-- The block in which only the first number is not zero, and it is one. -/
def oneBlock (rows blocks block : Nat) : DenseTensor Byte where
  shape := [rows, blocks, 34]
  entry
    | [_, b, i] => if b = block then if i = 1 then 0x3C else if i = 2 then 1 else 0 else 0
    | _ => 0

lemma readQ80_oneBlock (half : Half) (rows blocks block rowElems row column : Nat) :
    (readQ80 half (oneBlock rows blocks block) rowElems).entry [row, column] =
      if column = 32 * block then 1 else 0 := by
  rw [readQ80_entry]
  simp only [oneBlock]
  by_cases here : column / 32 = block
  · by_cases first : column % 32 = 0
    · have eq : column = 32 * block := by omega
      rw [if_pos here, if_pos here, if_pos here, if_pos eq, first]
      simp [int8, half.one]
    · have neq : column ≠ 32 * block := by omega
      have scale : 2 + column % 32 ≠ 1 := by omega
      have other : 2 + column % 32 ≠ 2 := by omega
      rw [if_pos here, if_neg scale, if_neg other, if_neg neq]
      exact zero_mul _
  · have neq : column ≠ 32 * block := by omega
    rw [if_neg here, if_neg neq]
    exact zero_mul _

lemma misaligned_columns (p : Parameter int)
    (row : partitionRuleKind p.name p.module = .rowParallel) (ranks : 1 < worldSize)
    (even : worldSize ∣ blocksPerRow columns) (ragged : ¬ 32 * worldSize ∣ columns) :
    ¬ BlocksFollow half p worldSize columns := by
  intro follow
  obtain ⟨sizeBlocks, total⟩ := even
  have share : blocksPerRow columns / worldSize = sizeBlocks := by
    rw [total, Nat.mul_div_cancel_left _ (by omega)]
  have taken : shardQ80BlocksForRank int p.name (oneBlock 1 (blocksPerRow columns) sizeBlocks)
      p.module worldSize 1 = .ok (some ((oneBlock 1 (blocksPerRow columns) sizeBlocks).narrow 1
        (1 * (blocksPerRow columns / worldSize)) (blocksPerRow columns / worldSize))) := by
    rw [shardQ80BlocksForRank_eq p (List.cons_ne_nil _ _), row]
    exact tensorShard_ok.mpr ⟨by omega, ⟨sizeBlocks, total⟩, rfl⟩
  obtain ⟨F, cut, -, same⟩ := follow 1 _ rfl 1 ranks _ taken
  rw [shardTensorForRank_eq, row] at cut
  obtain ⟨-, ⟨size, width⟩, eq⟩ := tensorShard_ok.mp cut
  obtain rfl := Option.some.inj eq
  have width : columns = worldSize * size := width
  have part : columns / worldSize = size := by
    rw [width, Nat.mul_div_cancel_left _ (by omega)]
  have nonempty : 0 < size := by
    refine Nat.pos_of_ne_zero fun none => ragged ?_
    rw [width, none]
    exact Nat.dvd_zero _
  have apart : size ≠ 32 * sizeBlocks := fun eq => ragged ⟨sizeBlocks, by rw [width, eq]; ring⟩
  have first := same.entry [0, 0] (.cons Nat.one_pos (.cons (part ▸ nonempty) .nil))
  rw [readQ80_entry] at first
  have other : ((readQ80 half (oneBlock 1 (blocksPerRow columns) sizeBlocks) columns).narrow 1
      (1 * (columns / worldSize)) (columns / worldSize)).entry [0, 0] = 0 := by
    show (readQ80 half (oneBlock 1 (blocksPerRow columns) sizeBlocks) columns).entry
      [0, 1 * (columns / worldSize) + 0] = 0
    rw [readQ80_oneBlock, if_neg (by rw [part]; omega)]
  have one := first.trans other
  simp [DenseTensor.narrow, oneBlock, share, int8, half.one] at one

lemma blocks_follow (p : Parameter int)
    (aligned : partitionRuleKind p.name p.module = .rowParallel →
      worldSize ≤ 1 ∨ ¬ worldSize ∣ blocksPerRow columns ∨ 32 * worldSize ∣ columns) :
    BlocksFollow half p worldSize columns := by
  intro rows blocks shape rank few S taken
  have nonempty : blocks.shape ≠ [] := shape ▸ List.cons_ne_nil _ _
  have height : blocks.size 0 = rows := by
    rw [DenseTensor.size, shape]
    rfl
  have width : blocks.size 1 = blocksPerRow columns := by
    rw [DenseTensor.size, shape]
    rfl
  rw [shardQ80BlocksForRank_eq p nonempty] at taken
  rw [shardTensorForRank_eq]
  cases rule : partitionRuleKind p.name p.module with
  | columnParallel =>
    rw [rule] at taken
    obtain ⟨positive, even, eq⟩ := tensorShard_ok.mp taken
    obtain rfl := Option.some.inj eq
    exact ⟨_, tensorShard_ok.mpr ⟨positive, even, rfl⟩, blocksOf_rows _ _ shape⟩
  | rowParallel =>
    rw [rule] at taken
    obtain ⟨positive, even, eq⟩ := tensorShard_ok.mp taken
    obtain rfl := Option.some.inj eq
    rw [width] at even ⊢
    have cut : worldSize ≤ 1 ∨ 32 * worldSize ∣ columns := by
      rcases aligned rule with one | refused | whole
      · exact .inl one
      · exact absurd even refused
      · exact .inr whole
    obtain ⟨divides, start, size⟩ := aligned_columns few even cut
    exact ⟨_, tensorShard_ok.mpr ⟨positive, divides, rfl⟩, blocksOf_columns shape start size⟩
  | attnSink =>
    rw [rule] at taken
    obtain ⟨positive, even, eq⟩ := tensorShard_ok.mp taken
    obtain rfl := Option.some.inj eq
    exact ⟨_, tensorShard_ok.mpr ⟨positive, even, rfl⟩, blocksOf_rows _ _ shape⟩
  | expertOwned | replicatedIndexer | replicatedSharedExpert | replicatedBaseline =>
    rw [rule] at taken
    obtain rfl := Option.some.inj (Except.ok.inj taken)
    refine ⟨_, rfl, ?_, ?_⟩
    · rw [shape, ← height]
      rfl
    · exact .refl _

/-- The partition is one: what is described is what is taken, the parts are together the tensor, and the
blocks follow. The first two hold of every parameter; the blocks of a row-parallel layer follow if and
only if there is one rank, the columns of a rank are whole blocks, or the blocks are refused. -/
theorem blocks_iff (α : Type) (half : Half) (p : Parameter int) (worldSize columns : Nat) :
    ((∀ (tensor : DenseTensor α) (rank : Nat),
        Takes tensor
          (shardShapeForRank tensor.shape (partitionRuleKind p.name p.module) worldSize rank)
          (shardTensorForRank int p.name tensor p.module worldSize rank)) ∧
      (∀ tensor : DenseTensor α,
        Gathers tensor worldSize (shardTensorForRank int p.name tensor p.module worldSize)) ∧
      BlocksFollow half p worldSize columns) ↔
    (partitionRuleKind p.name p.module = .rowParallel →
      worldSize ≤ 1 ∨ ¬ worldSize ∣ blocksPerRow columns ∨ 32 * worldSize ∣ columns) := by
  constructor
  · rintro ⟨-, -, follow⟩ row
    by_contra! misaligned
    obtain ⟨ranks, even, ragged⟩ := misaligned
    exact misaligned_columns p row ranks even ragged follow
  · exact fun aligned => ⟨fun tensor rank => takes_slice p tensor worldSize rank,
      fun tensor => gathers_slices p tensor worldSize, blocks_follow p aligned⟩

end

/-- The output projection of an attention layer. -/
def woB (int : Text → Option Int) : Parameter int where
  name := text "layers.0.attn.wo_b.weight"
  module := ⟨.rowParallelLinear, false, none, none, none⟩
  expert owned := absurd owned (by decide)
  replicated := nofun

/-- 48 columns on two ranks: the second has the last 24 of them, and the block of the last 16. -/
theorem blocks_shifted :
    ¬ ∃ (int : Text → Option Int) (half : Half), BlocksFollow half (woB int) 2 48 :=
  fun ⟨int, _, follow⟩ =>
    misaligned_columns (woB int) rfl (by decide) (by decide) (by decide) follow

end PocketMoE.Loader.Partition
