import Mathlib.Tactic.Ring
import PocketMoE.Lib.Double
import PocketMoE.Lib.Except
import PocketMoE.Loader.GgufReader

/-!
# Which bytes of a GGUF file are read

Model of the readers of `tensor_reader.py` as far as they decide which bytes they read (`Region`);
what is decoded from them is another matter. `reader.py` computes the size of a tensor from all its
elements, rounded up to whole blocks. Most readers round up every row (`math.ceil` of a float), and
three refuse rows that are not whole blocks.

A call reads bytes of its tensor only if its rows, with the padding of each, are less than a block
longer than the tensor (`reads_inside_iff`), as they are when rows are whole blocks
(`inside_of_whole`).
-/

namespace PocketMoE.Loader.Python
open PocketMoE.Lib

/-- The exceptions of the readers. -/
inductive ReaderError where
  | index
  | overflow
  | shortRead
  | rowRange
  | expertRange
  | notRouted
  | notMatrix
  | indivisible
  | notImplemented
deriving DecidableEq

/-- The bytes that a call reads. -/
structure Region where
  offset : Int
  nbytes : Nat
deriving DecidableEq

/-- `_DENSE_DTYPES` (f32, f16 and i32) and bf16: the bytes of an element. -/
def denseElemSize : Nat → Option Nat
  | 0 => some 4
  | 1 => some 2
  | 26 => some 4
  | 30 => some 2
  | _ => none

/-- `_QUANT_BLOCK_META`, of q2_k, q4_k, q5_k, q6_k, iq2_xxs and iq1_m. -/
def quantBlockMeta : Nat → Option (Nat × Nat)
  | 10 => some (256, 84)
  | 12 => some (256, 144)
  | 13 => some (256, 176)
  | 14 => some (256, 210)
  | 16 => some (256, 66)
  | 29 => some (256, 56)
  | _ => none

/-- The type id of q8_0. -/
def q80 : Nat := 8

/-- `math.ceil` of a quotient that is not negative. -/
def mathCeil : Double → Except ReaderError Nat
  | .finite units => .ok ((units.toNat + Double.one - 1) / Double.one)
  | _ => .error .overflow

/-- `math.ceil(n / d)`: the quotient is a float. -/
def ceilDiv (n d : Nat) : Except ReaderError Nat := mathCeil (Double.ofRatio n d)

namespace GGUFTensorInfo

variable (t : GGUFTensorInfo)

/-- `tensor.dimensions[0]`. -/
def rowElems : Except ReaderError Nat :=
  match t.dimensions with
  | [] => .error .index
  | rowElems :: _ => .ok rowElems

/-- `_product(tensor.dimensions[1:])`. -/
def rows : Nat := t.dimensions.tail.prod

end GGUFTensorInfo

/-- The test of a range of rows. -/
def rowRange (rowStart rowCount : Int) (rows : Nat) : Except ReaderError (Nat × Nat) :=
  if rowStart < 0 ∨ rowCount < 0 ∨ rows < rowStart + rowCount then .error .rowRange
  else .ok (rowStart.toNat, rowCount.toNat)

section

variable (size : Nat) (t : GGUFTensorInfo)

/-- `_read_at`. -/
def readAt (offset : Int) (nbytes : Nat) : Except ReaderError Region :=
  if 0 ≤ offset ∧ (nbytes = 0 ∨ offset + nbytes ≤ size) then .ok ⟨offset, nbytes⟩
  else .error .shortRead

/-- `memoryview(self._mmap)[offset:offset + nbytes]`: what there is of it. No offset is negative. -/
def mapped (offset : Int) (nbytes : Nat) : Region :=
  ⟨offset, min nbytes (size - offset.toNat)⟩

/-- `torch.frombuffer` of a view, which wants some bytes and all of them. -/
def fromBuffer (offset : Int) (nbytes : Nat) : Except ReaderError Region :=
  if nbytes = 0 ∨ (mapped size offset nbytes).nbytes < nbytes then .error .shortRead
  else .ok (mapped size offset nbytes)

/-- `_read_dense_rows`. -/
def readDenseRows (elemSize rowStart rowCount : Nat) : Except ReaderError Region := do
  let rowElems ← t.rowElems
  let rowBytes := rowElems * elemSize
  readAt size (t.absoluteOffset + rowStart * rowBytes) (rowCount * rowBytes)

/-- `_read_q8_0_rows_array`, and `_read_q8_0_block_rows`, which reads the same bytes. -/
def readQ80BlockRowsAt (offset : Int) (rowElems rows : Nat) : Except ReaderError Region := do
  let blocksPerRow ← ceilDiv rowElems 32
  readAt size offset (rows * blocksPerRow * 34)

/-- `_read_q8_0_rows`. -/
def readQ80Rows (rowStart rowCount : Nat) : Except ReaderError Region := do
  let rowElems ← t.rowElems
  let blocksPerRow ← ceilDiv rowElems 32
  let rowBytes := blocksPerRow * 34
  readQ80BlockRowsAt size (t.absoluteOffset + rowStart * rowBytes) rowElems rowCount

/-- `_read_q8_0_tensor`. -/
def readQ80Tensor : Except ReaderError Region := do
  let rowElems ← t.rowElems
  readQ80BlockRowsAt size t.absoluteOffset rowElems t.rows

/-- The bytes of a block in `_read_q2_k_rows` and the other row decoders. -/
def rowBlockBytes : Nat → Option Nat
  | 10 => some 84
  | 16 => some 66
  | 29 => some 56
  | 12 => some 144
  | 13 => some 176
  | 14 => some 210
  | _ => none

/-- `_read_quantized_matrix`. -/
def readQuantizedMatrix (typeId : Nat) (offset : Int) (inDim outDim : Nat) :
    Except ReaderError Region := do
  let blocksPerRow ← ceilDiv inDim 256
  match rowBlockBytes typeId with
  | none => .error .notImplemented
  | some blockBytes => readAt size offset (outDim * blocksPerRow * blockBytes)

/-- `_read_quantized_matrix_block_rows`. -/
def readQuantizedMatrixBlockRowsAt (typeId : Nat) (offset : Int) (rowElems rows : Nat) :
    Except ReaderError Region :=
  match quantBlockMeta typeId with
  | none => .error .notImplemented
  | some (blockElems, blockBytes) => do
    let blocksPerRow ← ceilDiv rowElems blockElems
    readAt size offset (rows * blocksPerRow * blockBytes)

/-! ## The readers -/

/-- `read_tensor`. -/
def readTensor : Except ReaderError Region :=
  if (denseElemSize t.typeId).isSome then readAt size t.absoluteOffset (t.nbytes.getD 0)
  else if t.typeId = q80 then readQ80Tensor size t
  else
    match quantBlockMeta t.typeId, t.dimensions with
    | some _, [inDim, outDim] => readQuantizedMatrix size t.typeId t.absoluteOffset inDim outDim
    | _, _ => .error .notImplemented

/-- `read_tensor_rows`. -/
def readTensorRows (rowStart rowCount : Int) : Except ReaderError Region := do
  let _ ← t.rowElems
  let (rowStart, rowCount) ← rowRange rowStart rowCount t.rows
  match denseElemSize t.typeId with
  | some elemSize => readDenseRows size t elemSize rowStart rowCount
  | none =>
    if t.typeId = q80 then readQ80Rows size t rowStart rowCount else .error .notImplemented

/-- `row_count`, if it is not given the rows that are left. -/
def rowCountOr (rowCount : Option Int) (rowStart : Int) (outDim : Nat) : Int :=
  rowCount.getD (outDim - rowStart)

/-- `read_routed_expert`. -/
def readRoutedExpert (expert rowStart : Int) (rowCount : Option Int) :
    Except ReaderError Region :=
  match t.dimensions with
  | [inDim, outDim, nExperts] =>
    if expert < 0 ∨ nExperts ≤ expert then .error .expertRange
    else
      match quantBlockMeta t.typeId with
      | none => .error .notImplemented
      | some (blockElems, blockBytes) => do
        let blocksPerRow ← ceilDiv inDim blockElems
        let rowBytes := blocksPerRow * blockBytes
        let (rowStart, rowCount) ← rowRange rowStart (rowCountOr rowCount rowStart outDim) outDim
        let expertBytes := outDim * rowBytes
        let offset := t.absoluteOffset + expert * expertBytes + rowStart * rowBytes
        readQuantizedMatrix size t.typeId offset inDim rowCount
  | _ => .error .notRouted

/-- `_routed_expert_block_meta`: the offset and the bytes. -/
def routedExpertBlockMeta (expert rowStart : Int) (rowCount : Option Int) :
    Except ReaderError (Int × Nat) :=
  match t.dimensions with
  | [inDim, outDim, nExperts] =>
    if expert < 0 ∨ nExperts ≤ expert then .error .expertRange
    else
      match quantBlockMeta t.typeId with
      | none => .error .notImplemented
      | some (blockElems, blockBytes) =>
        if inDim % blockElems ≠ 0 then .error .indivisible
        else do
          let blocksPerRow := inDim / blockElems
          let rowBytes := blocksPerRow * blockBytes
          let (rowStart, rowCount) ← rowRange rowStart (rowCountOr rowCount rowStart outDim) outDim
          let expertBytes := outDim * rowBytes
          let offset := t.absoluteOffset + expert * expertBytes + rowStart * rowBytes
          return (offset, rowCount * rowBytes)
  | _ => .error .notRouted

/-- `routed_expert_blocks_ptr`: a view is as long as the file allows. -/
def routedExpertBlocksPtr (expert rowStart : Int) (rowCount : Option Int) :
    Except ReaderError Region := do
  let (offset, nbytes) ← routedExpertBlockMeta t expert rowStart rowCount
  return mapped size offset nbytes

/-- `read_routed_expert_blocks`. -/
def readRoutedExpertBlocks (expert rowStart : Int) (rowCount : Option Int) :
    Except ReaderError Region := do
  let (offset, nbytes) ← routedExpertBlockMeta t expert rowStart rowCount
  fromBuffer size offset nbytes

/-- `read_routed_layer_blocks`. -/
def readRoutedLayerBlocks (expertStart : Int) (expertCount : Option Int) :
    Except ReaderError Region :=
  match t.dimensions with
  | [inDim, outDim, nExperts] =>
    match quantBlockMeta t.typeId with
    | none => .error .notImplemented
    | some (blockElems, blockBytes) =>
      if inDim % blockElems ≠ 0 then .error .indivisible
      else
        let blocksPerRow := inDim / blockElems
        let rowBytes := blocksPerRow * blockBytes
        let expertCount := expertCount.getD (nExperts - expertStart)
        if expertStart < 0 ∨ expertCount < 0 ∨ nExperts < expertStart + expertCount then
          .error .expertRange
        else
          let expertBytes := outDim * rowBytes
          let nbytes := expertCount.toNat * expertBytes
          fromBuffer size (t.absoluteOffset + expertStart * expertBytes) nbytes
  | _ => .error .notRouted

/-- `read_q8_0_blocks`. -/
def readQ80Blocks : Except ReaderError Region :=
  if t.typeId ≠ q80 then .error .notImplemented else readQ80Tensor size t

/-- `read_q8_0_block_rows`. -/
def readQ80BlockRows (rowStart rowCount : Int) : Except ReaderError Region :=
  if t.typeId ≠ q80 then .error .notImplemented
  else do
    let (rowStart, rowCount) ← rowRange rowStart rowCount t.rows
    readQ80Rows size t rowStart rowCount

/-- `read_quantized_matrix_blocks`. -/
def readQuantizedMatrixBlocks : Except ReaderError Region :=
  match t.dimensions with
  | [rowElems, rows] => readQuantizedMatrixBlockRowsAt size t.typeId t.absoluteOffset rowElems rows
  | _ => .error .notMatrix

/-- `read_quantized_matrix_block_rows`. -/
def readQuantizedMatrixBlockRows (rowStart rowCount : Int) : Except ReaderError Region :=
  match t.dimensions with
  | [rowElems, rows] =>
    match quantBlockMeta t.typeId with
    | none => .error .notImplemented
    | some (blockElems, blockBytes) => do
      let (rowStart, rowCount) ← rowRange rowStart rowCount rows
      let blocksPerRow ← ceilDiv rowElems blockElems
      let rowBytes := blocksPerRow * blockBytes
      readQuantizedMatrixBlockRowsAt size t.typeId (t.absoluteOffset + rowStart * rowBytes) rowElems
        rowCount
  | _ => .error .notMatrix

/-- `read_quantized_matrix_rows_reference`. -/
def readQuantizedMatrixRowsReference (rowStart rowCount : Int) : Except ReaderError Region :=
  match t.dimensions with
  | [rowElems, rows] => do
    let (rowStart, rowCount) ← rowRange rowStart rowCount rows
    match quantBlockMeta t.typeId with
    | none => .error .notImplemented
    | some (blockElems, blockBytes) =>
      let blocksPerRow ← ceilDiv rowElems blockElems
      readQuantizedMatrix size t.typeId
        (t.absoluteOffset + rowStart * (blocksPerRow * blockBytes)) rowElems rowCount
  | _ => .error .notMatrix

end

/-- A call of a reader. -/
inductive ReadCall where
  | tensor
  | tensorRows (rowStart rowCount : Int)
  | routedExpert (expert rowStart : Int) (rowCount : Option Int)
  | routedExpertBlocksPtr (expert rowStart : Int) (rowCount : Option Int)
  | routedExpertBlocks (expert rowStart : Int) (rowCount : Option Int)
  | routedLayerBlocks (expertStart : Int) (expertCount : Option Int)
  | q80Blocks
  | q80BlockRows (rowStart rowCount : Int)
  | quantizedMatrixBlocks
  | quantizedMatrixBlockRows (rowStart rowCount : Int)
  | quantizedMatrixRowsReference (rowStart rowCount : Int)

/-- What a call reads of a tensor. -/
def ReadCall.run (size : Nat) (t : GGUFTensorInfo) : ReadCall → Except ReaderError Region
  | tensor => readTensor size t
  | tensorRows rowStart rowCount => readTensorRows size t rowStart rowCount
  | routedExpert expert rowStart rowCount => readRoutedExpert size t expert rowStart rowCount
  | routedExpertBlocksPtr expert rowStart rowCount =>
    Python.routedExpertBlocksPtr size t expert rowStart rowCount
  | routedExpertBlocks expert rowStart rowCount =>
    readRoutedExpertBlocks size t expert rowStart rowCount
  | routedLayerBlocks expertStart expertCount =>
    readRoutedLayerBlocks size t expertStart expertCount
  | q80Blocks => readQ80Blocks size t
  | q80BlockRows rowStart rowCount => readQ80BlockRows size t rowStart rowCount
  | quantizedMatrixBlocks => readQuantizedMatrixBlocks size t
  | quantizedMatrixBlockRows rowStart rowCount =>
    readQuantizedMatrixBlockRows size t rowStart rowCount
  | quantizedMatrixRowsReference rowStart rowCount =>
    readQuantizedMatrixRowsReference size t rowStart rowCount

/-! ## The rows of a call -/

/-- The elements of a row; a tensor without dimensions has one. -/
def GGUFTensorInfo.rowLength (t : GGUFTensorInfo) : Nat := t.dimensions.headD 1

/-- The elements of a block. -/
def GGUFTensorInfo.blockElems (t : GGUFTensorInfo) : Nat :=
  ((ggmlTypes t.typeId).map Prod.fst).getD 1

/-- The bytes of a block. -/
def GGUFTensorInfo.blockBytes (t : GGUFTensorInfo) : Nat :=
  ((ggmlTypes t.typeId).map Prod.snd).getD 0

/-- The reader refuses rows that are not whole blocks. -/
def ReadCall.refuses : ReadCall → Bool
  | routedExpertBlocksPtr .. | routedExpertBlocks .. | routedLayerBlocks .. => true
  | _ => false

/-- The rows of the tensor that a call is about: the first one and how many. The rows of the experts
come one expert after the other. -/
def ReadCall.rows (t : GGUFTensorInfo) : ReadCall → Nat × Nat
  | tensor | q80Blocks | quantizedMatrixBlocks => (0, t.rows)
  | tensorRows rowStart rowCount | q80BlockRows rowStart rowCount
  | quantizedMatrixBlockRows rowStart rowCount | quantizedMatrixRowsReference rowStart rowCount =>
    (rowStart.toNat, rowCount.toNat)
  | routedExpert expert rowStart rowCount | routedExpertBlocksPtr expert rowStart rowCount
  | routedExpertBlocks expert rowStart rowCount =>
    let outDim := t.dimensions.getD 1 0
    (expert.toNat * outDim + rowStart.toNat, (rowCountOr rowCount rowStart outDim).toNat)
  | routedLayerBlocks expertStart expertCount =>
    let outDim := t.dimensions.getD 1 0
    (expertStart.toNat * outDim,
      (expertCount.getD (t.dimensions.getD 2 0 - expertStart)).toNat * outDim)

/-- The elements of a row with its padding, as the call computes it. -/
def ReadCall.paddedRow (t : GGUFTensorInfo) (call : ReadCall) : Nat :=
  if call.refuses ∨ (denseElemSize t.typeId).isSome then t.rowLength
  else (ceilDiv t.rowLength t.blockElems).toOption.getD 0 * t.blockElems

/-- The bytes of a region are bytes of the tensor. -/
def Region.Inside (t : GGUFTensorInfo) (region : Region) : Prop :=
  ∀ place : Int, region.offset ≤ place → place < region.offset + region.nbytes →
    t.absoluteOffset ≤ place ∧ place < t.absoluteOffset + (t.nbytes.getD 0 : Nat)

/-- A region of some rows, one padded row after the other. -/
structure RowsOf (t : GGUFTensorInfo) (first count padded : Nat) (region : Region) : Prop where
  known : ggmlTypes t.typeId = some (t.blockElems, t.blockBytes)
  le : first + count ≤ t.rows
  region : ∃ blocks, padded = blocks * t.blockElems ∧
    region = ⟨t.absoluteOffset + (first * (blocks * t.blockBytes) : Nat),
      count * (blocks * t.blockBytes)⟩

lemma block_eq {t : GGUFTensorInfo} {block : Nat × Nat}
    (known : ggmlTypes t.typeId = some block) : (t.blockElems, t.blockBytes) = block := by
  rw [GGUFTensorInfo.blockElems, GGUFTensorInfo.blockBytes, known]
  rfl

lemma dense_eq {typeId elemSize : Nat} (dense : denseElemSize typeId = some elemSize) :
    ggmlTypes typeId = some (1, elemSize) := by
  unfold denseElemSize at dense
  split at dense
  all_goals first
    | exact (Option.some.inj dense) ▸ rfl
    | cases dense

lemma quant_eq {typeId : Nat} {block : Nat × Nat} (quant : quantBlockMeta typeId = some block) :
    ggmlTypes typeId = some block ∧ rowBlockBytes typeId = some block.2 ∧ block.1 = 256 ∧
      denseElemSize typeId = none := by
  unfold quantBlockMeta at quant
  split at quant
  all_goals first
    | exact (Option.some.inj quant) ▸ ⟨rfl, rfl, rfl, rfl⟩
    | cases quant

lemma elements_eq (t : GGUFTensorInfo) : t.dimensions.prod = t.rowLength * t.rows := by
  unfold GGUFTensorInfo.rowLength GGUFTensorInfo.rows
  cases t.dimensions with
  | nil => rfl
  | cons r dims => exact List.prod_cons

/-! ## What the inner functions read -/

section

variable {size : Nat} {t : GGUFTensorInfo} {region : Region}

lemma readAt_ok {offset : Int} {nbytes : Nat} (reads : readAt size offset nbytes = .ok region) :
    region = ⟨offset, nbytes⟩ := by
  unfold readAt at reads
  split_ifs at reads
  exact (Except.ok.inj reads).symm

lemma fromBuffer_ok {offset : Int} {nbytes : Nat}
    (reads : fromBuffer size offset nbytes = .ok region) : region = ⟨offset, nbytes⟩ := by
  unfold fromBuffer at reads
  split_ifs at reads with short
  push Not at short
  rw [← Except.ok.inj reads, mapped]
  congr 1
  exact Nat.le_antisymm (Nat.min_le_left ..) short.2

lemma rowElems_ok {r : Nat} (here : t.rowElems = .ok r) : t.rowLength = r := by
  unfold GGUFTensorInfo.rowElems at here
  unfold GGUFTensorInfo.rowLength
  split at here
  · cases here
  · next eq => rw [eq, ← Except.ok.inj here, List.headD_cons]

lemma rowRange_ok {rowStart rowCount : Int} {rows : Nat} {range : Nat × Nat}
    (here : rowRange rowStart rowCount rows = .ok range) :
    range = (rowStart.toNat, rowCount.toNat) ∧ rowStart.toNat + rowCount.toNat ≤ rows := by
  unfold rowRange at here
  split_ifs at here with outside
  push Not at outside
  exact ⟨(Except.ok.inj here).symm, by omega⟩

lemma RowsOf.rounded {block : Nat × Nat} {r blocks first count : Nat}
    (known : ggmlTypes t.typeId = some block) (length : t.rowLength = r)
    (ceil : ceilDiv r block.1 = .ok blocks) (le : first + count ≤ t.rows) :
    RowsOf t first count ((ceilDiv t.rowLength t.blockElems).toOption.getD 0 * t.blockElems)
      ⟨t.absoluteOffset + (first * (blocks * block.2) : Nat), count * (blocks * block.2)⟩ := by
  obtain rfl := block_eq known
  refine ⟨known, le, blocks, ?_, rfl⟩
  rw [length, ceil]
  rfl

lemma RowsOf.whole {block : Nat × Nat} {first count : Nat}
    (known : ggmlTypes t.typeId = some block) (divides : t.rowLength % block.1 = 0)
    (le : first + count ≤ t.rows) :
    RowsOf t first count t.rowLength
      ⟨t.absoluteOffset + (first * (t.rowLength / block.1 * block.2) : Nat),
        count * (t.rowLength / block.1 * block.2)⟩ := by
  obtain rfl := block_eq known
  refine ⟨known, le, t.rowLength / t.blockElems, ?_, rfl⟩
  rw [Nat.div_mul_cancel (Nat.dvd_of_mod_eq_zero divides)]

end

/-! ## What the calls read -/

/-- What a call reads: its rows, or what the file has of them. -/
structure CallReads (t : GGUFTensorInfo) (call : ReadCall) (region : Region) : Prop where
  rows : ∃ full, RowsOf t (call.rows t).1 (call.rows t).2 (call.paddedRow t) full ∧
    region.offset = full.offset ∧ region.nbytes ≤ full.nbytes ∧
    (call.refuses = false → region = full)
  refuses : call.refuses = true → call.paddedRow t = t.rowLength

section

variable {size : Nat} {t : GGUFTensorInfo} {region : Region} {call : ReadCall}

lemma CallReads.ofRounded (accepts : call.refuses = false) (other : denseElemSize t.typeId = none)
    (rows : RowsOf t (call.rows t).1 (call.rows t).2
      ((ceilDiv t.rowLength t.blockElems).toOption.getD 0 * t.blockElems) region) :
    CallReads t call region where
  rows := by
    refine ⟨region, ?_, rfl, le_rfl, fun _ => rfl⟩
    unfold ReadCall.paddedRow
    rw [accepts, other, if_neg (by simp)]
    exact rows
  refuses := fun refuses => absurd (accepts.symm.trans refuses) Bool.false_ne_true

lemma CallReads.ofDense (accepts : call.refuses = false) {elemSize : Nat}
    (dense : denseElemSize t.typeId = some elemSize)
    (rows : RowsOf t (call.rows t).1 (call.rows t).2 t.rowLength region) :
    CallReads t call region where
  rows := by
    refine ⟨region, ?_, rfl, le_rfl, fun _ => rfl⟩
    unfold ReadCall.paddedRow
    rw [accepts, dense, if_pos (Or.inr Option.isSome_some)]
    exact rows
  refuses := fun refuses => absurd (accepts.symm.trans refuses) Bool.false_ne_true

lemma CallReads.ofWhole (refuses : call.refuses = true) {full : Region}
    (rows : RowsOf t (call.rows t).1 (call.rows t).2 t.rowLength full)
    (offset : region.offset = full.offset) (le : region.nbytes ≤ full.nbytes) :
    CallReads t call region := by
  have padded : call.paddedRow t = t.rowLength := by
    unfold ReadCall.paddedRow
    rw [if_pos (Or.inl refuses)]
  refine ⟨⟨full, padded.symm ▸ rows, offset, le, fun accepts => ?_⟩, fun _ => padded⟩
  exact absurd (accepts.symm.trans refuses) Bool.false_ne_true

lemma q80_eq (type : t.typeId = q80) :
    ggmlTypes t.typeId = some (32, 34) ∧ denseElemSize t.typeId = none := by
  rw [type]
  exact ⟨rfl, rfl⟩

lemma q80At_ok {offset : Int} {r count : Nat}
    (reads : readQ80BlockRowsAt size offset r count = .ok region) :
    ∃ blocks, ceilDiv r 32 = .ok blocks ∧ region = ⟨offset, count * (blocks * 34)⟩ := by
  obtain ⟨blocks, ceil, reads⟩ := bind_ok.mp reads
  exact ⟨blocks, ceil, by rw [readAt_ok reads, Nat.mul_assoc]⟩

lemma matrixAt_ok {offset : Int} {r count : Nat} {block : Nat × Nat}
    (quant : quantBlockMeta t.typeId = some block)
    (reads : readQuantizedMatrix size t.typeId offset r count = .ok region) :
    ∃ blocks, ceilDiv r block.1 = .ok blocks ∧ region = ⟨offset, count * (blocks * block.2)⟩ := by
  obtain ⟨-, bytes, elems, -⟩ := quant_eq quant
  obtain ⟨blocks, ceil, reads⟩ := bind_ok.mp reads
  rw [bytes] at reads
  rw [elems]
  exact ⟨blocks, ceil, by rw [readAt_ok reads, Nat.mul_assoc]⟩

lemma matrixBlockRowsAt_ok {offset : Int} {r count : Nat} {block : Nat × Nat}
    (quant : quantBlockMeta t.typeId = some block)
    (reads : readQuantizedMatrixBlockRowsAt size t.typeId offset r count = .ok region) :
    ∃ blocks, ceilDiv r block.1 = .ok blocks ∧ region = ⟨offset, count * (blocks * block.2)⟩ := by
  unfold readQuantizedMatrixBlockRowsAt at reads
  rw [quant] at reads
  obtain ⟨blocks, ceil, reads⟩ := bind_ok.mp reads
  exact ⟨blocks, ceil, by rw [readAt_ok reads, Nat.mul_assoc]⟩

lemma first_offset (t : GGUFTensorInfo) (rowBytes : Nat) :
    t.absoluteOffset + ((0 * rowBytes : Nat) : Int) = t.absoluteOffset := by
  rw [Nat.zero_mul, Int.natCast_zero, Int.add_zero]

lemma q80Tensor_reads (type : t.typeId = q80) (accepts : call.refuses = false)
    (all : call.rows t = (0, t.rows)) (reads : readQ80Tensor size t = .ok region) :
    CallReads t call region := by
  obtain ⟨known, other⟩ := q80_eq type
  obtain ⟨r, length, reads⟩ := bind_ok.mp reads
  obtain ⟨blocks, ceil, rfl⟩ := q80At_ok reads
  have rows : RowsOf t 0 t.rows _ _ :=
    .rounded known (rowElems_ok length) ceil (Nat.zero_add _).le
  rw [first_offset] at rows
  exact .ofRounded accepts other (all ▸ rows)

lemma q80Rows_reads (type : t.typeId = q80) (accepts : call.refuses = false) {first count : Nat}
    (part : call.rows t = (first, count)) (le : first + count ≤ t.rows)
    (reads : readQ80Rows size t first count = .ok region) : CallReads t call region := by
  obtain ⟨known, other⟩ := q80_eq type
  obtain ⟨r, length, reads⟩ := bind_ok.mp reads
  obtain ⟨blocks, ceil, reads⟩ := bind_ok.mp reads
  obtain ⟨blocks', ceil', rfl⟩ := q80At_ok reads
  obtain rfl := Except.ok.inj (ceil.symm.trans ceil')
  have rows := RowsOf.rounded known (rowElems_ok length) ceil le
  rw [Int.natCast_mul first] at rows
  exact .ofRounded accepts other (part ▸ rows)

lemma readTensor_reads (sized : t.nbytes = tensorNbytes t.typeId t.dimensions)
    (reads : readTensor size t = .ok region) : CallReads t .tensor region := by
  unfold readTensor at reads
  split_ifs at reads with isDense type
  · obtain ⟨elemSize, dense⟩ := Option.isSome_iff_exists.mp isDense
    have bytes : t.nbytes.getD 0 = t.rows * (t.rowLength / 1 * elemSize) := by
      rw [sized, tensorNbytes, dense_eq dense]
      show (t.dimensions.prod + 1 - 1) / 1 * elemSize = _
      rw [Nat.add_sub_cancel, Nat.div_one, Nat.div_one, elements_eq, Nat.mul_comm t.rowLength,
        Nat.mul_assoc]
    have rows : RowsOf t 0 t.rows _ _ :=
      .whole (dense_eq dense) (Nat.mod_one _) (Nat.zero_add _).le
    rw [first_offset, ← bytes] at rows
    rw [readAt_ok reads]
    exact .ofDense rfl dense rows
  · exact q80Tensor_reads type rfl rfl reads
  · split at reads
    next block inDim outDim quant dims =>
      obtain ⟨blocks, ceil, rfl⟩ := matrixAt_ok quant reads
      have count : t.rows = outDim := by
        rw [GGUFTensorInfo.rows, dims, List.tail_cons, List.prod_singleton]
      have length : t.rowLength = inDim := by rw [GGUFTensorInfo.rowLength, dims, List.headD_cons]
      obtain ⟨known, -, -, other⟩ := quant_eq quant
      have rows : RowsOf t 0 t.rows _ _ := .rounded known length ceil (Nat.zero_add _).le
      rw [first_offset, count] at rows
      refine .ofRounded rfl other ?_
      show RowsOf t 0 t.rows _ _
      rw [count]
      exact rows
    next => cases reads

lemma readTensorRows_reads {rowStart rowCount : Int}
    (reads : readTensorRows size t rowStart rowCount = .ok region) :
    CallReads t (.tensorRows rowStart rowCount) region := by
  obtain ⟨r, length, reads⟩ := bind_ok.mp reads
  obtain ⟨range, inRange, reads⟩ := bind_ok.mp reads
  obtain ⟨rfl, le⟩ := rowRange_ok inRange
  dsimp only at reads
  split at reads
  next elemSize dense =>
    obtain ⟨r', length', reads⟩ := bind_ok.mp reads
    obtain rfl := rowElems_ok length'
    have rows := RowsOf.whole (dense_eq dense) (Nat.mod_one t.rowLength) le
    rw [Nat.div_one, Int.natCast_mul rowStart.toNat] at rows
    rw [readAt_ok reads]
    exact .ofDense rfl dense rows
  next =>
    split_ifs at reads with type
    exact q80Rows_reads type rfl rfl le reads

lemma matrixRows_reads {r n first count : Nat} {block : Nat × Nat}
    (quant : quantBlockMeta t.typeId = some block) (dims : t.dimensions = [r, n])
    (accepts : call.refuses = false) (part : call.rows t = (first, count)) (le : first + count ≤ n)
    {blocks : Nat} (ceil : ceilDiv r block.1 = .ok blocks)
    (eq : region = ⟨t.absoluteOffset + first * (blocks * block.2 : Nat),
      count * (blocks * block.2)⟩) : CallReads t call region := by
  obtain ⟨known, -, -, other⟩ := quant_eq quant
  have length : t.rowLength = r := by rw [GGUFTensorInfo.rowLength, dims, List.headD_cons]
  have total : t.rows = n := by
    rw [GGUFTensorInfo.rows, dims, List.tail_cons, List.prod_singleton]
  have rows := RowsOf.rounded known length ceil (le.trans_eq total.symm)
  rw [Int.natCast_mul first, ← eq] at rows
  exact .ofRounded accepts other (part ▸ rows)

end

section

variable {size : Nat} {t : GGUFTensorInfo} {region : Region} {call : ReadCall}

lemma expertRows_le {expert : Int} {outDim nExperts first count : Nat} (nonneg : 0 ≤ expert)
    (lt : expert < nExperts) (le : first + count ≤ outDim) :
    expert.toNat * outDim + first + count ≤ outDim * nExperts := by
  have whole : (expert.toNat + 1) * outDim ≤ nExperts * outDim :=
    Nat.mul_le_mul_right _ (by omega)
  rw [Nat.mul_comm outDim]
  rw [Nat.add_mul, Nat.one_mul] at whole
  omega

lemma expert_offset {expert : Int} (start : Int) (outDim first rowBytes : Nat)
    (nonneg : 0 ≤ expert) :
    start + expert * (outDim * rowBytes : Nat) + first * (rowBytes : Nat) =
      start + ((expert.toNat * outDim + first) * rowBytes : Nat) := by
  obtain ⟨e, rfl⟩ := Int.eq_ofNat_of_zero_le nonneg
  rw [Int.toNat_natCast]
  push_cast
  ring

lemma readRoutedExpert_reads {expert rowStart : Int} {rowCount : Option Int}
    (reads : readRoutedExpert size t expert rowStart rowCount = .ok region) :
    CallReads t (.routedExpert expert rowStart rowCount) region := by
  unfold readRoutedExpert at reads
  split at reads
  next inDim outDim nExperts dims =>
    split_ifs at reads with outside
    push Not at outside
    split at reads
    next => cases reads
    next blockElems blockBytes quant =>
      obtain ⟨blocks, ceil, reads⟩ := bind_ok.mp reads
      obtain ⟨range, inRange, reads⟩ := bind_ok.mp reads
      obtain ⟨rfl, le⟩ := rowRange_ok inRange
      obtain ⟨blocks', ceil', rfl⟩ := matrixAt_ok quant reads
      obtain rfl := Except.ok.inj (ceil.symm.trans ceil')
      obtain ⟨known, -, -, other⟩ := quant_eq quant
      have length : t.rowLength = inDim := by rw [GGUFTensorInfo.rowLength, dims, List.headD_cons]
      have total : t.rows = outDim * nExperts := by
        rw [GGUFTensorInfo.rows, dims, List.tail_cons, List.prod_cons, List.prod_singleton]
      have inside := (expertRows_le outside.1 outside.2 le).trans_eq total.symm
      have rows := RowsOf.rounded known length ceil inside
      rw [← expert_offset _ _ _ _ outside.1] at rows
      refine .ofRounded rfl other ?_
      have width : t.dimensions.getD 1 0 = outDim := by rw [dims]; rfl
      unfold ReadCall.rows
      dsimp only
      rw [width]
      exact rows
  next => cases reads

lemma routedExpertBlockMeta_ok {expert rowStart : Int} {rowCount : Option Int} {found : Int × Nat}
    (here : routedExpertBlockMeta t expert rowStart rowCount = .ok found) :
    RowsOf t (expert.toNat * t.dimensions.getD 1 0 + rowStart.toNat)
      (rowCountOr rowCount rowStart (t.dimensions.getD 1 0)).toNat t.rowLength
      ⟨found.1, found.2⟩ := by
  unfold routedExpertBlockMeta at here
  split at here
  next inDim outDim nExperts dims =>
    split_ifs at here with outside
    push Not at outside
    split at here
    next => cases here
    next blockElems blockBytes quant =>
      split_ifs at here with divides
      push Not at divides
      obtain ⟨range, inRange, here⟩ := bind_ok.mp here
      obtain ⟨rfl, le⟩ := rowRange_ok inRange
      obtain rfl := pure_ok.mp here
      obtain ⟨known, -⟩ := quant_eq quant
      have length : t.rowLength = inDim := by rw [GGUFTensorInfo.rowLength, dims, List.headD_cons]
      have total : t.rows = outDim * nExperts := by
        rw [GGUFTensorInfo.rows, dims, List.tail_cons, List.prod_cons, List.prod_singleton]
      have inside := (expertRows_le outside.1 outside.2 le).trans_eq total.symm
      have rows := RowsOf.whole known (length.symm ▸ divides) inside
      rw [← expert_offset _ _ _ _ outside.1, length] at rows
      have width : t.dimensions.getD 1 0 = outDim := by rw [dims]; rfl
      rw [width, length]
      exact rows
  next => cases here

lemma routedExpertBlocksPtr_reads {expert rowStart : Int} {rowCount : Option Int}
    (reads : routedExpertBlocksPtr size t expert rowStart rowCount = .ok region) :
    CallReads t (.routedExpertBlocksPtr expert rowStart rowCount) region := by
  obtain ⟨found, here, reads⟩ := bind_ok.mp reads
  obtain rfl := pure_ok.mp reads
  exact .ofWhole rfl (routedExpertBlockMeta_ok here) rfl (Nat.min_le_left ..)

lemma readRoutedExpertBlocks_reads {expert rowStart : Int} {rowCount : Option Int}
    (reads : readRoutedExpertBlocks size t expert rowStart rowCount = .ok region) :
    CallReads t (.routedExpertBlocks expert rowStart rowCount) region := by
  obtain ⟨found, here, reads⟩ := bind_ok.mp reads
  rw [fromBuffer_ok reads]
  exact .ofWhole rfl (routedExpertBlockMeta_ok here) rfl le_rfl

lemma readRoutedLayerBlocks_reads {expertStart : Int} {expertCount : Option Int}
    (reads : readRoutedLayerBlocks size t expertStart expertCount = .ok region) :
    CallReads t (.routedLayerBlocks expertStart expertCount) region := by
  unfold readRoutedLayerBlocks at reads
  split at reads
  next inDim outDim nExperts dims =>
    split at reads
    next => cases reads
    next blockElems blockBytes quant =>
      dsimp only at reads
      split_ifs at reads with divides outside
      push Not at divides outside
      obtain ⟨known, -⟩ := quant_eq quant
      have length : t.rowLength = inDim := by rw [GGUFTensorInfo.rowLength, dims, List.headD_cons]
      have total : t.rows = nExperts * outDim := by
        rw [GGUFTensorInfo.rows, dims, List.tail_cons, List.prod_cons, List.prod_singleton,
          Nat.mul_comm]
      have width : t.dimensions.getD 1 0 = outDim := by rw [dims]; rfl
      have experts : t.dimensions.getD 2 0 = nExperts := by rw [dims]; rfl
      have inside : expertStart.toNat * outDim +
          (expertCount.getD (nExperts - expertStart)).toNat * outDim ≤ t.rows := by
        rw [total, ← Nat.add_mul]
        exact Nat.mul_le_mul_right _ (by omega)
      have rows := RowsOf.whole known (length.symm ▸ divides) inside
      have start := expert_offset t.absoluteOffset outDim 0 (inDim / blockElems * blockBytes)
        outside.1
      rw [Int.natCast_zero, Int.zero_mul, Int.add_zero, Nat.add_zero] at start
      rw [fromBuffer_ok reads, start, ← Nat.mul_assoc (Int.toNat _)]
      rw [length] at rows
      refine .ofWhole rfl ?_ rfl le_rfl
      unfold ReadCall.rows
      dsimp only
      rw [width, experts, length]
      exact rows
  next => cases reads

lemma readQuantizedMatrixBlocks_reads
    (reads : readQuantizedMatrixBlocks size t = .ok region) :
    CallReads t .quantizedMatrixBlocks region := by
  unfold readQuantizedMatrixBlocks at reads
  split at reads
  next r n dims =>
    cases quant : quantBlockMeta t.typeId with
    | none =>
      unfold readQuantizedMatrixBlockRowsAt at reads
      rw [quant] at reads
      cases reads
    | some block =>
      obtain ⟨blocks, ceil, eq⟩ := matrixBlockRowsAt_ok quant reads
      have total : t.rows = n := by
        rw [GGUFTensorInfo.rows, dims, List.tail_cons, List.prod_singleton]
      refine matrixRows_reads quant dims rfl rfl (by omega) ceil ?_
      rw [eq, Int.natCast_zero, Int.zero_mul, Int.add_zero, total]
  next => cases reads

lemma readQuantizedMatrixBlockRows_reads {rowStart rowCount : Int}
    (reads : readQuantizedMatrixBlockRows size t rowStart rowCount = .ok region) :
    CallReads t (.quantizedMatrixBlockRows rowStart rowCount) region := by
  unfold readQuantizedMatrixBlockRows at reads
  split at reads
  next r n dims =>
    split at reads
    next => cases reads
    next blockElems blockBytes quant =>
      obtain ⟨range, inRange, reads⟩ := bind_ok.mp reads
      obtain ⟨rfl, le⟩ := rowRange_ok inRange
      obtain ⟨blocks, ceil, reads⟩ := bind_ok.mp reads
      obtain ⟨blocks', ceil', eq⟩ := matrixBlockRowsAt_ok quant reads
      obtain rfl := Except.ok.inj (ceil.symm.trans ceil')
      exact matrixRows_reads quant dims rfl rfl le ceil eq
  next => cases reads

lemma readQuantizedMatrixRowsReference_reads {rowStart rowCount : Int}
    (reads : readQuantizedMatrixRowsReference size t rowStart rowCount = .ok region) :
    CallReads t (.quantizedMatrixRowsReference rowStart rowCount) region := by
  unfold readQuantizedMatrixRowsReference at reads
  split at reads
  next r n dims =>
    obtain ⟨range, inRange, reads⟩ := bind_ok.mp reads
    obtain ⟨rfl, le⟩ := rowRange_ok inRange
    dsimp only at reads
    split at reads
    next => cases reads
    next blockElems blockBytes quant =>
      obtain ⟨blocks, ceil, reads⟩ := bind_ok.mp reads
      obtain ⟨blocks', ceil', eq⟩ := matrixAt_ok quant reads
      obtain rfl := Except.ok.inj (ceil.symm.trans ceil')
      rw [← Int.natCast_mul] at eq
      exact matrixRows_reads quant dims rfl rfl le ceil eq
  next => cases reads

lemma run_reads (sized : t.nbytes = tensorNbytes t.typeId t.dimensions)
    (reads : call.run size t = .ok region) : CallReads t call region := by
  cases call with
  | tensor => exact readTensor_reads sized reads
  | tensorRows rowStart rowCount => exact readTensorRows_reads reads
  | routedExpert expert rowStart rowCount => exact readRoutedExpert_reads reads
  | routedExpertBlocksPtr expert rowStart rowCount => exact routedExpertBlocksPtr_reads reads
  | routedExpertBlocks expert rowStart rowCount => exact readRoutedExpertBlocks_reads reads
  | routedLayerBlocks expertStart expertCount => exact readRoutedLayerBlocks_reads reads
  | q80Blocks =>
    change readQ80Blocks size t = .ok region at reads
    unfold readQ80Blocks at reads
    split_ifs at reads with other
    exact q80Tensor_reads (not_not.mp other) rfl rfl reads
  | q80BlockRows rowStart rowCount =>
    change readQ80BlockRows size t rowStart rowCount = .ok region at reads
    unfold readQ80BlockRows at reads
    split_ifs at reads with other
    obtain ⟨range, inRange, reads⟩ := bind_ok.mp reads
    obtain ⟨rfl, le⟩ := rowRange_ok inRange
    exact q80Rows_reads (not_not.mp other) rfl rfl le reads
  | quantizedMatrixBlocks => exact readQuantizedMatrixBlocks_reads reads
  | quantizedMatrixBlockRows rowStart rowCount => exact readQuantizedMatrixBlockRows_reads reads
  | quantizedMatrixRowsReference rowStart rowCount =>
    exact readQuantizedMatrixRowsReference_reads reads

end

/-! ## The bytes of the tensor -/

section

variable {t : GGUFTensorInfo} {region : Region} {call : ReadCall}

lemma tensorNbytes_eq (known : ggmlTypes t.typeId = some (t.blockElems, t.blockBytes)) :
    tensorNbytes t.typeId t.dimensions =
      some ((t.dimensions.prod + t.blockElems - 1) / t.blockElems * t.blockBytes) := by
  rw [tensorNbytes, known]

lemma blocks_le_iff {rows blocks elems block : Nat} (pos : 0 < block) :
    rows * blocks ≤ (elems + block - 1) / block ↔ rows * (blocks * block) < elems + block := by
  rw [Nat.le_div_iff_mul_le pos, Nat.mul_assoc]
  omega

lemma inside_iff {start nbytes total : Nat} (size : t.nbytes = some total) :
    Region.Inside t ⟨t.absoluteOffset + start, nbytes⟩ ↔ nbytes = 0 ∨ start + nbytes ≤ total := by
  unfold Region.Inside
  rw [size, Option.getD_some]
  dsimp only
  constructor
  · intro inside
    rcases Nat.eq_zero_or_pos nbytes with none | some
    · exact Or.inl none
    · have last := inside (t.absoluteOffset + start + nbytes - 1) (by omega) (by omega)
      exact Or.inr (by omega)
  · intro fits place low high
    omega

lemma RowsOf.inside_iff {first count padded : Nat}
    (sized : t.nbytes = tensorNbytes t.typeId t.dimensions)
    (rows : RowsOf t first count padded region) :
    region.Inside t ↔ count = 0 ∨
      (first + count) * padded < t.dimensions.prod + t.blockElems := by
  obtain ⟨known, -, blocks, rfl, rfl⟩ := rows
  obtain ⟨pos, some⟩ := ggmlTypes_pos known
  dsimp only at pos some
  have bytes (n : Nat) : (first + count) * (blocks * t.blockBytes) ≤ n * t.blockBytes ↔
      (first + count) * blocks ≤ n := by
    rw [← Nat.mul_assoc, Nat.mul_le_mul_right_iff some]
  rw [Python.inside_iff (sized.trans (tensorNbytes_eq known)), ← blocks_le_iff pos,
    ← Nat.add_mul, bytes]
  refine or_congr_left' fun outside => ?_
  rw [Nat.mul_eq_zero, Nat.mul_eq_zero, or_iff_left (Nat.pos_iff_ne_zero.mp some)]
  refine or_iff_left fun none => outside ?_
  rw [none, Nat.mul_zero]
  exact Nat.zero_le _

lemma RowsOf.strides_iff {first count padded : Nat}
    (sized : t.nbytes = tensorNbytes t.typeId t.dimensions)
    (rows : RowsOf t first count padded region) :
    t.nbytes = some (t.rows * (padded / t.blockElems * t.blockBytes)) ↔
      t.dimensions.prod ≤ t.rows * padded ∧
        t.rows * padded < t.dimensions.prod + t.blockElems := by
  obtain ⟨known, -, blocks, rfl, -⟩ := rows
  obtain ⟨pos, some⟩ := ggmlTypes_pos known
  dsimp only at pos some
  rw [sized, tensorNbytes_eq known, Nat.mul_div_cancel _ pos, Option.some.injEq, ← Nat.mul_assoc,
    Nat.mul_left_inj (Nat.pos_iff_ne_zero.mp some), ← Nat.mul_assoc]
  generalize t.dimensions.prod = elems
  generalize t.rows * blocks = n
  generalize t.blockElems = block at pos
  rw [Nat.div_eq_iff pos]
  omega

lemma CallReads.inside_of_refuses (sized : t.nbytes = tensorNbytes t.typeId t.dimensions)
    (reads : CallReads t call region) (refuses : call.refuses = true) :
    region.Inside t ∧ ((call.rows t).1 + (call.rows t).2) * call.paddedRow t <
      t.dimensions.prod + t.blockElems := by
  obtain ⟨⟨full, rows, offset, le, -⟩, padded⟩ := reads
  obtain ⟨pos, -⟩ := ggmlTypes_pos rows.known
  have enough : ((call.rows t).1 + (call.rows t).2) * call.paddedRow t <
      t.dimensions.prod + t.blockElems := by
    rw [padded refuses, elements_eq, Nat.mul_comm t.rowLength]
    exact lt_add_of_le_of_pos (Nat.mul_le_mul_right _ rows.le) pos
  have whole := (rows.inside_iff sized).mpr (Or.inr enough)
  refine ⟨fun place low high => whole place ?_ ?_, enough⟩
  · rw [← offset]
    exact low
  · rw [← offset]
    omega

/-- What a call reads is inside of its tensor if and only if its rows, each with its padding, end
less than a block after the tensor's elements. The strides of the rows add up to the tensor's size
if and only if all rows do. -/
theorem reads_inside_iff (dataStart : Int) (record : Text × List Nat × Nat × Nat) (size : Nat)
    (call : ReadCall) (region : Region)
    (reads : call.run size (tensorInfo dataStart record) = .ok region) :
    let t := tensorInfo dataStart record
    (region.Inside t ↔ (call.rows t).2 = 0 ∨
      ((call.rows t).1 + (call.rows t).2) * call.paddedRow t < t.dimensions.prod + t.blockElems) ∧
    (t.nbytes = some (t.rows * (call.paddedRow t / t.blockElems * t.blockBytes)) ↔
      t.dimensions.prod ≤ t.rows * call.paddedRow t ∧
        t.rows * call.paddedRow t < t.dimensions.prod + t.blockElems) := by
  intro t
  have sized : t.nbytes = tensorNbytes t.typeId t.dimensions := rfl
  have calls := run_reads sized reads
  obtain ⟨full, rows, -, -, same⟩ := calls.rows
  refine ⟨?_, rows.strides_iff sized⟩
  cases refuses : call.refuses with
  | false => exact same refuses ▸ rows.inside_iff sized
  | true =>
    obtain ⟨inside, enough⟩ := calls.inside_of_refuses sized refuses
    exact iff_of_true inside (Or.inr enough)

/-- The first expert of two that have two rows of two blocks each. -/
theorem reads_inside_whole :
    let t := tensorInfo 64 (text "w", [512, 2, 2], 16, 0)
    (Region.Inside t ⟨64, 264⟩ ↔ ((ReadCall.routedExpert 0 0 none).rows t).2 = 0 ∨
      (((ReadCall.routedExpert 0 0 none).rows t).1 + ((ReadCall.routedExpert 0 0 none).rows t).2) *
        (ReadCall.routedExpert 0 0 none).paddedRow t < t.dimensions.prod + t.blockElems) ∧
    (t.nbytes = some (t.rows * ((ReadCall.routedExpert 0 0 none).paddedRow t / t.blockElems *
        t.blockBytes)) ↔
      t.dimensions.prod ≤ t.rows * (ReadCall.routedExpert 0 0 none).paddedRow t ∧
        t.rows * (ReadCall.routedExpert 0 0 none).paddedRow t <
          t.dimensions.prod + t.blockElems) :=
  reads_inside_iff 64 (text "w", [512, 2, 2], 16, 0) 1000 (.routedExpert 0 0 none) ⟨64, 264⟩
    (by decide +kernel)

/-- Two rows of 33 elements take three blocks by the size and four by the rows: the last block is
read from what follows the tensor. -/
theorem read_past_tensor :
    let t := tensorInfo 64 (text "w", [33, 2], 8, 0)
    t.nbytes = some 102 ∧ ReadCall.tensor.run 1000 t = .ok ⟨64, 136⟩ ∧
      ¬ Region.Inside t ⟨64, 136⟩ := by
  refine ⟨by decide, by decide +kernel, fun inside => ?_⟩
  have last := (inside 199 (by decide) (by decide)).2
  exact absurd last (by decide)

lemma mem_tensors {py : Builtins} {bytes : List Byte} {file : GGUFFile}
    (accepted : read py bytes = .ok file) (member : t ∈ file.tensors) :
    ∃ record, t = tensorInfo file.dataStart record := by
  unfold read at accepted
  split_ifs at accepted
  obtain ⟨⟨⟨version, metadata, records⟩, pos⟩, -, accepted⟩ := bind_ok.mp accepted
  obtain ⟨alignment, -, accepted⟩ := bind_ok.mp accepted
  obtain ⟨dataStart, -, accepted⟩ := bind_ok.mp accepted
  obtain rfl := pure_ok.mp accepted
  obtain ⟨record, -, rfl⟩ := List.mem_map.mp member
  exact ⟨record, rfl⟩

lemma ceil_mul (q : Nat) {d : Nat} (pos : 0 < d) : (q * d + d - 1) / d = q := by
  rw [Nat.add_sub_assoc pos, Nat.mul_comm, Nat.mul_add_div pos, Nat.div_eq_of_lt (by omega),
    Nat.add_zero]

lemma mathCeil_finite (units : Int) :
    mathCeil (.finite units) = .ok ((units.toNat + Double.one - 1) / Double.one) := rfl

lemma ceilDiv_mul {q d : Nat} (pos : 0 < d) (small : q < 2 ^ 53) : ceilDiv (q * d) d = .ok q := by
  rw [ceilDiv, Double.ofRatio_mul pos, Double.ofRatio_small small, mathCeil_finite,
    Int.toNat_natCast, ceil_mul q Double.one_pos]

/-- Of rows that are whole blocks nothing else is read. -/
theorem inside_of_whole {py : Builtins} {bytes : List Byte} {file : GGUFFile} {size blocks : Nat}
    (accepted : read py bytes = .ok file) (member : t ∈ file.tensors)
    (whole : t.rowLength = blocks * t.blockElems) (small : blocks < 2 ^ 53)
    (reads : call.run size t = .ok region) : region.Inside t := by
  obtain ⟨record, rfl⟩ := mem_tensors accepted member
  have sized : (tensorInfo file.dataStart record).nbytes = tensorNbytes
    (tensorInfo file.dataStart record).typeId (tensorInfo file.dataStart record).dimensions := rfl
  generalize tensorInfo file.dataStart record = t at *
  have calls := run_reads sized reads
  cases refuses : call.refuses with
  | true => exact (calls.inside_of_refuses sized refuses).1
  | false =>
    obtain ⟨full, rows, -, -, same⟩ := calls.rows
    obtain ⟨pos, -⟩ := ggmlTypes_pos rows.known
    have padded : call.paddedRow t = t.rowLength := by
      unfold ReadCall.paddedRow
      split_ifs
      · rfl
      · rw [whole, ceilDiv_mul pos small]
        rfl
    rw [same refuses]
    refine (rows.inside_iff sized).mpr (Or.inr ?_)
    rw [padded, elements_eq, Nat.mul_comm t.rowLength]
    exact lt_add_of_le_of_pos (Nat.mul_le_mul_right _ rows.le) pos

/-- A file with one tensor of four floats: its read stays in its sixteen bytes. -/
theorem inside_of_whole_f32 : ∃ file,
    read ⟨fun _ => none⟩ (Header.layout ⟨3, [], [⟨encodeUtf8 (text "w"), [4], 0, 0⟩]⟩ ++
      List.replicate 64 0) = .ok file ∧
    ∀ t ∈ file.tensors, ReadCall.tensor.run 121 t = .ok ⟨64, 16⟩ ∧ Region.Inside t ⟨64, 16⟩ := by
  have accepted : read ⟨fun _ => none⟩ (Header.layout
      ⟨3, [], [⟨encodeUtf8 (text "w"), [4], 0, 0⟩]⟩ ++ List.replicate 64 0) =
        .ok ⟨3, 1, 0, [], [⟨text "w", [4], 0, 0, 64, some 16⟩], 64, 32, 121⟩ := by decide +kernel
  refine ⟨_, accepted, fun t member => ?_⟩
  have reads : ReadCall.tensor.run 121 t = .ok ⟨64, 16⟩ := by
    obtain rfl := List.mem_singleton.mp member
    decide +kernel
  have whole : t.rowLength = 4 * t.blockElems := by
    obtain rfl := List.mem_singleton.mp member
    decide
  exact ⟨reads, inside_of_whole accepted member whole (by decide) reads⟩

end

end PocketMoE.Loader.Python
