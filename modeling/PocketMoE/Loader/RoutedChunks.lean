import Mathlib.Data.List.Basic
import PocketMoE.Lib.Bytes
import PocketMoE.Lib.Except

/-!
# Routed tensors in chunks of rows

Model of `_iter_dequant_fp4_f16_chunks` of `make_routed_source_gguf.py`. The float16 of an entry of
the table and a scale is a parameter: it is computed for each number alone.

A chunk ends at a row of the tensor, not at the limit, so the last chunk goes on after the limit
unless the chunks end there (`chunk_rows_iff`).
-/

namespace PocketMoE.Loader.Python
open PocketMoE.Lib

/-- The exceptions of the generator. -/
inductive ChunkError where
  | zeroDivision
  | rowCount
  | tooFewRows
  | reshape
  | shapes
deriving DecidableEq

section

variable {α : Type*} (value : Nat → Byte → α)

/-- A row of an array of bytes with some columns. -/
def rowBytes (bytes : List Byte) (cols row : Nat) : List Byte := (bytes.drop (row * cols)).take cols

/-- A row of `out`: the even columns have the low halves of the bytes, the odd ones the high halves,
and a scale is repeated 32 times. -/
def chunkRow (weight scale : List Byte) (inDim row : Nat) : List α :=
  (List.range inDim).map fun j =>
    let raw := (rowBytes weight (inDim / 2) row).getD (j / 2) 0
    let scale := (rowBytes scale (inDim / 32) row).getD (j / 32) 0
    value (if j % 2 = 0 then raw.val &&& 0x0F else raw.val >>> 4) scale

/-- A chunk: the rows from one to another. -/
def chunkRows (weight scale : List Byte) (inDim rowStart rowEnd : Nat) : List (List α) :=
  (List.range' rowStart (rowEnd - rowStart)).map (chunkRow value weight scale inDim)

/-- `range(0, stop, step)` -/
def rangeStep (stop step : Nat) : List Nat := (List.range ((stop + step - 1) / step)).map (· * step)

/-- `rows_to_emit` -/
def rowsToEmit (rows : Nat) (rowLimit : Option Int) : Int :=
  match rowLimit with
  | none => rows
  | some limit => min rows limit

/-- `_iter_dequant_fp4_f16_chunks`: all that it yields. -/
def iterDequantFp4F16Chunks (weight scale : List Byte) (rows inDim : Nat) (rowChunk : Int)
    (rowLimit : Option Int) : Except ChunkError (List (List (List α))) :=
  let packedCols := inDim / 2
  let scaleCols := inDim / 32
  if packedCols = 0 ∨ scaleCols = 0 then .error .zeroDivision
  else
    let totalRows := weight.length / packedCols
    if scale.length / scaleCols ≠ totalRows then .error .rowCount
    else if totalRows < rows then .error .tooFewRows
    else if weight.length ≠ totalRows * packedCols ∨ scale.length ≠ totalRows * scaleCols then
      .error .reshape
    else
      let rowChunk := (max 1 rowChunk).toNat
      (rangeStep (rowsToEmit rows rowLimit).toNat rowChunk).mapM fun rowStart =>
        let rowEnd := min rows (rowStart + rowChunk)
        if inDim % 32 ≠ 0 then .error .shapes
        else .ok (chunkRows value weight scale inDim rowStart rowEnd)

variable {value} {weight scale : List Byte} {rows inDim : Nat} {rowChunk : Int}
  {rowLimit : Option Int} {chunks : List (List (List α))}

lemma chunkRows_append {a b c : Nat} (le : a ≤ b) (le' : b ≤ c) :
    chunkRows value weight scale inDim a b ++ chunkRows value weight scale inDim b c =
      chunkRows value weight scale inDim a c := by
  have last : b = a + (b - a) := by omega
  have all : c - a = (b - a) + (c - b) := by omega
  unfold chunkRows
  rw [← List.map_append, all, ← List.range'_append_1, ← last]

lemma flatten_chunks (rows chunk n : Nat) :
    ((List.range n).map fun k =>
        chunkRows value weight scale inDim (k * chunk) (min rows (k * chunk + chunk))).flatten =
      chunkRows value weight scale inDim 0 (min rows (n * chunk)) := by
  induction n with
  | zero => rw [Nat.zero_mul, Nat.min_zero]; rfl
  | succ n ih =>
    rw [List.range_succ, List.map_append, List.flatten_append, ih, List.map_singleton,
      List.flatten_singleton, ← Nat.succ_mul]
    rcases Nat.le_total rows (n * chunk) with past | before
    · have none : rows ≤ (n + 1) * chunk := past.trans (Nat.mul_le_mul_right _ n.le_succ)
      have empty : chunkRows value weight scale inDim (n * chunk) rows = [] := by
        unfold chunkRows
        rw [Nat.sub_eq_zero_of_le past, List.range'_zero, List.map_nil]
      rw [Nat.min_eq_left past, Nat.min_eq_left none, empty, List.append_nil]
    · rw [Nat.min_eq_right before, chunkRows_append (Nat.zero_le _)]
      exact Nat.le_min.mpr ⟨before, Nat.mul_le_mul_right _ n.le_succ⟩

lemma chunkRows_length (n : Nat) :
    (chunkRows value weight scale inDim 0 n).length = n := by
  rw [chunkRows, List.length_map, List.length_range', Nat.sub_zero]

lemma chunkRows_take {n : Nat} (le : n ≤ rows) :
    (chunkRows value weight scale inDim 0 rows).take n =
      chunkRows value weight scale inDim 0 n := by
  rw [← chunkRows_append (Nat.zero_le n) le, List.take_left' (chunkRows_length n)]

lemma chunks_eq
    (yields : iterDequantFp4F16Chunks value weight scale rows inDim rowChunk rowLimit =
      .ok chunks) :
    chunks = (rangeStep (rowsToEmit rows rowLimit).toNat (max 1 rowChunk).toNat).map fun rowStart =>
      chunkRows value weight scale inDim rowStart
        (min rows (rowStart + (max 1 rowChunk).toNat)) := by
  unfold iterDequantFp4F16Chunks at yields
  dsimp only at yields
  split_ifs at yields with division count few reshape shapes
  · cases starts : rangeStep (rowsToEmit rows rowLimit).toNat (max 1 rowChunk).toNat with
    | nil =>
      rw [starts] at yields
      cases yields
      rfl
    | cons =>
      rw [starts] at yields
      cases yields
  · exact (Except.ok.inj (List.mapM_pure.symm.trans yields)).symm

/-- The rows that are yielded are those of the limit if and only if the chunks end at the limit or
at the last row. -/
theorem chunk_rows_iff
    (yields : iterDequantFp4F16Chunks value weight scale rows inDim rowChunk rowLimit =
      .ok chunks) :
    chunks.flatten = (chunkRows value weight scale inDim 0 rows).take
        (rowsToEmit rows rowLimit).toNat ↔
      (rowsToEmit rows rowLimit).toNat = rows ∨
        (max 1 rowChunk).toNat ∣ (rowsToEmit rows rowLimit).toNat := by
  have le : (rowsToEmit rows rowLimit).toNat ≤ rows := by
    unfold rowsToEmit
    cases rowLimit with
    | none => exact le_rfl
    | some limit => exact Int.toNat_le.mpr (Int.min_le_left ..)
  have pos : 0 < (max 1 rowChunk).toNat := by omega
  rw [chunks_eq yields, rangeStep, List.map_map, Function.comp_def, flatten_chunks,
    chunkRows_take le]
  generalize (rowsToEmit rows rowLimit).toNat = emit at le
  generalize (max 1 rowChunk).toNat = chunk at pos
  have lower := Nat.div_add_mod (emit + chunk - 1) chunk
  have upper := Nat.mod_lt (emit + chunk - 1) pos
  constructor
  · intro same
    have lengths := congrArg List.length same
    rw [chunkRows_length, chunkRows_length] at lengths
    rcases min_choice rows ((emit + chunk - 1) / chunk * chunk) with whole | cut
    · exact Or.inl (lengths.symm.trans whole)
    · exact Or.inr ⟨_, (lengths.symm.trans cut).trans (Nat.mul_comm ..)⟩
  · rintro (whole | ⟨n, rfl⟩)
    · rw [whole, Nat.min_eq_left]
      rw [← whole, Nat.mul_comm]
      omega
    · have blocks : (chunk * n + chunk - 1) / chunk = n := by
        rw [Nat.add_sub_assoc pos, Nat.mul_add_div pos, Nat.div_eq_of_lt (by omega), Nat.add_zero]
      rw [blocks, Nat.mul_comm n, Nat.min_eq_right le]

end

/-- Two rows in one chunk. -/
theorem chunk_rows_all :
    [chunkRows (fun n _ => n) (List.replicate 32 0) [127, 127] 32 0 2].flatten =
        (chunkRows (fun n _ => n) (List.replicate 32 0) [127, 127] 32 0 2).take
          (rowsToEmit 2 none).toNat ↔
      (rowsToEmit 2 none).toNat = 2 ∨ (max 1 8 : Int).toNat ∣ (rowsToEmit 2 none).toNat :=
  chunk_rows_iff (by decide +kernel :
    iterDequantFp4F16Chunks (fun n _ => n) (List.replicate 32 0) [127, 127] 2 32 8 none = _)

/-- The limit is one row, and a chunk has both. -/
theorem limit_passed :
    iterDequantFp4F16Chunks (fun n _ => n) (List.replicate 32 0) [127, 127] 2 32 8 (some 1) =
        .ok [chunkRows (fun n _ => n) (List.replicate 32 0) [127, 127] 32 0 2] ∧
      [chunkRows (fun n _ => n) (List.replicate 32 0) [127, 127] 32 0 2].flatten.length ≠
        min 2 1 := by
  refine ⟨by decide +kernel, by decide +kernel⟩

end PocketMoE.Loader.Python
