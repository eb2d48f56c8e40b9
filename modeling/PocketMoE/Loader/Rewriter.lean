import PocketMoE.Loader.GgufWalkers
import PocketMoE.Loader.GgufWriter

/-!
# The rewriter of GGUF files

Model of `rewrite_gguf` (`make_routed_source_gguf.py`). The metadata and most tensors of a template are
copied; routed tensors are converted from an FP4 checkpoint. `_plan_rewrite` decides which ones and gives
them the type F16. The writer decides again, by the planned type and the name.
-/

namespace PocketMoE.Loader.Python
open PocketMoE.Lib

/-- `RoutedTensorSpec`. -/
structure RoutedTensorSpec where
  layer : Int
  role : Text
  sourceSuffix : Text

/-- `_routed_spec`. -/
def routedSpec (py : Builtins) (name : Text) : Option RoutedTensorSpec :=
  match name.splitOn 0x2E with
  | [blk, layer, role, weight] =>
    if blk ≠ text "blk" ∨ weight ≠ text "weight" then none
    else
      match py.int layer with
      | none => none
      | some layer =>
        if role = text "ffn_gate_exps" then some ⟨layer, role, text "w1"⟩
        else if role = text "ffn_down_exps" then some ⟨layer, role, text "w2"⟩
        else if role = text "ffn_up_exps" then some ⟨layer, role, text "w3"⟩
        else none
  | _ => none

/-- The arguments of a rewrite, after `_parse_layers` and the split of the roles. -/
structure RewriteArgs where
  layers : Option (List Int)
  roles : Option (List Text)
  maxRoutedTensors : Option Int
  rowChunk : Int
  copyChunkBytes : Int

/-- `_selected_routed_tensor`. -/
def selectedRoutedTensor (py : Builtins) (args : RewriteArgs) (name : Text) (selectedSoFar : Nat) :
    Bool :=
  match routedSpec py name with
  | none => false
  | some spec =>
    (args.layers.all fun layers => spec.layer ∈ layers) &&
      (args.roles.all fun roles => spec.role ∈ roles) &&
      (args.maxRoutedTensors.all fun maxCount => (selectedSoFar : Int) < maxCount)

/-! ## The plan -/

/-- `RewritePlan`; in both dictionaries the entry that was set last comes first. -/
structure RewritePlan where
  typeIds : List (Text × Nat)
  nbytes : List (Text × Nat)
  totalSize : Int
  convertedRoutedTensors : Nat
  convertedRoutedBytes : Nat

/-- `GGUFTensorInfo.elements`. -/
def GGUFTensorInfo.elements (tensor : GGUFTensorInfo) : Nat := tensor.dimensions.prod

/-- `align_up`, in a writer. -/
def alignUpWrite (value alignment : Int) : Except WriteError Int :=
  match alignUp value alignment with
  | .error e => .error (.reading e)
  | .ok aligned => .ok aligned

/-- The loop of `_plan_rewrite`. -/
def planTensors (py : Builtins) (args : RewriteArgs) (alignment : Int) :
    List GGUFTensorInfo → RewritePlan → Except WriteError RewritePlan
  | [], plan => .ok plan
  | tensor :: tensors, plan =>
    if selectedRoutedTensor py args tensor.name plan.convertedRoutedTensors then do
      let nbytes := tensor.elements * 2
      let padded ← alignUpWrite nbytes alignment
      planTensors py args alignment tensors {
        typeIds := (tensor.name, 1) :: plan.typeIds
        nbytes := (tensor.name, nbytes) :: plan.nbytes
        totalSize := plan.totalSize + padded
        convertedRoutedTensors := plan.convertedRoutedTensors + 1
        convertedRoutedBytes := plan.convertedRoutedBytes + nbytes }
    else
      match tensor.nbytes with
      | none => .error .valueError
      | some nbytes => do
        let padded ← alignUpWrite nbytes alignment
        planTensors py args alignment tensors {
          typeIds := (tensor.name, tensor.typeId) :: plan.typeIds
          nbytes := (tensor.name, nbytes) :: plan.nbytes
          totalSize := plan.totalSize + padded
          convertedRoutedTensors := plan.convertedRoutedTensors
          convertedRoutedBytes := plan.convertedRoutedBytes }

/-- `_plan_rewrite`. -/
def planRewrite (py : Builtins) (args : RewriteArgs) (ds4 : GGUFFile) :
    Except WriteError RewritePlan :=
  planTensors py args ds4.alignment ds4.tensors ⟨[], [], 0, 0, 0⟩

/-- `d[name]`. -/
def getKey {α : Type} (d : List (Text × α)) (name : Text) : Except WriteError α :=
  match d.lookup name with
  | none => .error .keyError
  | some value => .ok value

/-- The loop over the offsets. -/
def planOffsets (alignment : Int) (nbytes : List (Text × Nat)) :
    List GGUFTensorInfo → Int → List (Text × Int) → Except WriteError (List (Text × Int))
  | [], _, offsets => .ok offsets
  | tensor :: tensors, off, offsets => do
    let size ← getKey nbytes tensor.name
    let padded ← alignUpWrite size alignment
    planOffsets alignment nbytes tensors (off + padded) ((tensor.name, off) :: offsets)

/-! ## The converted data -/

/-- A tensor of the checkpoint: its type, its shape and its bytes. -/
structure SafeTensor where
  dtype : Text
  shape : List Nat
  bytes : List Byte

/-- What the rewriter gets from elsewhere: `SafeTensorIndex.tensor_pair` with the bytes, and for an FP4
number and the byte of its scale what `numpy` makes of it as an F16. -/
structure Source where
  tensorPair : Text → Except WriteError (SafeTensor × SafeTensor)
  f16 : Fin 16 → Byte → Fin (2 ^ 16)
  -- `str` of a number
  str : Int → Text

/-- `_source_weight_name`. -/
def sourceWeightName (source : Source) (spec : RoutedTensorSpec) (expert : Nat) : Text :=
  text "layers." ++ source.str spec.layer ++ text ".ffn.experts." ++ source.str expert ++ text "." ++
    spec.sourceSuffix ++ text ".weight"

/-- A row of `_iter_dequant_fp4_f16_chunks`: the low half of a byte comes first. -/
def dequantRow (source : Source) (inDim : Nat) (weights scales : List Byte) : List Byte :=
  (List.range inDim).flatMap fun column =>
    let raw := (weights.getD (column / 2) 0).1
    let nibble : Fin 16 := if column % 2 = 0 then Fin.ofNat 16 raw else Fin.ofNat 16 (raw / 16)
    leBytes 2 (source.f16 nibble (scales.getD (column / 32) 0))

/-- The rows that `_iter_dequant_fp4_f16_chunks` yields. -/
def dequantRows (source : Source) (weights scales : List Byte) (rows inDim : Nat) :
    Except WriteError (List (List Byte)) :=
  let packedCols := inDim / 2
  let scaleCols := inDim / 32
  if packedCols = 0 ∨ scaleCols = 0 then .error .zeroDivision
  else
    let totalRows := weights.length / packedCols
    if scales.length / scaleCols ≠ totalRows then .error .valueError
    else if totalRows < rows then .error .valueError
    else if weights.length ≠ totalRows * packedCols ∨ scales.length ≠ totalRows * scaleCols then
      .error .valueError
    else .ok ((List.range rows).map fun row =>
      dequantRow source inDim ((weights.drop (row * packedCols)).take packedCols)
        ((scales.drop (row * scaleCols)).take scaleCols))

/-- The slices `rows[start:start + chunk]`, for `start` in `range(0, len(rows), chunk)`. -/
def rowChunks (rows : List (List Byte)) (rowChunk : Int) : List (List Byte) :=
  let chunk := (max 1 rowChunk).toNat
  (List.range ((rows.length + chunk - 1) / chunk)).map fun k =>
    ((rows.drop (k * chunk)).take chunk).flatten

/-- The rows of an expert. -/
def expertRows (source : Source) (spec : RoutedTensorSpec) (inDim outDim expert : Nat) :
    Except WriteError (List (List Byte)) := do
  let (weight, scale) ← source.tensorPair (sourceWeightName source spec expert)
  if weight.dtype ≠ text "I8" ∨ weight.shape ≠ [outDim, inDim / 2] then .error .valueError
  else if scale.dtype ≠ text "F8_E8M0" ∨ scale.shape ≠ [outDim, inDim / 32] then .error .valueError
  else dequantRows source weight.bytes scale.bytes outDim inDim

/-- The loop of `_write_routed_tensor_f16`, which counts what it writes. -/
def writeExperts (source : Source) (spec : RoutedTensorSpec) (inDim outDim : Nat) (rowChunk : Int) :
    List Nat → Nat → Write Nat
  | [], written => pure written
  | expert :: experts, written => do
    let rows ← expertRows source spec inDim outDim expert
    let chunks := rowChunks rows rowChunk
    writeAll fwrite chunks
    writeExperts source spec inDim outDim rowChunk experts (written + (chunks.map List.length).sum)

/-- `_write_routed_tensor_f16`. -/
def writeRoutedTensorF16 (py : Builtins) (source : Source) (name : Text) (dimensions : List Nat)
    (rowChunk : Int) : Write Unit :=
  match routedSpec py name, dimensions with
  | some spec, [inDim, outDim, nExperts] =>
    if inDim % 32 ≠ 0 then throw .valueError
    else do
      let written ← writeExperts source spec inDim outDim rowChunk (List.range nExperts) 0
      if written ≠ dimensions.prod * 2 then throw .runtimeError else pure ()
  | _, _ => throw .valueError

/-! ## The rewrite -/

/-- `os.pread`, which reads so many bytes at most. -/
def pread (template : List Byte) (size pos : Nat) : List Byte :=
  (template.drop pos).take (min size 0x7FFFF000)

/-- `_copy_bytes`, in as many rounds as there are bytes at most; with a chunk of no bytes it has no
end. -/
def copyBytes (template : List Byte) (chunkBytes : Int) : Nat → Nat → Nat → Write Unit
  | _, 0, _ => pure ()
  | 0, _ + 1, _ => throw .runtimeError
  | rounds + 1, remaining, pos =>
    let size := min remaining chunkBytes.toNat
    let data := pread template size pos
    if size = 0 ∨ data.length ≠ size then throw .eof
    else do
      fwrite data
      copyBytes template chunkBytes rounds (remaining - size) (pos + size)

/-- The data of a tensor, as the writer decides. -/
def writeTensor (py : Builtins) (source : Source) (args : RewriteArgs) (template : List Byte)
    (typeIds : List (Text × Nat)) (tensor : GGUFTensorInfo) : Write Unit := do
  let typeId ← getKey typeIds tensor.name
  if typeId = 1 ∧ (routedSpec py tensor.name).isSome then
    writeRoutedTensorF16 py source tensor.name tensor.dimensions args.rowChunk
  else
    match tensor.nbytes with
    | none => throw .valueError
    | some nbytes =>
      if tensor.absoluteOffset < 0 then throw .eof
      else copyBytes template args.copyChunkBytes nbytes nbytes tensor.absoluteOffset.toNat

/-- `_write_string`. -/
def writeString (s : Text) : Write Unit := do
  let data ← encodeStrict s
  writeStruct 8 data.length
  fwrite data

/-- A round of `_write_tensor_records`. -/
def writeRecord (typeIds : List (Text × Nat)) (offsets : List (Text × Int)) (tensor : GGUFTensorInfo) :
    Write Unit := do
  writeString tensor.name
  writeStruct 4 tensor.dimensions.length
  writeAll (fun dim : Nat => writeStruct 8 dim) tensor.dimensions
  let typeId ← getKey typeIds tensor.name
  writeStruct 4 typeId
  let offset ← getKey offsets tensor.name
  writeStruct 8 offset

/-- An error of a reader, in the writer. -/
def orReading {α : Type} : Except PyError α → Except WriteError α
  | .error e => .error (.reading e)
  | .ok a => .ok a

/-- `rewrite_gguf`: the bytes of the output. -/
def rewriteGguf (py : Builtins) (source : Source) (args : RewriteArgs) (template : List Byte) :
    Except WriteError (List Byte) := do
  let allowed := [text "ffn_gate_exps", text "ffn_down_exps", text "ffn_up_exps"]
  if args.roles.any (fun roles => roles.any (· ∉ allowed)) then .error .valueError
  else
    let ds4 ← orReading (read py template)
    let plan ← planRewrite py args ds4
    let metadataRaw ← orReading (metadataRawBytes template ds4.metadataCount)
    let offsets ← planOffsets ds4.alignment plan.nbytes ds4.tensors 0 []
    let write : Write Unit := do
      fwrite magic
      writeStruct 4 ds4.version
      writeStruct 8 ds4.tensorCount
      writeStruct 8 ds4.metadataCount
      fwrite metadataRaw
      writeAll (writeRecord plan.typeIds offsets) ds4.tensors
      padFile ds4.alignment
      writeAll (fun tensor => do
        writeTensor py source args template plan.typeIds tensor
        padFile ds4.alignment) ds4.tensors
    let (_, out) ← write []
    return out

end PocketMoE.Loader.Python
