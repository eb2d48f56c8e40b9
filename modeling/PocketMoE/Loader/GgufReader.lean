import Mathlib.Algebra.Group.Int.Defs
import PocketMoE.Loader.GgufFormat

/-!
# The GGUF reader in Python

Model of `GGUFReader.read` (`reader.py`). Numbers are integers of any size; a file is its bytes, read
from a position that `seek` may move behind the end. `int` of a text is a parameter (`Builtins`); a
float is kept as its bits.
-/

namespace PocketMoE.Loader.Python
open PocketMoE.Lib

/-- The exceptions. -/
inductive PyError where
  | notGguf
  | eof
  | unsupportedType (type : Nat)
  | nestedArray
  | zeroDivision
  | typeError
  | valueError
  | overflow
deriving DecidableEq

/-- `int` of a `str`. -/
structure Builtins where
  int : Text → Option Int

/-- `_METADATA_TYPES`. -/
inductive MetadataType where
  | number (kind : Kind)
  | string
  | array
deriving DecidableEq

/-- `_METADATA_TYPES`. -/
def metadataTypes : Nat → Option MetadataType
  | 0 => some (.number .uint8)
  | 1 => some (.number .int8)
  | 2 => some (.number .uint16)
  | 3 => some (.number .int16)
  | 4 => some (.number .uint32)
  | 5 => some (.number .int32)
  | 6 => some (.number .float32)
  | 7 => some (.number .bool)
  | 8 => some .string
  | 9 => some .array
  | 10 => some (.number .uint64)
  | 11 => some (.number .int64)
  | 12 => some (.number .float64)
  | _ => none

/-- `GGML_TYPES`, without the names. -/
def ggmlTypes : Nat → Option (Nat × Nat)
  | 0 => some (1, 4)
  | 1 => some (1, 2)
  | 2 => some (32, 18)
  | 3 => some (32, 20)
  | 6 => some (32, 22)
  | 7 => some (32, 24)
  | 8 => some (32, 34)
  | 9 => some (32, 40)
  | 10 => some (256, 84)
  | 11 => some (256, 110)
  | 12 => some (256, 144)
  | 13 => some (256, 176)
  | 14 => some (256, 210)
  | 15 => some (256, 292)
  | 16 => some (256, 66)
  | 17 => some (256, 74)
  | 18 => some (256, 98)
  | 19 => some (256, 50)
  | 20 => some (32, 18)
  | 21 => some (256, 110)
  | 22 => some (256, 82)
  | 23 => some (256, 136)
  | 24 => some (1, 1)
  | 25 => some (1, 2)
  | 26 => some (1, 4)
  | 27 => some (1, 8)
  | 28 => some (1, 8)
  | 29 => some (256, 56)
  | 30 => some (1, 2)
  | _ => none

lemma ggmlTypes_pos {typeId : Nat} {block : Nat × Nat} (known : ggmlTypes typeId = some block) :
    1 ≤ block.1 ∧ 1 ≤ block.2 := by
  unfold ggmlTypes at known
  split at known
  all_goals first
    | exact (Option.some.inj known) ▸ (by decide)
    | exact absurd known nofun

/-- A value of the metadata; `summary` is a `GGUFArraySummary`. -/
inductive PyValue where
  | int (n : Int)
  | float (kind : Kind) (raw : Nat)
  | bool (b : Bool)
  | str (s : Text)
  | summary (itemType length : Nat)
deriving DecidableEq

/-- `GGUFTensorInfo`. -/
structure GGUFTensorInfo where
  name : Text
  dimensions : List Nat
  typeId : Nat
  offset : Nat
  absoluteOffset : Int
  nbytes : Option Nat
deriving DecidableEq

/-- `GGUFFile`, without its path. -/
structure GGUFFile where
  version : Nat
  tensorCount : Nat
  metadataCount : Nat
  -- the entry that was set last comes first
  metadata : List (Text × PyValue)
  tensors : List GGUFTensorInfo
  dataStart : Int
  alignment : Int
  size : Nat
deriving DecidableEq

/-- A number in two's complement. -/
def twosComplement (width raw : Nat) : Int :=
  if raw < 2 ^ (8 * width - 1) then raw else (raw : Int) - 2 ^ (8 * width)

/-- `struct.unpack`, for the format of a kind. -/
def unpack (kind : Kind) (raw : Nat) : PyValue :=
  match kind with
  | .uint8 | .uint16 | .uint32 | .uint64 => .int raw
  | .int8 | .int16 | .int32 | .int64 => .int (twosComplement kind.width raw)
  | .float32 | .float64 => .float kind raw
  | .bool => .bool (raw ≠ 0)

/-- `int` of a float with some bits for the exponent and the fraction: it cuts off the fraction. -/
def truncFloat (exponentBits fractionBits raw : Nat) : Except PyError Int :=
  let fraction := raw % 2 ^ fractionBits
  let exponent := raw / 2 ^ fractionBits % 2 ^ exponentBits
  let bias := 2 ^ (exponentBits - 1) - 1
  if exponent = 2 ^ exponentBits - 1 then .error (if fraction = 0 then .overflow else .valueError)
  else
    let magnitude :=
      if exponent = 0 then 0
      else if bias + fractionBits ≤ exponent then
        (2 ^ fractionBits + fraction) * 2 ^ (exponent - bias - fractionBits)
      else (2 ^ fractionBits + fraction) / 2 ^ (bias + fractionBits - exponent)
    .ok (if raw / 2 ^ (fractionBits + exponentBits) = 0 then magnitude else -magnitude)

/-- `int`. -/
def toInt (py : Builtins) : PyValue → Except PyError Int
  | .int n => .ok n
  | .float .float32 raw => truncFloat 8 23 raw
  | .float _ raw => truncFloat 11 52 raw
  | .bool b => .ok b.toNat
  | .str s =>
    match py.int s with
    | some n => .ok n
    | none => .error .valueError
  | .summary .. => .error .typeError

/-- `align_up`. -/
def alignUp (value alignment : Int) : Except PyError Int :=
  if alignment = 0 then .error .zeroDivision
  else .ok ((value + alignment - 1).fdiv alignment * alignment)

/-- `tensor_nbytes`. -/
def tensorNbytes (typeId : Nat) (dimensions : List Nat) : Option Nat :=
  match ggmlTypes typeId with
  | none => none
  | some (blockElems, blockBytes) =>
    let total := dimensions.prod
    let blocks := (total + blockElems - 1) / blockElems
    some (blocks * blockBytes)

/-! ## Reading -/

section
variable (bytes : List Byte)

/-- `f.read`, for exactly so many bytes. -/
def readExactly (n : Nat) : Read PyError (List Byte) := fun pos =>
  let data := (bytes.drop pos).take n
  if data.length ≠ n then .error .eof else .ok (data, pos + n)

/-- `_read_struct`, for an unsigned format of some bytes. -/
def readStruct (width : Nat) : Read PyError Nat := do
  let data ← readExactly bytes width
  return leNat data

/-- `_read_string`. -/
def readString : Read PyError Text := do
  let n ← readStruct bytes 8
  let data ← readExactly bytes n
  return decodeUtf8 data

/-- `f.seek(n, os.SEEK_CUR)`; a position has 63 bits. -/
def seek (n : Nat) : Read PyError Unit := fun pos =>
  if 2 ^ 63 ≤ pos + n then .error .overflow else .ok ((), pos + n)

/-- A round of the loop over the strings of an array. -/
def skipString : Read PyError Unit := do
  let n ← readStruct bytes 8
  seek n

/-- `_skip_array`. -/
def skipArray (itemType length : Nat) : Read PyError Unit :=
  match metadataTypes itemType with
  | none => throw (.unsupportedType itemType)
  | some .string => do
    let _ ← readMany (skipString bytes) length
    return ()
  | some .array => throw .nestedArray
  | some (.number kind) => seek (length * kind.width)

/-- `_read_value`, for an array. -/
def readSummary : Read PyError PyValue := do
  let itemType ← readStruct bytes 4
  let length ← readStruct bytes 8
  skipArray bytes itemType length
  return .summary itemType length

/-- `_read_value`. -/
def readValue (valueType : Nat) : Read PyError PyValue :=
  match metadataTypes valueType with
  | none => throw (.unsupportedType valueType)
  | some .string => do
    let s ← readString bytes
    return .str s
  | some .array => readSummary bytes
  | some (.number kind) => do
    let raw ← readStruct bytes kind.width
    return unpack kind raw

/-- A round of `_read_metadata`. -/
def readEntry : Read PyError (Text × PyValue) := do
  let key ← readString bytes
  let valueType ← readStruct bytes 4
  let value ← readValue bytes valueType
  return (key, value)

/-- A round of `_read_tensor_records`. -/
def readTensorRecord : Read PyError (Text × List Nat × Nat × Nat) := do
  let name ← readString bytes
  let nDims ← readStruct bytes 4
  let dimensions ← readMany (readStruct bytes 8) nDims
  let typeId ← readStruct bytes 4
  let offset ← readStruct bytes 8
  return (name, dimensions, typeId, offset)

/-- The version, the metadata and the records. -/
def readHeader :
    Read PyError (Nat × List (Text × PyValue) × List (Text × List Nat × Nat × Nat)) := do
  let version ← readStruct bytes 4
  let tensorCount ← readStruct bytes 8
  let metadataCount ← readStruct bytes 8
  let entries ← readMany (readEntry bytes) metadataCount
  let records ← readMany (readTensorRecord bytes) tensorCount
  return (version, entries.reverse, records)

end

/-- A tensor, for the record that was read. -/
def tensorInfo (dataStart : Int) (record : Text × List Nat × Nat × Nat) : GGUFTensorInfo where
  name := record.1
  dimensions := record.2.1
  typeId := record.2.2.1
  offset := record.2.2.2
  absoluteOffset := dataStart + record.2.2.2
  nbytes := tensorNbytes record.2.2.1 record.2.1

/-- `GGUFReader.read`. -/
def read (py : Builtins) (bytes : List Byte) : Except PyError GGUFFile := do
  if bytes.take 4 ≠ magic then .error .notGguf
  else
    let ((version, metadata, records), pos) ← readHeader bytes 4
    let alignment ← toInt py ((metadata.lookup (text "general.alignment")).getD (.int 32))
    let dataStart ← alignUp pos alignment
    return { version, tensorCount := records.length, metadataCount := metadata.length, metadata,
             tensors := records.map (tensorInfo dataStart), dataStart, alignment,
             size := bytes.length }

end PocketMoE.Loader.Python
