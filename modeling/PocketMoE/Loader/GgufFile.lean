import Mathlib.Algebra.Group.Int.Defs
import PocketMoE.Loader.GgufFormat
import PocketMoE.Loader.Mapped

/-!
# The GGUF parser of the C++ engine

Model of `GGUFFile::parse` (`gguf_reader.cpp`) with 64-bit numbers as natural numbers. `Arith.wrapping`
is the arithmetic of the code. With `Arith.exact` the same parser stops where a number would not fit
into 64 bits, so that all it computes is what natural numbers give.

What would be undefined is a result of its own: a read behind the end of the mapped file and a division
by zero. Exceptions that are thrown for want of memory are left out; a length that no `std::string` or
`std::vector` can have is a `std::length_error`.
-/

namespace PocketMoE.Loader
open PocketMoE.Lib

/-- The exceptions. -/
inductive GgufError where
  | pastEnd
  | stringPastEnd
  | badMagic
  | unsupportedVersion (version : Nat)
  | unsupportedArrayElementType (type : Nat)
  | unsupportedValueType (type : Nat)
  | tensorPastEnd (name : List Byte)
  | lengthError
deriving DecidableEq

/-- How the parser stops without a result. -/
inductive Stop where
  | exception (e : GgufError)
  | outOfBounds
  | divisionByZero
  | wrapped
deriving DecidableEq

/-- The arithmetic of `uint64_t`, or of natural numbers as long as they fit. -/
inductive Arith where
  | wrapping
  | exact
deriving DecidableEq

def Arith.add (A : Arith) (a b : Nat) : Except Stop Nat :=
  match A with
  | .wrapping => .ok ((a + b) % 2 ^ 64)
  | .exact => if a + b < 2 ^ 64 then .ok (a + b) else .error .wrapped

def Arith.sub (A : Arith) (a b : Nat) : Except Stop Nat :=
  match A with
  | .wrapping => .ok ((a + (2 ^ 64 - b)) % 2 ^ 64)
  | .exact => if b ≤ a then .ok (a - b) else .error .wrapped

def Arith.mul (A : Arith) (a b : Nat) : Except Stop Nat :=
  match A with
  | .wrapping => .ok (a * b % 2 ^ 64)
  | .exact => if a * b < 2 ^ 64 then .ok (a * b) else .error .wrapped

/-! ## Values -/

/-- `DType`. -/
inductive DType where
  | f32
  | f16
  | bf16
  | q8_0
  | q2K
  | iq2Xxs
  | iq1M
  | unknown
deriving DecidableEq

/-- `MetadataValue`. Of floats and vectors the numbers are kept as they were read. -/
inductive MetadataValue where
  | i64 (n : Int)
  | u64 (n : Nat)
  | f64 (kind : Kind) (raw : Nat)
  | bool (b : Bool)
  | string (s : List Byte)
  | vector (kind : Kind) (items : List Nat)
  | strings (items : List (List Byte))
deriving DecidableEq

/-- `metadata_`; of several entries with one key, the first one here is the last one set. -/
abbrev Metadata := List (List Byte × MetadataValue)

/-- `GGUFTensorInfo`. -/
structure GgufTensorInfo where
  name : List Byte
  shape : List Nat
  ggmlType : Nat
  dtype : DType
  offset : Nat
  absoluteOffset : Nat := 0
  nbytes : Nat
deriving DecidableEq

/-- `GGUFFile`, parsed. -/
structure GgufFile where
  version : Nat
  alignment : Nat
  dataStart : Nat
  metadata : Metadata
  tensors : List GgufTensorInfo
deriving DecidableEq

/-- `kGGUFMagic`. -/
def kGgufMagic : Nat := 0x46554747

/-- `std::vector::max_size` for elements of a size. -/
def vectorMaxSize (elementSize : Nat) : Nat := (2 ^ 63 - 1) / elementSize

/-- The bounds of the vectors that are reserved; `std::vector<bool>` counts bits. -/
def vectorCapacity : Capacity where
  numbers
    | .bool => 2 ^ 63 - 64
    | _ => vectorMaxSize 8
  strings := vectorMaxSize 32
  tensors := vectorMaxSize 88

/-- A number in two's complement. -/
def signed (width raw : Nat) : Int :=
  if raw < 2 ^ (8 * width - 1) then raw else (raw : Int) - 2 ^ (8 * width)

/-- The value of a number that was read (`read_metadata_value`, the cases of numbers). -/
def Kind.metadataValue (kind : Kind) (raw : Nat) : MetadataValue :=
  match kind with
  | .uint8 | .uint16 | .uint32 | .uint64 => .u64 raw
  | .int8 | .int16 | .int32 | .int64 => .i64 (signed kind.width raw)
  | .float32 | .float64 => .f64 kind raw
  | .bool => .bool (raw ≠ 0)

/-- `metadata_u64`. -/
def metadataU64 (metadata : Metadata) (key : List Byte) : Option Nat :=
  match metadata.lookup key with
  | some (.u64 n) => some n
  | some (.i64 n) => if 0 ≤ n then some n.toNat else none
  | _ => none

/-! ## Reading -/

/-- `std::memcpy` from the mapped file. -/
def MappedFile.copy (file : MappedFile) (cursor length : Nat) : Except Stop (List Byte) :=
  if cursor + length ≤ file.bytes.length then .ok ((file.bytes.drop cursor).take length)
  else .error .outOfBounds

/-- Go on if a condition is met. -/
def ensure (c : Prop) [Decidable c] (e : GgufError) : Read Stop Unit :=
  if c then pure () else throw (.exception e)

/-- `reserve`. -/
def reserve (maxSize count : Nat) : Read Stop Unit := ensure (count ≤ maxSize) .lengthError

section
variable (A : Arith) (file : MappedFile)

/-- `read_scalar`, for a type of some bytes. -/
def readScalar (width : Nat) : Read Stop Nat := fun cursor => do
  let stop ← A.add cursor width
  if file.bytes.length < stop then .error (.exception .pastEnd)
  else
    let out ← file.copy cursor width
    return (leNat out, stop)

/-- `read_u32`. -/
def readU32 : Read Stop Nat := readScalar A file 4

/-- `read_u64`. -/
def readU64 : Read Stop Nat := readScalar A file 8

/-- The bytes of a string. -/
def readChars (len : Nat) : Read Stop (List Byte) := fun cursor => do
  let stop ← A.add cursor len
  if file.bytes.length < stop then .error (.exception .stringPastEnd)
  else if stringMaxSize < len then .error (.exception .lengthError)
  else
    let out ← file.copy cursor len
    return (out, stop)

/-- `read_string`. -/
def readString : Read Stop (List Byte) := do
  let len ← readU64 A file
  readChars A file len

/-- `read_metadata_value`, the elements of an array. -/
def readElements (elemType count : Nat) : Read Stop MetadataValue :=
  match Kind.ofId elemType with
  | some kind => do
    reserve (vectorCapacity.numbers kind) count
    let items ← readMany (readScalar A file kind.width) count
    return .vector kind items
  | none =>
    if elemType = 8 then do
      reserve vectorCapacity.strings count
      let items ← readMany (readString A file) count
      return .strings items
    else throw (.exception (.unsupportedArrayElementType elemType))

/-- `read_metadata_value`, case 9. -/
def readArray : Read Stop MetadataValue := do
  let elemType ← readU32 A file
  let count ← readU64 A file
  readElements A file elemType count

/-- `read_metadata_value`. -/
def readMetadataValue (valueType : Nat) : Read Stop MetadataValue :=
  match Kind.ofId valueType with
  | some kind => do
    let raw ← readScalar A file kind.width
    return kind.metadataValue raw
  | none =>
    if valueType = 8 then do
      let s ← readString A file
      return .string s
    else if valueType = 9 then readArray A file
    else throw (.exception (.unsupportedValueType valueType))

/-- A round of the loop over the metadata. -/
def readEntry : Read Stop (List Byte × MetadataValue) := do
  let key ← readString A file
  let valueType ← readU32 A file
  let value ← readMetadataValue A file valueType
  return (key, value)

end

/-! ## Sizes and places -/

section
variable (A : Arith)

/-- `align_up`. -/
def alignUp (value alignment : Nat) : Except Stop Nat := do
  let sum ← A.add value alignment
  let top ← A.sub sum 1
  if alignment = 0 then .error .divisionByZero else A.mul (top / alignment) alignment

/-- `block_count`. -/
def blockCount (elems blockSize : Nat) : Except Stop Nat := do
  let sum ← A.add elems blockSize
  let top ← A.sub sum 1
  return top / blockSize

/-- `tensor_element_count`. -/
def tensorElementCount (shape : List Nat) : Except Stop Nat :=
  if shape = [] then .ok 0 else shape.foldlM A.mul 1

/-- `ggml_type_to_dtype`. -/
def ggmlTypeToDtype : Nat → DType
  | 0 => .f32
  | 1 => .f16
  | 32 => .bf16
  | 8 => .q8_0
  | 10 => .q2K
  | 16 => .iq2Xxs
  | 29 => .iq1M
  | _ => .unknown

/-- `block_count(elems, size) * bytes`. -/
def blockBytes (elems size bytes : Nat) : Except Stop Nat := do
  let blocks ← blockCount A elems size
  A.mul blocks bytes

/-- The bytes of elements of a type (`ggml_tensor_nbytes`, the switch). -/
def elementBytes (ggmlType elems : Nat) : Except Stop Nat :=
  match ggmlType with
  | 0 => A.mul elems 4
  | 1 => A.mul elems 2
  | 32 => A.mul elems 2
  | 8 => blockBytes A elems 32 34
  | 10 => blockBytes A elems 256 84
  | 16 => blockBytes A elems 256 66
  | 29 => blockBytes A elems 256 56
  | 26 => A.mul elems 4
  | _ => .ok 0

/-- `ggml_tensor_nbytes`. -/
def ggmlTensorNbytes (ggmlType : Nat) (shape : List Nat) : Except Stop Nat := do
  let elems ← tensorElementCount A shape
  elementBytes A ggmlType elems

/-- A round of the loop over the tensors. -/
def readTensorInfo (file : MappedFile) : Read Stop GgufTensorInfo := do
  let name ← readString A file
  let nDims ← readU32 A file
  let shape ← readMany (readU64 A file) nDims
  let ggmlType ← readU32 A file
  let offset ← readU64 A file
  let nbytes ← liftM (ggmlTensorNbytes A ggmlType shape)
  return { name, shape, ggmlType, dtype := ggmlTypeToDtype ggmlType, offset, nbytes }

/-- The first part of `parse`: the version, the metadata and the tensors without their places. -/
def readHeader (file : MappedFile) : Read Stop (Nat × Metadata × List GgufTensorInfo) := do
  let magic ← readU32 A file
  ensure (magic = kGgufMagic) .badMagic
  let version ← readU32 A file
  ensure (2 ≤ version ∧ version ≤ 3) (.unsupportedVersion version)
  let tensorCount ← readU64 A file
  let metadataCount ← readU64 A file
  let entries ← readMany (readEntry A file) metadataCount
  reserve vectorCapacity.tensors tensorCount
  let tensors ← readMany (readTensorInfo A file) tensorCount
  return (version, entries.reverse, tensors)

/-- A round of the last loop: the place of a tensor, which has to end inside the file. -/
def placeTensor (file : MappedFile) (dataStart : Nat) (tensor : GgufTensorInfo) :
    Except Stop GgufTensorInfo := do
  let absoluteOffset ← A.add dataStart tensor.offset
  let stop ← A.add absoluteOffset tensor.nbytes
  if file.bytes.length < stop then .error (.exception (.tensorPastEnd tensor.name))
  else return { tensor with absoluteOffset }

/-- `alignment_`: 32 unless the metadata has a number for it. -/
def alignmentOf (metadata : Metadata) : Nat :=
  (metadataU64 metadata (encodeUtf8 (text "general.alignment"))).getD 32

/-- `GGUFFile::parse`. -/
def parse (file : MappedFile) : Except Stop GgufFile := do
  let ((version, metadata, infos), cursor) ← readHeader A file 0
  let alignment := alignmentOf metadata
  let dataStart ← alignUp A cursor alignment
  let tensors ← infos.mapM (placeTensor A file dataStart)
  return { version, alignment, dataStart, metadata, tensors }

end

end PocketMoE.Loader
