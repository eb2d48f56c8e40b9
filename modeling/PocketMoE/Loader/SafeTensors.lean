import Mathlib.Data.Char
import Mathlib.Data.List.Lex
import Mathlib.Data.List.Sort
import PocketMoE.Loader.Mapped
import PocketMoE.Server.Strtod

/-!
# The safetensors reader of the C++ engine

Model of `SafeTensorsShard::parse` (`safetensors_reader.cpp`) and of the functions of `json_lite.cpp`
that it calls. 64-bit numbers are natural numbers, and sums and products of the code are taken modulo
2^64. What would be undefined is a result of its own: a read behind the end of the file, and the
conversion of a floating-point number that no 64-bit number is the integer part of. The stack of the
recursive JSON reader is not bounded here.
-/

namespace PocketMoE.Loader.SafeTensors
open PocketMoE.Lib PocketMoE.Server

/-- The exceptions. -/
inductive SafeError where
  | tooSmall
  | headerPastEnd
  | lengthError
  | json (msg : String)
  | notObject
  | notArray
  | notString
  | notNumber
  | missingStringKey (key : String)
  | missingArrayKey (key : String)
  | notU64 (key : String)
  | badDataOffsets (name : Bytes)
  | tensorPastEnd (name : Bytes)
  | byteMismatch (name : Bytes)
deriving DecidableEq

/-- How the reader stops without a result. -/
inductive Stop where
  | exception (e : SafeError)
  | outOfBounds
  | undefined
deriving DecidableEq

/-- `SafeDType`. -/
inductive SafeDType where
  | bf16
  | f16
  | f32
  | i64
  | i8
  | f8E4m3
  | f8E8m0
  | unknown
deriving DecidableEq

/-- `safe_dtype_from_string`. -/
def safeDtypeFromString (dtype : Bytes) : SafeDType :=
  if dtype = "BF16".toList then .bf16
  else if dtype = "F16".toList then .f16
  else if dtype = "F32".toList then .f32
  else if dtype = "I64".toList then .i64
  else if dtype = "I8".toList then .i8
  else if dtype = "F8_E4M3".toList then .f8E4m3
  else if dtype = "F8_E8M0".toList then .f8E8m0
  else .unknown

/-- `safe_dtype_size`. -/
def safeDtypeSize : SafeDType → Nat
  | .bf16 => 2
  | .f16 => 2
  | .f32 => 4
  | .i64 => 8
  | .i8 => 1
  | .f8E4m3 => 1
  | .f8E8m0 => 1
  | .unknown => 0

/-- `safe_tensor_numel`. -/
def safeTensorNumel (shape : List Nat) : Nat := shape.foldl (fun total dim => total * dim % 2 ^ 64) 1

/-- `SafeTensorInfo`. -/
structure SafeTensorInfo where
  name : Bytes
  dtype : SafeDType
  shape : List Nat
  dataBegin : Nat
  dataEnd : Nat
  absoluteBegin : Nat
  nbytes : Nat
deriving DecidableEq

/-- `SafeTensorsShard`, parsed. -/
structure SafeTensorsShard where
  headerLen : Nat
  dataStart : Nat
  tensors : List SafeTensorInfo
deriving DecidableEq

/-! ## What is read of the JSON values -/

/-- An exception. -/
def fail {α : Type} (e : SafeError) : Except Stop α := .error (.exception e)

/-- `object`. -/
def asObject : JsonValue → Except Stop (List (Bytes × JsonValue))
  | .object members => .ok members
  | _ => fail .notObject

/-- `string`. -/
def asString : JsonValue → Except Stop Bytes
  | .string s => .ok s
  | _ => fail .notString

/-- `array`. -/
def asArray : JsonValue → Except Stop (List JsonValue)
  | .array items => .ok items
  | _ => fail .notArray

/-- `number`. -/
def asNumber : JsonValue → Except Stop Double
  | .number text => .ok (strtod text)
  | _ => fail .notNumber

/-- `1e-9`. -/
def tiny : Nat := 4835703278458517 * 2 ^ (1074 - 82)

/-- `json_number_to_u64`. With a NaN no comparison holds, so it is converted; so is 2^64, to which the
biggest 64-bit number is rounded. -/
def jsonNumberToU64 (number : Double) (key : String) : Except Stop Nat :=
  match number with
  | .nan => .error .undefined
  | .infinite _ => fail (.notU64 key)
  | .finite n =>
    let rounded := Double.round n
    if n < 0 ∨ tiny < (n - rounded * Double.one).natAbs ∨ 2 ^ 64 < rounded then fail (.notU64 key)
    else if rounded = 2 ^ 64 then .error .undefined
    else .ok rounded.toNat

/-- `json_required_string`. -/
def jsonRequiredString (obj : List (Bytes × JsonValue)) (key : String) : Except Stop Bytes :=
  match objectGet obj key with
  | none => fail (.missingStringKey key)
  | some value => asString value

/-- A round of the loop of `json_required_u64_array`. -/
def itemToU64 (key : String) (item : JsonValue) : Except Stop Nat := do
  let number ← asNumber item
  jsonNumberToU64 number key

/-- `json_required_u64_array`. -/
def jsonRequiredU64Array (obj : List (Bytes × JsonValue)) (key : String) : Except Stop (List Nat) :=
  match objectGet obj key with
  | none => fail (.missingArrayKey key)
  | some value => do
    let items ← asArray value
    items.mapM (itemToU64 key)

/-! ## The header -/

/-- The place of a tensor and the checks of its size. -/
def place (size dataStart : Nat) (name : Bytes) (dtype : SafeDType) (shape offsets : List Nat) :
    Except Stop SafeTensorInfo :=
  match offsets with
  | [dataBegin, dataEnd] =>
    if dataEnd < dataBegin then fail (.badDataOffsets name)
    else
      let absoluteBegin := (dataStart + dataBegin) % 2 ^ 64
      let nbytes := dataEnd - dataBegin
      if size < (absoluteBegin + nbytes) % 2 ^ 64 then fail (.tensorPastEnd name)
      else
        let expected := safeTensorNumel shape * safeDtypeSize dtype % 2 ^ 64
        if expected ≠ nbytes then fail (.byteMismatch name)
        else .ok { name, dtype, shape, dataBegin, dataEnd, absoluteBegin, nbytes }
  | _ => fail (.badDataOffsets name)

/-- A round of the loop over the members. -/
def readTensor (size dataStart : Nat) (entry : Bytes × JsonValue) : Except Stop SafeTensorInfo := do
  let obj ← asObject entry.2
  let dtype ← jsonRequiredString obj "dtype"
  let shape ← jsonRequiredU64Array obj "shape"
  let offsets ← jsonRequiredU64Array obj "data_offsets"
  place size dataStart entry.1 (safeDtypeFromString dtype) shape offsets

/-- The members that the loop does not pass over, in the order of a `std::map`. -/
def tensorEntries (root : List (Bytes × JsonValue)) : List (Bytes × JsonValue) :=
  (root.insertionSort fun a b => a.1 ≤ b.1).filter fun entry => entry.1 ≠ "__metadata__".toList

/-- The header as a string. -/
def headerText (bytes : List Byte) : Bytes := bytes.map fun b => Char.ofNat b.1

/-- `parse_json`. -/
def parseHeader (text : Bytes) : Except Stop JsonValue :=
  match parseJson text with
  | .ok value => .ok value
  | .error msg => fail (.json msg)

/-- `std::string(bytes() + 8, header_len)`. -/
def copyHeader (file : MappedFile) (headerLen : Nat) : Except Stop Bytes :=
  if stringMaxSize < headerLen then fail .lengthError
  else if file.bytes.length < 8 + headerLen then .error .outOfBounds
  else .ok (headerText ((file.bytes.drop 8).take headerLen))

/-- `open` and `parse`. -/
def parse (file : MappedFile) : Except Stop SafeTensorsShard := do
  if file.bytes.length < 8 then fail .tooSmall
  else
    let headerLen := leNat (file.bytes.take 8)
    let dataStart := (8 + headerLen) % 2 ^ 64
    if file.bytes.length < dataStart then fail .headerPastEnd
    else
      let header ← copyHeader file headerLen
      let value ← parseHeader header
      let root ← asObject value
      let tensors ← (tensorEntries root).mapM (readTensor file.bytes.length dataStart)
      return { headerLen, dataStart, tensors }

end PocketMoE.Loader.SafeTensors
