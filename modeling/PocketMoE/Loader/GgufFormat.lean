import PocketMoE.Lib.Reader
import PocketMoE.Lib.Utf8

/-!
# The header of a GGUF file

What stands in the header, as numbers and bytes, and how it is laid out. Both readers of the repository
are compared with this layout; it is written from neither.
-/

namespace PocketMoE.Loader
open PocketMoE.Lib

/-- The kinds of numbers in the metadata. -/
inductive Kind where
  | uint8
  | int8
  | uint16
  | int16
  | uint32
  | int32
  | float32
  | bool
  | uint64
  | int64
  | float64
deriving DecidableEq

/-- The number that stands for a kind. -/
def Kind.id : Kind → Nat
  | .uint8 => 0
  | .int8 => 1
  | .uint16 => 2
  | .int16 => 3
  | .uint32 => 4
  | .int32 => 5
  | .float32 => 6
  | .bool => 7
  | .uint64 => 10
  | .int64 => 11
  | .float64 => 12

/-- The kind that a number stands for. -/
def Kind.ofId : Nat → Option Kind
  | 0 => some .uint8
  | 1 => some .int8
  | 2 => some .uint16
  | 3 => some .int16
  | 4 => some .uint32
  | 5 => some .int32
  | 6 => some .float32
  | 7 => some .bool
  | 10 => some .uint64
  | 11 => some .int64
  | 12 => some .float64
  | _ => none

/-- The bytes of a number. -/
def Kind.width : Kind → Nat
  | .uint8 => 1
  | .int8 => 1
  | .uint16 => 2
  | .int16 => 2
  | .uint32 => 4
  | .int32 => 4
  | .float32 => 4
  | .bool => 1
  | .uint64 => 8
  | .int64 => 8
  | .float64 => 8

/-- A value of the metadata; numbers are as their bytes have them. -/
inductive Value where
  | number (kind : Kind) (raw : Nat)
  | string (bytes : List Byte)
  | numbers (kind : Kind) (items : List Nat)
  | strings (items : List (List Byte))

/-- A tensor as the header has it. -/
structure TensorRecord where
  name : List Byte
  dimensions : List Nat
  typeId : Nat
  offset : Nat

structure Header where
  version : Nat
  metadata : List (List Byte × Value)
  tensors : List TensorRecord

/-! ## The layout -/

def magic : List Byte := [0x47, 0x47, 0x55, 0x46]

/-- A string, with its length before it. -/
def stringLayout (bytes : List Byte) : List Byte := leBytes 8 bytes.length ++ bytes

/-- The number of the type of a value. -/
def Value.typeId : Value → Nat
  | .number kind _ => kind.id
  | .string _ => 8
  | .numbers .. => 9
  | .strings _ => 9

/-- What follows the type of a value. -/
def Value.body : Value → List Byte
  | .number kind raw => leBytes kind.width raw
  | .string bytes => stringLayout bytes
  | .numbers kind items =>
    leBytes 4 kind.id ++ (leBytes 8 items.length ++ items.flatMap (leBytes kind.width))
  | .strings items => leBytes 4 8 ++ (leBytes 8 items.length ++ items.flatMap stringLayout)

/-- A key, the type of its value and the value. -/
def entryLayout (entry : List Byte × Value) : List Byte :=
  stringLayout entry.1 ++ (leBytes 4 entry.2.typeId ++ entry.2.body)

def TensorRecord.layout (t : TensorRecord) : List Byte :=
  stringLayout t.name ++ (leBytes 4 t.dimensions.length ++ (t.dimensions.flatMap (leBytes 8) ++
    (leBytes 4 t.typeId ++ leBytes 8 t.offset)))

def Header.layout (h : Header) : List Byte :=
  magic ++ (leBytes 4 h.version ++ (leBytes 8 h.tensors.length ++ (leBytes 8 h.metadata.length ++
    (h.metadata.flatMap entryLayout ++ h.tensors.flatMap TensorRecord.layout))))

/-! ## What fits into the layout -/

def TensorRecord.Fits (t : TensorRecord) : Prop :=
  t.name.length < 2 ^ 64 ∧ t.dimensions.length < 2 ^ 32 ∧ (∀ dim ∈ t.dimensions, dim < 2 ^ 64) ∧
    t.typeId < 2 ^ 32 ∧ t.offset < 2 ^ 64

/-- The bounds on the sizes of vectors that a reader has, for each kind of number, for strings and for
tensors. -/
structure Capacity where
  numbers : Kind → Nat
  strings : Nat
  tensors : Nat

def Value.Fits (cap : Capacity) : Value → Prop
  | .number kind raw => raw < 256 ^ kind.width
  | .string bytes => bytes.length < 2 ^ 64
  | .numbers kind items =>
    items.length < 2 ^ 64 ∧ items.length ≤ cap.numbers kind ∧ ∀ raw ∈ items, raw < 256 ^ kind.width
  | .strings items =>
    items.length < 2 ^ 64 ∧ items.length ≤ cap.strings ∧ ∀ bytes ∈ items, bytes.length < 2 ^ 64

structure Header.Fits (cap : Capacity) (h : Header) : Prop where
  version : h.version = 2 ∨ h.version = 3
  entries : h.metadata.length < 2 ^ 64
  metadata : ∀ entry ∈ h.metadata, entry.1.length < 2 ^ 64 ∧ entry.2.Fits cap
  count : h.tensors.length < 2 ^ 64 ∧ h.tensors.length ≤ cap.tensors
  tensors : ∀ t ∈ h.tensors, t.Fits

lemma Kind.ofId_iff {kind : Kind} {n : Nat} : Kind.ofId n = some kind ↔ n = kind.id := by
  constructor
  · intro eq
    unfold Kind.ofId at eq
    split at eq
    all_goals first
      | exact (Option.some.inj eq) ▸ rfl
      | exact absurd eq nofun
  · rintro rfl
    cases kind with
    | _ => rfl

lemma Kind.id_inj {kind kind' : Kind} (same : kind.id = kind'.id) : kind = kind' := by
  have back := Kind.ofId_iff.mpr same
  rw [Kind.ofId_iff.mpr rfl] at back
  exact Option.some.inj back

lemma Kind.id_ne {kind : Kind} {n : Nat} (other : Kind.ofId n = none) : kind.id ≠ n := by
  intro eq
  rw [Kind.ofId_iff.mpr eq.symm] at other
  cases other

lemma Kind.width_le (kind : Kind) : kind.width ≤ 8 := by
  cases kind with
  | _ => decide

lemma Kind.id_lt (kind : Kind) : kind.id < 2 ^ 32 := by
  cases kind with
  | _ => decide

lemma Value.typeId_lt (value : Value) : value.typeId < 2 ^ 32 := by
  cases value with
  | number kind raw => exact kind.id_lt
  | string bytes => exact (by decide : 8 < 2 ^ 32)
  | numbers kind items => exact (by decide : 9 < 2 ^ 32)
  | strings items => exact (by decide : 9 < 2 ^ 32)

end PocketMoE.Loader
