import Mathlib.Data.List.Forall2
import Mathlib.Tactic.Lemma
import Mathlib.Tactic.Ring

/-!
# Tensors cut along a dimension

A dense tensor is its shape and its entries, which are read at indices in range only. `narrow` takes a
part of a dimension, and the parts of equal size are together the tensor (`concat_parts`).
-/

namespace PocketMoE.Lib

/-- A tensor. -/
structure DenseTensor (α : Type) where
  shape : List Nat
  entry : List Nat → α

namespace DenseTensor

variable {α : Type}

/-- An index of a shape. -/
def InRange (index shape : List Nat) : Prop := List.Forall₂ (· < ·) index shape

/-- The same tensor, entry by entry. -/
structure Same (S T : DenseTensor α) : Prop where
  shape : S.shape = T.shape
  entry : ∀ index, InRange index T.shape → S.entry index = T.entry index

lemma Same.refl (T : DenseTensor α) : Same T T := ⟨rfl, fun _ _ => rfl⟩

/-- `T.narrow(dim, start, size)`. -/
def narrow (T : DenseTensor α) (dim start size : Nat) : DenseTensor α where
  shape := T.shape.set dim size
  entry index := T.entry (index.modify dim (start + ·))

/-- The size of a dimension. -/
def size (T : DenseTensor α) (dim : Nat) : Nat := T.shape.getD dim 0

/-- A tensor is made of others, one after another along a dimension. -/
structure Concat (dim : Nat) (slices : List (DenseTensor α)) (T : DenseTensor α) : Prop where
  total : (slices.map (size · dim)).sum = T.size dim
  shape : ∀ S ∈ slices, S.shape = T.shape.set dim (S.size dim)
  entry : ∀ before S after, slices = before ++ S :: after → ∀ index, InRange index S.shape →
    S.entry index = T.entry (index.modify dim ((before.map (size · dim)).sum + ·))

lemma size_narrow (T : DenseTensor α) {dim : Nat} (inside : dim < T.shape.length)
    (start size : Nat) : (T.narrow dim start size).size dim = size := by
  rw [DenseTensor.size, narrow, List.getD_eq_getElem?_getD, List.getElem?_set_self inside]
  rfl

/-- The parts of a dimension that is a multiple of their size. -/
def parts (T : DenseTensor α) (dim count size : Nat) : List (DenseTensor α) :=
  (List.range count).map fun r => T.narrow dim (r * size) size

lemma size_part (T : DenseTensor α) {dim : Nat} (inside : dim < T.shape.length)
    (count size : Nat) : ∀ S ∈ T.parts dim count size, S.size dim = size := by
  intro S member
  obtain ⟨r, -, rfl⟩ := List.mem_map.mp member
  exact size_narrow T inside (r * size) size

lemma concat_parts (T : DenseTensor α) {dim count size : Nat} (inside : dim < T.shape.length)
    (total : count * size = T.size dim) : Concat dim (T.parts dim count size) T := by
  refine ⟨?_, ?_, ?_⟩
  · rw [List.map_congr_left (size_part T inside count size), List.map_const', List.sum_replicate_nat, ← total,
      parts, List.length_map, List.length_range]
  · refine List.forall_mem_map.mpr fun r _ => ?_
    rw [size_narrow T inside]
    rfl
  · intro before S after split index _
    -- the part is the one with the number of those before it
    have number : S = T.narrow dim (before.length * size) size := by
      have here : (T.parts dim count size)[before.length]? = some S := by
        rw [split, List.getElem?_append_right (Nat.le_refl _), Nat.sub_self, List.getElem?_cons_zero]
      have few : before.length < count := by
        have length := congrArg List.length split
        rw [parts, List.length_map, List.length_range, List.length_append, List.length_cons] at length
        omega
      rw [parts, List.getElem?_map, List.getElem?_range few] at here
      exact (Option.some.inj here).symm
    have offset : (before.map (DenseTensor.size · dim)).sum = before.length * size := by
      have all : ∀ S' ∈ before, S'.size dim = size := by
        intro S' member
        refine size_part T inside count size S' ?_
        rw [split]
        exact List.mem_append_left _ member
      rw [List.map_congr_left all, List.map_const', List.sum_replicate_nat]
    rw [number, offset]
    rfl

end DenseTensor

end PocketMoE.Lib
