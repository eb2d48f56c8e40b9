import Mathlib.Data.List.Flatten
import Mathlib.Tactic.Lemma
import Mathlib.Tactic.SplitIfs

/-!
# Merging neighbours by rank

The pieces of a word are merged two by two: of the neighbours that have a rank, the first with the least
one, until no neighbours have a rank (`mergeAll`). Whatever the ranks are, the word stays the same, and
letters that are spelled with several symbols stay together (`mergeAll_map`).
-/

namespace PocketMoE.Lib.Bpe

variable {α : Type} (rank : List α → List α → Option Int)

/-- The least rank of two neighbours so far and the place of the first pair that has it. -/
def scanPairs : Nat → Int × Option Nat → List (List α) → Int × Option Nat
  | i, best, a :: b :: rest =>
    let best := match rank a b with
      | some r => if r < best.1 then (r, some i) else best
      | none => best
    scanPairs (i + 1) best (b :: rest)
  | _, best, _ => best

/-- Two neighbours become one piece. -/
def mergeAt : Nat → List (List α) → List (List α)
  | 0, a :: b :: rest => (a ++ b) :: rest
  | i + 1, a :: rest => a :: mergeAt i rest
  | _, pieces => pieces

/-- At most so many merges; ranks are less than `top`. -/
def mergeAll (top : Int) : Nat → List (List α) → List (List α)
  | 0, pieces => pieces
  | fuel + 1, pieces =>
    match (scanPairs rank 0 (top, none) pieces).2 with
    | none => pieces
    | some i => mergeAll top fuel (mergeAt i pieces)

variable {rank} {top : Int}

/-! ## The merges end -/

/-! ## What the merges keep -/

lemma flatten_mergeAt (i : Nat) (pieces : List (List α)) :
    (mergeAt i pieces).flatten = pieces.flatten := by
  fun_induction mergeAt i pieces with
  | case1 a b rest => rw [List.flatten_cons, List.flatten_cons, List.flatten_cons, List.append_assoc]
  | case2 i a rest ih => rw [List.flatten_cons, List.flatten_cons, ih]
  | case3 => rfl

lemma mergeAt_ne_nil {i : Nat} {pieces : List (List α)} (all : ∀ p ∈ pieces, p ≠ []) :
    ∀ p ∈ mergeAt i pieces, p ≠ [] := by
  fun_induction mergeAt i pieces with
  | case1 a b rest =>
    simp only [List.forall_mem_cons] at all ⊢
    obtain ⟨first, -, rest⟩ := all
    exact ⟨fun empty => first (List.append_eq_nil_iff.mp empty).1, rest⟩
  | case2 i a rest ih =>
    rw [List.forall_mem_cons] at all ⊢
    exact ⟨all.1, ih all.2⟩
  | case3 => exact all

variable {β : Type} (f : β → List α)

lemma mergeAt_map (i : Nat) (groups : List (List β)) :
    mergeAt i (groups.map (List.flatMap f)) = (mergeAt i groups).map (List.flatMap f) := by
  induction i generalizing groups with
  | zero =>
    cases groups with
    | nil => rfl
    | cons a rest =>
      cases rest with
      | nil => rfl
      | cons b rest =>
        rw [List.map_cons, List.map_cons, mergeAt, mergeAt, List.map_cons, List.flatMap_append]
  | succ i ih =>
    cases groups with
    | nil => rfl
    | cons a rest => rw [List.map_cons, mergeAt, mergeAt, List.map_cons, ih]

/-- Where every letter is spelled with symbols, the pieces are groups of letters, in their order. -/
theorem mergeAll_map (fuel : Nat) (groups : List (List β)) (some : ∀ g ∈ groups, g ≠ []) :
    ∃ groups' : List (List β), mergeAll rank top fuel (groups.map (List.flatMap f)) =
        groups'.map (List.flatMap f) ∧
      groups'.flatten = groups.flatten ∧ ∀ g ∈ groups', g ≠ [] := by
  induction fuel generalizing groups with
  | zero => exact ⟨groups, rfl, rfl, some⟩
  | succ fuel ih =>
    rw [mergeAll]
    split
    · exact ⟨groups, rfl, rfl, some⟩
    · rename_i i _
      rw [mergeAt_map]
      obtain ⟨groups', eq, flat, rest⟩ := ih _ (mergeAt_ne_nil (i := i) some)
      exact ⟨groups', eq, flat.trans (flatten_mergeAt i groups), rest⟩

end PocketMoE.Lib.Bpe
