import Mathlib.Data.List.Basic
import Mathlib.Data.List.Range
import Mathlib.Logic.Function.Basic
import Mathlib.Tactic.Lemma

/-!
# Rows of a tensor

A tensor is read here along one dimension only: its memory is a function from row numbers to rows,
and a temporary is the list of its rows. `storeRows` is the slice assignment
`mem[base : base + len(rows)] = rows`, `slice` is the slice `rows[lo : hi]`. Both carry the lemmas
that say what a row holds afterwards, so that later proofs never unfold them.
-/

namespace PocketMoE.Tensor

variable {α β : Type*}

/-- The slice assignment `mem[base : base + len(rows)] = rows`. -/
def storeRows (mem : Nat → α) (base : Nat) (rows : List α) : Nat → α := fun slot =>
  if base ≤ slot then (rows[slot - base]?).getD (mem slot) else mem slot

/-- The slice `rows[lo : hi]`. -/
def slice (rows : List α) (lo hi : Nat) : List α :=
  (rows.take hi).drop lo

@[simp] lemma length_slice (rows : List α) (lo hi : Nat) :
    (slice rows lo hi).length = min hi rows.length - lo := by
  simp [slice]

lemma take_append_slice (rows : List α) {lo hi : Nat} (le : lo ≤ hi) :
    rows.take lo ++ slice rows lo hi = rows.take hi := by
  have front : (rows.take hi).take lo = rows.take lo := by
    rw [List.take_take, Nat.min_eq_left le]
  rw [← front, slice, List.take_append_drop]

lemma getElem?_slice (rows : List α) {lo hi i : Nat} (h : lo + i < hi) :
    (slice rows lo hi)[i]? = rows[lo + i]? := by
  simp [slice, h]

lemma slice_map_range (f : Nat → α) {lo hi n : Nat} (h : hi ≤ n) :
    slice ((List.range n).map f) lo hi = (List.range (hi - lo)).map (fun i => f (lo + i)) := by
  apply List.ext_getElem?
  intro i
  by_cases hi' : lo + i < hi
  · rw [getElem?_slice _ hi']
    simp [show lo + i < n from by omega, show i < hi - lo from by omega]
  · rw [List.getElem?_eq_none (by simp; omega), List.getElem?_eq_none (by simp; omega)]

lemma slice_map_range_min (f : Nat → α) (lo hi n : Nat) :
    slice ((List.range n).map f) lo hi =
      (List.range (min hi n - lo)).map (fun i => f (lo + i)) := by
  rw [← slice_map_range f (Nat.min_le_right hi n), slice, slice]
  congr 1
  rw [List.take_eq_take_iff]
  simp

lemma mapIdx_map_range (f : Nat → α) (g : Nat → α → β) (n : Nat) :
    ((List.range n).map f).mapIdx g = (List.range n).map fun i => g i (f i) := by
  apply List.ext_getElem?
  intro i
  cases Nat.lt_or_ge i n with
  | inl lt => simp [lt]
  | inr ge => simp [ge]

lemma exists_map_range {rows : List α} (ne : rows ≠ []) :
    ∃ f : Nat → α, rows = (List.range rows.length).map f := by
  refine ⟨fun i => (rows[i]?).getD (rows.head ne), ?_⟩
  apply List.ext_getElem?
  intro i
  cases Nat.lt_or_ge i rows.length with
  | inl lt => simp [lt]
  | inr ge => simp [ge]

lemma filterMap_range {count len : Nat} (le : count ≤ len) {f : Nat → Option α} (g : Nat → α)
    (inside : ∀ i, i < count → f i = some (g i)) (outside : ∀ i, count ≤ i → f i = none) :
    (List.range len).filterMap f = (List.range count).map g := by
  obtain ⟨d, rfl⟩ := Nat.exists_eq_add_of_le le
  rw [List.range_add, List.filterMap_append, List.filterMap_map]
  have rest : (List.range d).filterMap (f ∘ fun i => count + i) = [] :=
    List.filterMap_eq_nil_iff.mpr fun i _ => outside _ (Nat.le_add_right _ _)
  rw [rest, List.append_nil, ← List.filterMap_eq_map]
  exact List.filterMap_congr fun i member => inside i (List.mem_range.mp member)

lemma storeRows_at (mem : Nat → α) {base i : Nat} {rows : List α} {row : α}
    (h : rows[i]? = some row) : storeRows mem base rows (base + i) = row := by
  simp [storeRows, h]

lemma storeRows_below (mem : Nat → α) {base slot : Nat} (rows : List α) (h : slot < base) :
    storeRows mem base rows slot = mem slot := by
  simp [storeRows, Nat.not_le.mpr h]

lemma storeRows_above (mem : Nat → α) {base slot : Nat} (rows : List α)
    (h : base + rows.length ≤ slot) : storeRows mem base rows slot = mem slot := by
  have hb : base ≤ slot := by omega
  have hn : rows[slot - base]? = none := List.getElem?_eq_none (by omega)
  simp [storeRows, hb, hn]

lemma storeRows_range (mem : Nat → α) (base n : Nat) (f : Nat → α) (slot : Nat) :
    storeRows mem base ((List.range n).map f) slot =
      if base ≤ slot ∧ slot < base + n then f (slot - base) else mem slot := by
  by_cases hb : base ≤ slot
  · by_cases hn : slot < base + n
    · have h : slot - base < n := by omega
      simp [storeRows, hb, hn, h]
    · rw [storeRows_above _ _ (by simp; omega)]
      simp [hn]
  · rw [storeRows_below _ _ (by omega)]
    simp [hb]

lemma storeRows_congr {mem mem' : Nat → α} {base slot : Nat} {rows : List α}
    (outside : ¬ (base ≤ slot ∧ slot < base + rows.length) → mem slot = mem' slot) :
    storeRows mem base rows slot = storeRows mem' base rows slot := by
  by_cases inside : base ≤ slot ∧ slot < base + rows.length
  · obtain ⟨i, rfl⟩ := Nat.exists_eq_add_of_le inside.1
    have row := List.getElem?_eq_getElem (show i < rows.length from by omega)
    rw [storeRows_at _ row, storeRows_at _ row]
  · simp only [storeRows, outside inside]

@[simp] lemma storeRows_nil (mem : Nat → α) (base : Nat) : storeRows mem base [] = mem := by
  funext slot
  simp [storeRows]

lemma storeRows_again (mem : Nat → α) (base : Nat) {rows rows' : List α}
    (len : rows.length = rows'.length) :
    storeRows (storeRows mem base rows) base rows' = storeRows mem base rows' := by
  funext slot
  by_cases low : slot < base
  · rw [storeRows_below _ _ low, storeRows_below _ _ low, storeRows_below _ _ low]
  · by_cases high : base + rows'.length ≤ slot
    · rw [storeRows_above _ _ high, storeRows_above _ _ high, storeRows_above _ _ (by omega)]
    · obtain ⟨i, rfl⟩ := Nat.exists_eq_add_of_le (Nat.not_lt.mp low)
      have row := List.getElem?_eq_getElem (show i < rows'.length from by omega)
      rw [storeRows_at _ row, storeRows_at _ row]

/-! ## Chunks -/

/-- The loop `for base in range(0, len(rows), chunk)` over the pieces `rows[base : base + chunk]`,
each piece replaced by what `body base` makes of it. -/
def overChunks (chunk : Nat) (body : Nat → List α → List β) (rows : List α) : List β :=
  (List.range ((rows.length + chunk - 1) / chunk)).flatMap fun b =>
    body (b * chunk) (slice rows (b * chunk) ((b + 1) * chunk))

lemma flatMap_chunks (chunk n : Nat) (f : Nat → α → β) (rows : List α) :
    ((List.range n).flatMap fun b =>
      (slice rows (b * chunk) ((b + 1) * chunk)).mapIdx fun j row => f (b * chunk + j) row) =
      (rows.take (n * chunk)).mapIdx f := by
  induction n with
  | zero => simp
  | succ n ih =>
    rw [List.range_succ, List.flatMap_append, ih, List.flatMap_singleton]
    have split : rows.take ((n + 1) * chunk) =
        rows.take (n * chunk) ++ slice rows (n * chunk) ((n + 1) * chunk) := by
      conv_lhs => rw [← List.take_append_drop (n * chunk) (rows.take ((n + 1) * chunk))]
      rw [List.take_take, Nat.min_eq_left (Nat.mul_le_mul_right _ (Nat.le_succ n))]
      rfl
    rw [split, List.mapIdx_append]
    congr 1
    by_cases inside : n * chunk ≤ rows.length
    · simp only [List.length_take, Nat.min_eq_left inside, Nat.add_comm]
    · have empty : slice rows (n * chunk) ((n + 1) * chunk) = [] := by
        apply List.eq_nil_of_length_eq_zero
        rw [length_slice]
        omega
      simp [empty]

lemma overChunks_mapIdx {chunk : Nat} (hc : 0 < chunk) {body : Nat → List α → List β}
    (f : Nat → α → β) (rows : List α)
    (each : ∀ base part, body base part = part.mapIdx fun j row => f (base + j) row) :
    overChunks chunk body rows = rows.mapIdx f := by
  simp only [overChunks, each]
  rw [flatMap_chunks, List.take_of_length_le]
  have := Nat.div_add_mod (rows.length + chunk - 1) chunk
  have := Nat.mod_lt (rows.length + chunk - 1) hc
  rw [Nat.mul_comm]
  omega

lemma overChunks_map {chunk : Nat} (hc : 0 < chunk) (f : α → β) (rows : List α) :
    overChunks chunk (fun _ part => part.map f) rows = rows.map f := by
  have alike (part : List α) : part.mapIdx (fun _ => f) = part.map f :=
    List.ext_getElem (by simp) fun i _ _ => by simp
  rw [overChunks_mapIdx hc (fun _ => f) rows fun _ part => (alike part).symm, alike]

end PocketMoE.Tensor
