import PocketMoE.Lib.BlockReduce
import PocketMoE.Lib.TileGrid

/-!
# Rows in segments

Rows that belong to something are kept segment after segment, and an array has the row at which each
segment starts. `segmentRows` are the rows of all segments, each as a segment and a place in it: a
grid that is as wide as the longest segment has them (`filter_grid`), and so have tiles of rows that
are cut where a segment ends (`grid_tiles`, `rowTiles_rows`). The binary search for the segment of a
row ends at the one that has it (`lastStart_eq`).
-/

namespace PocketMoE.Lib

variable {n : ℕ} {count : ℕ → ℕ}

/-- The rows of all segments: the segment and the place in it. -/
def segmentRows (n : ℕ) (count : ℕ → ℕ) : List (ℕ × ℕ) :=
  (List.range n).flatMap fun e => (List.range (count e)).map (Prod.mk e)

lemma mem_segmentRows {p : ℕ × ℕ} : p ∈ segmentRows n count ↔ p.1 < n ∧ p.2 < count p.1 := by
  simp only [segmentRows, List.mem_flatMap, List.mem_range, List.mem_map]
  constructor
  · rintro ⟨e, lt, row, inside, rfl⟩
    exact ⟨lt, inside⟩
  · rintro ⟨lt, inside⟩
    exact ⟨p.1, lt, p.2, inside, rfl⟩

lemma segmentRows_offsets (n : ℕ) (count : ℕ → ℕ) :
    (segmentRows n count).map (fun p => offsets count p.1 + p.2) =
      List.range (offsets count n) := by
  induction n with
  | zero => rfl
  | succ n ih =>
    unfold segmentRows at ih ⊢
    rw [List.range_succ, List.flatMap_append, List.map_append, ih, List.flatMap_singleton,
      List.map_map, offsets, List.range_add]
    rfl

lemma segmentRows_nodup : (segmentRows n count).Nodup := by
  refine List.Nodup.of_map (fun p => offsets count p.1 + p.2) ?_
  rw [segmentRows_offsets]
  exact List.nodup_range

/-- The length of the longest segment. -/
def longest (n : ℕ) (count : ℕ → ℕ) : ℕ := loop (List.range n) (fun e m => max m (count e)) 0

lemma le_longest {e : ℕ} (lt : e < n) : count e ≤ longest n count :=
  (le_loop_max (List.range n) count 0).2 e (List.mem_range.mpr lt)

/-! ## Tiles of rows -/

/-- The entries of a tile that are there. -/
def cut (size : ℕ) (inside : ℕ → Bool) (base : ℕ) : List ℕ :=
  ((List.range size).map (base + ·)).filter inside

/-- The tiles of 16 rows: the segment and the first row. -/
def rowTiles (n : ℕ) (count : ℕ → ℕ) : List (ℕ × ℕ) :=
  (List.range n).flatMap fun e => (strided 16 (count e) 0).map (Prod.mk e)

lemma strided_zero (count : ℕ) :
    strided 16 count 0 = (List.range (cdiv count 16)).map (· * 16) := by
  have all (n start : ℕ) (enough : count ≤ start * 16 + n * 16) (few : start ≤ cdiv count 16)
      (last : start + n = cdiv count 16) :
      strided 16 count (start * 16) = (List.range' start n).map (· * 16) := by
    induction n generalizing start with
    | zero =>
      rw [strided, if_neg (by omega)]
      rfl
    | succ n ih =>
      have inside : start * 16 < count := by
        have below : start < (count + 16 - 1) / 16 := by
          unfold cdiv at last
          omega
        omega
      rw [strided, if_pos ⟨inside, by decide⟩, List.range'_succ, List.map_cons, ← Nat.succ_mul,
        ih (start + 1) (by omega) (by omega) (by omega)]
  have enough := le_cdiv_mul (by decide : 0 < 16) count
  have whole := all (cdiv count 16) 0 (by omega) (Nat.zero_le _) (Nat.zero_add _)
  rwa [Nat.zero_mul, ← List.range_eq_range'] at whole

lemma rowTiles_rows : (rowTiles n count).flatMap
    (fun t => (cut 16 (· < count t.1) t.2).map (Prod.mk t.1)) = segmentRows n count := by
  rw [rowTiles, List.flatMap_assoc]
  refine List.flatMap_congr fun e _ => ?_
  have whole := cells_flatten (by decide : 0 < 16) (count e)
  rw [strided_zero, List.map_map, List.flatMap_map, ← whole, List.map_flatMap]
  rfl

lemma grid_tiles {size wide : ℕ} (pos : 0 < size) (fits : ∀ e < n, count e ≤ wide) :
    (List.range n ×ˢ List.range (cdiv wide size)).flatMap
      (fun t => (cut size (· < count t.1) (t.2 * size)).map (Prod.mk t.1)) =
        segmentRows n count := by
  unfold segmentRows
  simp only [SProd.sprod, List.product]
  rw [List.flatMap_assoc]
  refine List.flatMap_congr fun e member => ?_
  have le := fits e (List.mem_range.mp member)
  have enough := le.trans (le_cdiv_mul pos wide)
  have whole := chunks_prefix size (count e) (cdiv wide size)
  rw [Nat.min_eq_left enough, ← funext (cells_eq size (count e))] at whole
  rw [← whole, List.flatMap_map, List.map_flatMap]
  rfl

lemma filter_grid {wide : ℕ} (fits : ∀ e < n, count e ≤ wide) :
    ((List.range n ×ˢ List.range wide).filter fun p => p.2 < count p.1) = segmentRows n count := by
  unfold segmentRows
  simp only [SProd.sprod, List.product]
  rw [List.filter_flatMap]
  refine List.flatMap_congr fun e member => ?_
  have below : (List.range wide).filter (· < count e) = List.range (count e) := by
    have one := cells_eq wide (count e) 0
    simp only [cells, Nat.zero_mul, Nat.zero_add, List.map_id', Nat.sub_zero,
      Nat.min_eq_left (fits e (List.mem_range.mp member)), ← List.range_eq_range'] at one
    exact one
  rw [List.filter_map, ← below]
  rfl

/-! ## Binary search -/

/-- `while (lo < hi)`: the last segment from `lo` to `hi` that starts at or before a row. -/
def lastStart (starts : ℕ → ℕ) (row lo hi : ℕ) : ℕ :=
  if lo < hi then
    let mid := (lo + hi + 1) >>> 1
    if starts mid ≤ row then lastStart starts row mid hi else lastStart starts row lo (mid - 1)
  else lo
termination_by hi - lo
decreasing_by
  · simp only [Nat.shiftRight_one]
    omega
  · simp only [Nat.shiftRight_one]
    omega

lemma lastStart_eq {starts : ℕ → ℕ} (mono : Monotone starts) {row e lo hi : ℕ} (low : lo ≤ e)
    (high : e ≤ hi) (start : starts e ≤ row) (stop : row < starts (e + 1)) :
    lastStart starts row lo hi = e := by
  fun_induction lastStart starts row lo hi with
  | case1 lo hi open_ mid before ih =>
    refine ih ?_ high
    by_contra after
    have := mono (show e + 1 ≤ mid by omega)
    omega
  | case2 lo hi open_ mid after ih =>
    refine ih low ?_
    by_contra before
    have := mono (show mid ≤ e by omega)
    omega
  | case3 lo hi closed => omega

end PocketMoE.Lib
