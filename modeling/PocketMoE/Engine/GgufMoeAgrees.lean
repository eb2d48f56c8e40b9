import Mathlib.Algebra.BigOperators.Intervals
import PocketMoE.Engine.GgufDotsExact
import PocketMoE.Engine.GgufMoe

/-!
# The variants of GGUF prefill agree

Each way to hand out the routes gives the routes that have a token, each with the expert whose
segment it is in (`Grouping.rows`). So every variant adds up the same outputs, and the weight of a
route, which goes into the numbers before they are quantised, comes out again as a factor.
-/

namespace PocketMoE.Engine.GgufMoe

open PocketMoE.Lib PocketMoE.Loader.Python

variable {K : Type}

/-! ## The routes with a token -/

namespace Grouping

variable (g : Grouping K) (n : ℕ)

/-- A place of a segment as a route, if the route has a token. -/
def tokenRow (p : ℕ × ℕ) : Option (ℕ × ℕ) :=
  if 0 ≤ g.routeTokens (g.segStarts p.1 + p.2) then some (p.1, g.segStarts p.1 + p.2) else none

/-- The experts and their routes. -/
def rows : List (ℕ × ℕ) := (segmentRows n g.count).filterMap g.tokenRow

variable {g n}

lemma segment_routes {expert ordinal : ℕ} (lt : expert < n) (inside : ordinal < g.count expert) :
    g.segStarts expert + ordinal < g.segStarts (expert + 1) ∧
      g.segStarts expert + ordinal < g.routes n := by
  have last := g.mono (show expert + 1 ≤ n from lt)
  unfold count at inside
  unfold routes
  omega

lemma mem_rows {p : ℕ × ℕ} : p ∈ g.rows n ↔ p.1 < n ∧ g.segStarts p.1 ≤ p.2 ∧
    p.2 < g.segStarts (p.1 + 1) ∧ 0 ≤ g.routeTokens p.2 := by
  obtain ⟨expert, route⟩ := p
  unfold rows
  rw [List.mem_filterMap]
  constructor
  · rintro ⟨q, member, kept⟩
    obtain ⟨lt, inside⟩ := mem_segmentRows.mp member
    unfold tokenRow at kept
    split at kept
    case isTrue token =>
      obtain ⟨rfl, rfl⟩ := Prod.mk.inj (Option.some.inj kept)
      exact ⟨lt, Nat.le_add_right .., (segment_routes lt inside).1, token⟩
    case isFalse => cases kept
  · rintro ⟨lt, start, stop, token⟩
    dsimp only at lt start stop token
    refine ⟨(expert, route - g.segStarts expert), mem_segmentRows.mpr ⟨lt, ?_⟩, ?_⟩
    · unfold count
      dsimp only
      omega
    · unfold tokenRow
      dsimp only
      rw [Nat.add_sub_cancel' start, if_pos token]

lemma expert_unique {e e' route : ℕ} (start : g.segStarts e ≤ route)
    (stop : route < g.segStarts (e + 1)) (start' : g.segStarts e' ≤ route)
    (stop' : route < g.segStarts (e' + 1)) : e = e' := by
  rcases Nat.lt_trichotomy e e' with lt | eq | gt
  · have := g.mono (show e + 1 ≤ e' from lt)
    omega
  · exact eq
  · have := g.mono (show e' + 1 ≤ e from gt)
    omega

lemma rows_apart : ∀ p ∈ g.rows n, ∀ q ∈ g.rows n, p.2 = q.2 → p = q := by
  intro p there q there' same
  obtain ⟨-, start, stop, -⟩ := mem_rows.mp there
  obtain ⟨-, start', stop', -⟩ := mem_rows.mp there'
  exact Prod.ext (expert_unique start stop (same ▸ start') (same ▸ stop')) same

lemma iq1GroupedRouteExpert_iff {route expert : ℕ} :
    g.iq1GroupedRouteExpert n route = some expert ↔
      expert < n ∧ g.segStarts expert ≤ route ∧ route < g.segStarts (expert + 1) := by
  unfold iq1GroupedRouteExpert
  dsimp only
  constructor
  · intro found
    split at found
    case isTrue => cases found
    case isFalse inside =>
      cases found
      omega
  · rintro ⟨lt, start, stop⟩
    rw [lastStart_eq g.mono (Nat.zero_le expert) (Nat.le_of_lt lt) start stop, if_neg (by omega)]

lemma perExpert_eq : g.perExpert n = g.rows n := by
  unfold perExpert rows maxCount
  rw [← filter_grid fun e lt => le_longest lt, List.filterMap_filter]
  refine List.filterMap_congr fun p member => ?_
  have lt := List.mem_range.mp (List.pair_mem_product.mp member).1
  dsimp only
  by_cases inside : p.2 < g.count p.1
  · have below := (segment_routes lt inside).2
    rw [if_pos (decide_eq_true inside)]
    exact if_congr (by simp only [inside, below, true_and]) rfl rfl
  · rw [if_neg fun all => inside all.1, if_neg fun all => inside (of_decide_eq_true all)]

lemma routeMajor_made {route : ℕ} {p : ℕ × ℕ} : (match g.iq1GroupedRouteExpert n route with
      | none => none
      | some expert => if 0 ≤ g.routeTokens route then some (expert, route) else none) = some p ↔
    p.2 = route ∧ g.iq1GroupedRouteExpert n route = some p.1 ∧ 0 ≤ g.routeTokens route := by
  constructor
  · intro made
    split at made
    case h_1 => cases made
    case h_2 expert found =>
      split at made
      case isTrue token =>
        cases made
        exact ⟨rfl, found, token⟩
      case isFalse => cases made
  · rintro ⟨rfl, found, token⟩
    rw [found]
    exact if_pos token

lemma rows_nodup : (g.rows n).Nodup := by
  refine List.Nodup.filterMap (fun q q' p kept kept' => ?_) segmentRows_nodup
  unfold tokenRow at kept kept'
  split at kept
  · cases kept
    split at kept'
    · obtain ⟨expert, route⟩ := Prod.mk.inj (Option.some.inj kept')
      rw [expert] at route
      exact Prod.ext expert.symm (Nat.add_left_cancel route).symm
    · cases kept'
  · cases kept

lemma routeMajor_perm : (g.routeMajor n).Perm (g.rows n) := by
  have once : (g.routeMajor n).Nodup :=
    List.Nodup.filterMap (fun route route' p found found' =>
      (routeMajor_made.mp found).1.symm.trans (routeMajor_made.mp found').1) List.nodup_range
  refine (List.perm_ext_iff_of_nodup once rows_nodup).mpr fun p => ?_
  rw [mem_rows]
  unfold routeMajor
  rw [List.mem_filterMap]
  constructor
  · rintro ⟨route, -, made⟩
    obtain ⟨rfl, found, token⟩ := routeMajor_made.mp made
    obtain ⟨lt, start, stop⟩ := iq1GroupedRouteExpert_iff.mp found
    exact ⟨lt, start, stop, token⟩
  · rintro ⟨lt, start, stop, token⟩
    have last := g.mono (show p.1 + 1 ≤ n from lt)
    refine ⟨p.2, List.mem_range.mpr (Nat.lt_of_lt_of_le stop last), routeMajor_made.mpr ?_⟩
    exact ⟨rfl, iq1GroupedRouteExpert_iff.mpr ⟨lt, start, stop⟩, token⟩

lemma routeTile4_eq : g.routeTile4 n = g.rows n := by
  unfold routeTile4 rows maxCount
  rw [← grid_tiles (by decide : 0 < 4) fun e lt => le_longest lt, List.filterMap_flatMap]
  refine List.flatMap_congr fun p member => ?_
  have lt := List.mem_range.mp (List.pair_mem_product.mp member).1
  have most : g.count p.1 ≤ longest n g.count := le_longest lt
  unfold cut
  rw [List.filterMap_map, List.filterMap_filter, List.filterMap_map]
  have same (r : ℕ) : (if p.2 * 4 + r < g.count p.1 ∧ g.segStarts p.1 + p.2 * 4 + r < g.routes n ∧
      0 ≤ g.routeTokens (g.segStarts p.1 + p.2 * 4 + r) then
        some (p.1, g.segStarts p.1 + p.2 * 4 + r) else none) =
      if decide (p.2 * 4 + r < g.count p.1) = true then g.tokenRow (p.1, p.2 * 4 + r)
        else none := by
    rw [Nat.add_assoc]
    by_cases inside : p.2 * 4 + r < g.count p.1
    · have below := (segment_routes lt inside).2
      rw [if_pos (decide_eq_true inside)]
      exact if_congr (by simp only [inside, below, true_and]) rfl rfl
    · rw [if_neg fun all => inside all.1, if_neg fun all => inside (of_decide_eq_true all)]
  dsimp only
  split
  case isTrue past =>
    refine (List.filterMap_eq_nil_iff.mpr fun r _ => ?_).symm
    refine if_neg fun inside => ?_
    have inside : p.2 * 4 + r < g.count p.1 := of_decide_eq_true inside
    omega
  case isFalse => exact List.filterMap_congr fun r _ => same r

lemma routeTile8_eq :
    g.routeTile8 n = (segmentRows n g.count).map fun p => (p.1, g.segStarts p.1 + p.2) := by
  unfold routeTile8 maxCount
  rw [← grid_tiles (by decide : 0 < 8) fun e lt => le_longest lt, List.map_flatMap]
  refine List.flatMap_congr fun p member => ?_
  have tile : cut 8 (· < g.count p.1) (p.2 * 8) =
      (List.range (min 8 (g.count p.1 - p.2 * 8))).map (p.2 * 8 + ·) := by
    have cell := cells_eq 8 (g.count p.1) p.2
    rw [List.range'_eq_map_range] at cell
    refine cell.trans (congrArg (fun m => (List.range m).map (p.2 * 8 + ·)) ?_)
    omega
  have valid : g.segStarts (p.1 + 1) - (g.segStarts p.1 + p.2 * 8) =
      g.count p.1 - p.2 * 8 := Nat.sub_add_eq ..
  dsimp only
  rw [tile, valid, List.map_map, List.map_map]
  refine List.map_congr_left fun r _ => ?_
  exact Prod.ext rfl (Nat.add_assoc ..)

lemma withToken_tile8 : g.withToken (g.routeTile8 n) = g.rows n := by
  unfold withToken rows
  rw [routeTile8_eq, ← List.filterMap_eq_filter, List.filterMap_map]
  refine List.filterMap_congr fun p _ => ?_
  unfold tokenRow
  exact if_congr decide_eq_true_iff rfl rfl

end Grouping

/-! ## Launches -/

section Launches

variable {g : Grouping K} {n : ℕ} (order : Schedule)

lemma columns_eq {size : ℕ} (pos : 0 < size) (cols : ℕ) : columns size cols = List.range cols :=
  cells_flatten pos cols

lemma storeRows_at {M : Type} {rows : List (ℕ × ℕ)} {cols : ℕ} (value : ℕ × ℕ → ℕ → M)
    (apart : ∀ p ∈ rows, ∀ q ∈ rows, p.2 = q.2 → p = q) {p : ℕ × ℕ} (there : p ∈ rows) {col : ℕ}
    (inside : col < cols) (before : ℕ × ℕ → M) :
    storeRows order rows (columns 8 cols) value before (p.2, col) = value p col := by
  unfold storeRows
  rw [columns_eq (by decide)]
  exact loop_grid_store rows (fun p => p.2) value (order.perm _) apart there inside before

variable [Field K]

/-- What the routes of a token add up to. -/
def tokenSum (g : Grouping K) (n : ℕ) (value : ℕ × ℕ → ℕ → K) (t : ℤ) (col : ℕ) : K :=
  ((g.rows n).map fun p => if g.routeTokens p.2 = t then value p col else 0).sum

lemma addRows_at {rows : List (ℕ × ℕ)} (all : rows.Perm (g.rows n)) {size cols : ℕ}
    (pos : 0 < size) (value : ℕ × ℕ → ℕ → K) (y : ℤ × ℕ → K) (t : ℤ) {col : ℕ}
    (inside : col < cols) :
    addRows g order rows (columns size cols) value y (t, col) =
      y (t, col) + tokenSum g n value t col := by
  unfold addRows tokenSum
  rw [columns_eq pos, ← (all.map _).sum_eq]
  exact loop_grid_add rows (fun p => g.routeTokens p.2) value (order.perm _) y t inside

end Launches

section Wmma

variable [Field K] [LinearOrder K] {e : Experts K} {g : Grouping K} (order : Schedule) {warps : ℕ}

omit [Field K] [LinearOrder K] in
lemma blocks_tiling (e : Experts K) (g : Grouping K) (pos : 0 < warps) (cols : ℕ) :
    Tiling e.nExperts g.count cols (fun expert row => g.segStarts expert + row)
      (g.blocks e warps cols) :=
  tiling_compact _ _ _ (splitCols_cut pos cols)

omit [Field K] [LinearOrder K] in
lemma rows_place {p : ℕ × ℕ} (there : p ∈ g.rows e.nExperts) :
    ∃ q ∈ segmentRows e.nExperts g.count, g.segStarts q.1 + q.2 = p.2 ∧ q.1 = p.1 := by
  obtain ⟨lt, start, stop, -⟩ := Grouping.mem_rows.mp there
  refine ⟨(p.1, p.2 - g.segStarts p.1), mem_segmentRows.mpr ⟨lt, ?_⟩, ?_, rfl⟩
  · unfold Grouping.count
    dsimp only
    omega
  · exact Nat.add_sub_cancel' start

omit [Field K] [LinearOrder K] in
lemma segments_apart : ∀ p ∈ segmentRows e.nExperts g.count,
    ∀ q ∈ segmentRows e.nExperts g.count,
      g.segStarts p.1 + p.2 = g.segStarts q.1 + q.2 → p = q := by
  intro p there q there' same
  obtain ⟨lt, inside⟩ := mem_segmentRows.mp there
  obtain ⟨lt', inside'⟩ := mem_segmentRows.mp there'
  have stop := (Grouping.segment_routes lt inside).1
  have stop' := (Grouping.segment_routes lt' inside').1
  have expert : p.1 = q.1 := Grouping.expert_unique (Nat.le_add_right ..) stop
    (same ▸ Nat.le_add_right ..) (same ▸ stop')
  rw [expert] at same
  exact Prod.ext expert (Nat.add_left_cancel same)

lemma iq1W13Wmma_at (pos : 0 < warps) (x : ℕ → Q8 K) (before : ℕ × ℕ → K) {p : ℕ × ℕ}
    (there : p ∈ g.rows e.nExperts) {col : ℕ} (inside : col < e.interDim) :
    iq1W13Wmma e g order warps x before (p.2, col) =
      let dot (blocks : ℕ → Byte) := ∑ k ∈ Finset.range e.dim, (x p.2).value 16 k *
        iq1Row e.books blocks e.dim (p.1 * e.interDim + col) k
      e.swiglu (dot e.w1Blocks) (dot e.w3Blocks) (g.routeWeights p.2) := by
  obtain ⟨q, among, route, expert⟩ := rows_place there
  have tiling := blocks_tiling e g pos e.interDim
  let value (q : ℕ × ℕ) (col : ℕ) : K :=
    let dot (blocks : ℕ → Byte) := ∑ k ∈ Finset.range e.dim,
      (x (g.segStarts q.1 + q.2)).value 16 k *
        iq1Row e.books blocks e.dim (q.1 * e.interDim + col) k
    e.swiglu (dot e.w1Blocks) (dot e.w3Blocks) (g.routeWeights (g.segStarts q.1 + q.2))
  unfold iq1W13Wmma
  rw [← route, ← expert]
  refine loop_grid_store _ (fun q => g.segStarts q.1 + q.2) value
    ((order.perm _).trans (tiling.map_perm ?_)) segments_apart among inside before
  intro b member i active within
  have place := tiling.place b member
  dsimp only [value]
  rw [tileAcc_eq b e.dimBlocks x active within, tileAcc_eq b e.dimBlocks x active within, place]

omit [LinearOrder K] in
lemma iq1W2Wmma_at (pos : 0 < warps) (hiddenQ : ℕ → Q8 K) (y : ℤ × ℕ → K) (t : ℤ) {col : ℕ}
    (inside : col < e.dim) : iq1W2Wmma e g order warps hiddenQ y (t, col) =
      y (t, col) + tokenSum g e.nExperts (fun p col => ∑ k ∈ Finset.range e.interDim,
        (hiddenQ p.2).value 16 k * iq1Row e.books e.w2Blocks e.interDim (p.1 * e.dim + col) k)
          t col := by
  have tiling := blocks_tiling e g pos e.dim
  let value (p : ℕ × ℕ) (col : ℕ) : K := ∑ k ∈ Finset.range e.interDim,
    (hiddenQ p.2).value 16 k * iq1Row e.books e.w2Blocks e.interDim (p.1 * e.dim + col) k
  unfold iq1W2Wmma tokenSum
  refine loop_grid_add (g.rows e.nExperts) (fun p => g.routeTokens p.2) value
    ((order.perm _).trans ?_) y t inside
  rw [← List.filter_flatMap, Grouping.rows,
    ← product_filterMap (segmentRows e.nExperts g.count) (List.range e.dim) g.tokenRow
      (fun q => ((g.routeTokens (g.segStarts q.1.1 + q.1.2), q.2),
        value (q.1.1, g.segStarts q.1.1 + q.1.2) q.2)) _ (fun s => decide (0 ≤ s.1.1)) ?_ ?_]
  · refine List.Perm.filter _ (tiling.map_perm ?_)
    intro b member i active within
    have place := tiling.place b member
    dsimp only [value]
    rw [tileAcc_eq b e.interBlocks hiddenQ active within, place]
  · intro q c p kept
    unfold Grouping.tokenRow at kept
    split at kept
    case isTrue token =>
      cases kept
      exact ⟨rfl, decide_eq_true token⟩
    case isFalse => cases kept
  · intro q c dropped
    unfold Grouping.tokenRow at dropped
    split at dropped
    case isTrue => cases dropped
    case isFalse none => exact decide_eq_false none

end Wmma

/-! ## Outputs -/

section Outputs

variable [Field K] [LinearOrder K]

/-- A quantiser of rows looks only at a row, and a factor comes out of it. -/
structure Homogeneous (n : ℕ) (act : (ℕ → K) → ℕ → K) : Prop where
  congr : ∀ {h h' : ℕ → K}, (∀ j < n, h j = h' j) → ∀ k < n, act h k = act h' k
  mul : ∀ (h : ℕ → K) (w : K) (k : ℕ), act (fun j => w * h j) k = w * act h k

omit [LinearOrder K] in
lemma homogeneous_id (n : ℕ) : Homogeneous n (id : (ℕ → K) → ℕ → K) :=
  ⟨fun same k lt => same k lt, fun _ _ _ => rfl⟩

lemma homogeneous_dequantized [IsStrictOrderedRing K] [FloorRing K] {n : ℕ} (p : ℕ) (small : p ≤ 5)
    (dvd : 2 ^ p ∣ n) : Homogeneous n (dequantized (2 ^ p) : (ℕ → K) → ℕ → K) where
  congr := by
    intro h h' same k lt
    have fits : 2 ^ p ≤ 32 := Nat.pow_le_pow_right (by decide) small
    have group (lane : ℕ) (inside : lane < 2 ^ p) :
        h (k / 2 ^ p * 2 ^ p + lane) = h' (k / 2 ^ p * 2 ^ p + lane) := by
      refine same _ ?_
      have block := block_lt dvd lt
      calc k / 2 ^ p * 2 ^ p + lane < k / 2 ^ p * 2 ^ p + 2 ^ p := Nat.add_lt_add_left inside _
        _ = (k / 2 ^ p + 1) * 2 ^ p := (Nat.succ_mul ..).symm
        _ ≤ n / 2 ^ p * 2 ^ p := Nat.mul_le_mul_right _ block
        _ = n := Nat.div_mul_cancel dvd
    have scale : groupScale (2 ^ p) (fun lane => h (k / 2 ^ p * 2 ^ p + lane)) =
        groupScale (2 ^ p) fun lane => h' (k / 2 ^ p * 2 ^ p + lane) := by
      unfold groupScale
      rw [warpDown_eq max fits fun lane inside => congrArg abs (group lane inside),
        warpDown_eq max fits fun _ _ => rfl]
    rw [dequantized_eq, dequantized_eq, scale, same k lt]
  mul h w k := dequantized_mul small h w k

variable (e : Experts K) (g : Grouping K) (up down : (ℕ → Byte) → ℕ → ℕ → ℕ → K)
  (actX actH : (ℕ → K) → ℕ → K)

/-- Gate and up of an expert for a row, which is quantised. -/
def gateUp (x : ℕ → K) (expert j : ℕ) : K × K :=
  let dot (blocks : ℕ → Byte) := ∑ k ∈ Finset.range e.dim,
    actX x k * up blocks e.dim (expert * e.interDim + j) k
  (dot e.w1Blocks, dot e.w3Blocks)

/-- The output of an expert. -/
def expertOut (x : ℕ → K) (expert col : ℕ) : K :=
  let hidden (j : ℕ) := e.swiglu (gateUp e up actX x expert j).1 (gateUp e up actX x expert j).2 1
  ∑ j ∈ Finset.range e.interDim, actH hidden j * down e.w2Blocks e.interDim (expert * e.dim + col) j

/-- The outputs of the routes of a token, with their weights. -/
def outputs (x : ℕ → K) (t col : ℕ) : K :=
  ∑ expert ∈ Finset.range e.nExperts,
    ∑ route ∈ Finset.Ico (g.segStarts expert) (g.segStarts (expert + 1)),
      if g.routeTokens route = t then
        g.routeWeights route * expertOut e up down actX actH (e.xRow x t) expert col
      else 0

variable {e g up down actX actH}

lemma weighted (homogeneous : Homogeneous e.interDim actH) {x h : ℕ → K} {weight : K}
    {expert : ℕ} (made : ∀ j < e.interDim, h j =
      e.swiglu (gateUp e up actX x expert j).1 (gateUp e up actX x expert j).2 weight) (col : ℕ) :
    ∑ j ∈ Finset.range e.interDim, actH h j * down e.w2Blocks e.interDim (expert * e.dim + col) j =
      weight * expertOut e up down actX actH x expert col := by
  unfold expertOut
  dsimp only
  rw [Finset.mul_sum]
  refine Finset.sum_congr rfl fun j member => ?_
  rw [← mul_assoc, ← homogeneous.mul]
  refine congrArg (· * _) (homogeneous.congr (fun i lt => ?_) j (Finset.mem_range.mp member))
  rw [made i lt]
  unfold Experts.swiglu
  ring

omit [LinearOrder K] in
lemma tokenSum_eq {n : ℕ} (value : ℕ × ℕ → ℕ → K) (t col : ℕ) : tokenSum g n value t col =
    ∑ expert ∈ Finset.range n,
      ∑ route ∈ Finset.Ico (g.segStarts expert) (g.segStarts (expert + 1)),
        if g.routeTokens route = t then value (expert, route) col else 0 := by
  unfold tokenSum Grouping.rows segmentRows
  rw [sum_filterMap, sum_flatMap]
  change ∑ expert ∈ Finset.range n, _ = _
  refine Finset.sum_congr rfl fun expert _ => ?_
  rw [Finset.sum_Ico_eq_sum_range, List.map_map]
  change ∑ ordinal ∈ Finset.range (g.count expert), _ = _
  refine Finset.sum_congr rfl fun ordinal _ => ?_
  unfold Grouping.tokenRow
  dsimp only [Function.comp]
  split
  case isTrue => rfl
  case isFalse none => exact (if_neg fun (token : _ = (t : ℤ)) => none (by omega)).symm

lemma tokenSum_outputs (homogeneous : Homogeneous e.interDim actH) {x : ℕ → K} {hidden : ℕ × ℕ → K}
    (made : ∀ p ∈ g.rows e.nExperts, ∀ j < e.interDim, hidden (p.2, j) =
      let row := gateUp e up actX (e.xRow x (g.routeTokens p.2)) p.1 j
      e.swiglu row.1 row.2 (g.routeWeights p.2)) (t col : ℕ) :
    tokenSum g e.nExperts (fun p col => ∑ j ∈ Finset.range e.interDim,
      actH (fun k => hidden (p.2, k)) j * down e.w2Blocks e.interDim (p.1 * e.dim + col) j) t col =
        outputs e g up down actX actH x t col := by
  unfold outputs
  rw [← tokenSum_eq fun p col =>
    g.routeWeights p.2 * expertOut e up down actX actH (e.xRow x t) p.1 col]
  refine congrArg List.sum (List.map_congr_left fun p there => ?_)
  dsimp only
  split
  case isTrue token => rw [weighted homogeneous (made p there), token]
  case isFalse => rfl

end Outputs

/-! ## The launchers -/

section Launchers

variable {e : Experts K} {g : Grouping K}

lemma launch_perm (g : Grouping K) (n : ℕ) (tile4 major : Bool) :
    (if major then g.routeMajor n else g.perExpert n).Perm (g.rows n) ∧
      (if tile4 then g.routeTile4 n else if major then g.routeMajor n else g.perExpert n).Perm
        (g.rows n) := by
  have route : (if major then g.routeMajor n else g.perExpert n).Perm (g.rows n) := by
    cases major
    · exact List.Perm.of_eq Grouping.perExpert_eq
    · exact Grouping.routeMajor_perm
  refine ⟨route, ?_⟩
  cases tile4
  · exact route
  · exact List.Perm.of_eq Grouping.routeTile4_eq

lemma routeSlots_at (order : Schedule) (stale : ℕ → ℤ) {p : ℕ × ℕ}
    (there : p ∈ segmentRows e.nExperts g.count) :
    g.routeSlotsFromSegments e.nExperts order stale (g.segStarts p.1 + p.2) = p.1 := by
  have among (q : ℕ × ℕ) (member : q ∈ order.run ((List.range e.nExperts ×ˢ
      List.range (g.maxCount e.nExperts)).filter fun p =>
        let route := g.segStarts p.1 + p.2
        decide (route < g.segStarts (p.1 + 1)) && decide (route < g.routes e.nExperts))) :
      q ∈ segmentRows e.nExperts g.count := by
    obtain ⟨grid, inside⟩ := List.mem_filter.mp ((order.perm _).mem_iff.mp member)
    have lt := List.mem_range.mp (List.pair_mem_product.mp grid).1
    rw [Bool.and_eq_true, decide_eq_true_eq] at inside
    refine mem_segmentRows.mpr ⟨lt, ?_⟩
    unfold Grouping.count
    omega
  obtain ⟨lt, inside⟩ := mem_segmentRows.mp there
  have route := Grouping.segment_routes lt inside
  have most : g.count p.1 ≤ g.maxCount e.nExperts := le_longest lt
  refine loop_store (fun q => g.segStarts q.1 + q.2) (fun q => (q.1 : ℤ))
    (fun q member same => segments_apart q (among q member) p there same) ?_ stale
  refine (order.perm _).mem_iff.mpr (List.mem_filter.mpr ⟨List.pair_mem_product.mpr
    ⟨List.mem_range.mpr lt, List.mem_range.mpr (Nat.lt_of_lt_of_le inside most)⟩, ?_⟩)
  rw [Bool.and_eq_true, decide_eq_true_eq, decide_eq_true_eq]
  exact route

/-- A list that has each route at most once, and every route with a token with its expert. -/
structure Covers (g : Grouping K) (n : ℕ) (rows : List (ℕ × ℕ)) : Prop where
  apart : ∀ p ∈ rows, ∀ q ∈ rows, p.2 = q.2 → p = q
  all : ∀ p ∈ g.rows n, p ∈ rows

lemma covers_tile8 : Covers g e.nExperts (g.routeTile8 e.nExperts) where
  apart := by
    rw [Grouping.routeTile8_eq]
    intro p member p' member' same
    obtain ⟨q, there, rfl⟩ := List.mem_map.mp member
    obtain ⟨q', there', rfl⟩ := List.mem_map.mp member'
    rw [segments_apart q there q' there' same]
  all p there := by
    rw [← Grouping.withToken_tile8] at there
    exact (List.mem_filter.mp there).1

lemma slotRows_made {slots : ℕ → ℤ} {n route : ℕ} {p : ℕ × ℕ} :
    (if slots route < 0 ∨ n ≤ slots route then none else some ((slots route).toNat, route)) =
      some p ↔ p.2 = route ∧ slots route = p.1 ∧ p.1 < n := by
  constructor
  · intro made
    split at made
    case isTrue => cases made
    case isFalse inside =>
      cases made
      dsimp only
      omega
  · rintro ⟨rfl, slot, lt⟩
    rw [if_neg (by omega), slot, Int.toNat_natCast]

lemma covers_slots (order : Schedule) (stale : ℕ → ℤ) : Covers g e.nExperts
    (g.slotRows e.nExperts (g.routeSlotsFromSegments e.nExperts order stale)) where
  apart p member p' member' same := by
    obtain ⟨route, -, made⟩ := List.mem_filterMap.mp member
    obtain ⟨route', -, made'⟩ := List.mem_filterMap.mp member'
    obtain ⟨rfl, slot, -⟩ := slotRows_made.mp made
    obtain ⟨rfl, slot', -⟩ := slotRows_made.mp made'
    rw [same, slot'] at slot
    exact Prod.ext (Int.ofNat.inj slot).symm same
  all p there := by
    obtain ⟨q, among, route, expert⟩ := rows_place there
    obtain ⟨lt, -, stop, -⟩ := Grouping.mem_rows.mp there
    have last := g.mono (show p.1 + 1 ≤ e.nExperts from lt)
    have slot := routeSlots_at order stale among
    rw [route, expert] at slot
    exact List.mem_filterMap.mpr ⟨p.2, List.mem_range.mpr (Nat.lt_of_lt_of_le stop last),
      slotRows_made.mpr ⟨rfl, slot, lt⟩⟩

variable [Field K] [LinearOrder K]

lemma no_outputs (up down : (ℕ → Byte) → ℕ → ℕ → ℕ → K) (actX actH : (ℕ → K) → ℕ → K)
    (none : g.routes e.nExperts = 0 ∨ g.maxCount e.nExperts = 0) (x : ℕ → K) (t col : ℕ) :
    outputs e g up down actX actH x t col = 0 := by
  refine Finset.sum_eq_zero fun expert member => ?_
  have lt := Finset.mem_range.mp member
  have most : g.count expert ≤ g.maxCount e.nExperts := le_longest lt
  have last := g.mono (show expert + 1 ≤ e.nExperts from lt)
  unfold Grouping.count at most
  unfold Grouping.routes at none
  rw [Finset.Ico_eq_empty (by omega), Finset.sum_empty]

variable (order : Schedule)

lemma iq1W13_at {rows : List (ℕ × ℕ)} (all : rows.Perm (g.rows e.nExperts)) (x : ℕ → K)
    (before : ℕ × ℕ → K) : ∀ p ∈ g.rows e.nExperts, ∀ j < e.interDim,
      iq1W13 e g order rows x before (p.2, j) =
        let row := gateUp e (iq1Row e.books) id (e.xRow x (g.routeTokens p.2)) p.1 j
        e.swiglu row.1 row.2 (g.routeWeights p.2) := by
  intro p there j inside
  have apart : ∀ p ∈ rows, ∀ q ∈ rows, p.2 = q.2 → p = q := fun p member q member' =>
    Grouping.rows_apart p (all.mem_iff.mp member) q (all.mem_iff.mp member')
  unfold iq1W13
  rw [storeRows_at order _ apart (all.mem_iff.mpr there) inside]
  dsimp only
  rw [iq1RowDot_eq e.dimBlocks, iq1RowDot_eq e.dimBlocks]
  rfl

omit [LinearOrder K] in
lemma iq1W2_at {rows : List (ℕ × ℕ)} (all : rows.Perm (g.rows e.nExperts)) (hidden : ℕ × ℕ → K)
    (y : ℤ × ℕ → K) (t : ℤ) {col : ℕ} (inside : col < e.dim) :
    iq1W2 e g order rows hidden y (t, col) =
      y (t, col) + tokenSum g e.nExperts (fun p col => ∑ j ∈ Finset.range e.interDim,
        hidden (p.2, j) * iq1Row e.books e.w2Blocks e.interDim (p.1 * e.dim + col) j) t col := by
  unfold iq1W2
  rw [addRows_at order all (by decide) _ y t inside]
  simp only [iq1RowDot_eq e.interBlocks]

omit [LinearOrder K] in
lemma iq1W2Q8_at {rows : List (ℕ × ℕ)} (all : rows.Perm (g.rows e.nExperts)) (hiddenQ : ℕ → Q8 K)
    (y : ℤ × ℕ → K) (t : ℤ) {col : ℕ} (inside : col < e.dim) :
    iq1W2Q8 e g order rows hiddenQ y (t, col) =
      y (t, col) + tokenSum g e.nExperts (fun p col => ∑ j ∈ Finset.range e.interDim,
        (hiddenQ p.2).value 16 j * iq1Row e.books e.w2Blocks e.interDim (p.1 * e.dim + col) j)
          t col := by
  unfold iq1W2Q8
  rw [addRows_at order all (by decide) _ y t inside]
  simp only [iq1RowDotQ8_eq e.interBlocks]

variable [FloorRing K]

lemma iq1QuantizeRouteRow_eq {token : ℤ} (there : 0 ≤ token) (x : ℕ → K) :
    iq1QuantizeRouteRow token x = quantizeQ8 16 x := by
  unfold iq1QuantizeRouteRow
  simp only [there, if_true]

variable [IsStrictOrderedRing K]

omit [IsStrictOrderedRing K] in
lemma iq1W13Wmma_hidden {warps : ℕ} (pos : 0 < warps) (x : ℕ → K) (before : ℕ × ℕ → K) :
    ∀ p ∈ g.rows e.nExperts, ∀ j < e.interDim,
      iq1W13Wmma e g order warps (fun route =>
          iq1QuantizeRouteRow (g.routeTokens route) (e.xRow x (g.routeTokens route))) before
          (p.2, j) =
        let row := gateUp e (iq1Row e.books) (dequantized 16) (e.xRow x (g.routeTokens p.2)) p.1 j
        e.swiglu row.1 row.2 (g.routeWeights p.2) := by
  intro p there j inside
  have token := (Grouping.mem_rows.mp there).2.2.2
  rw [iq1W13Wmma_at order pos _ before there inside, iq1QuantizeRouteRow_eq token]
  rfl

/-- What the quantiser of the tokens is with the switches. -/
def Iq1Switches.actX (s : Iq1Switches) : (ℕ → K) → ℕ → K :=
  if s.gemm && s.tileWorkspace && s.gemmW13 && s.xBuffers then dequantized 16 else id

def Iq1Switches.actH (s : Iq1Switches) : (ℕ → K) → ℕ → K :=
  if s.w2Q8 && s.hiddenBuffers then dequantized 16 else id

lemma moePrefillIq1Grouped_at (switches : Iq1Switches) (x : ℕ → K) (before : ℕ × ℕ → K)
    {t col : ℕ} (inside : col < e.dim) :
    moePrefillIq1Grouped e g order switches x before (t, col) =
      outputs e g (iq1Row e.books) (iq1Row e.books) switches.actX switches.actH x t col := by
  have sixteen : 2 ^ 4 ∣ e.interDim := dvd_trans (by decide) e.interBlocks
  have quantised : Homogeneous e.interDim (dequantized 16 : (ℕ → K) → ℕ → K) :=
    homogeneous_dequantized 4 (by decide) sixteen
  have warps : 0 < if switches.gemmNsplit = 2 then 2 else 4 := by
    split
    · decide
    · decide
  unfold moePrefillIq1Grouped
  dsimp only
  split
  case isTrue none => rw [no_outputs _ _ _ _ none]
  case isFalse =>
    generalize (switches.routeTile4 && decide (4 ≤ g.maxCount e.nExperts)) = tile4
    obtain ⟨route, all⟩ := launch_perm g e.nExperts tile4 (!tile4 && switches.routeMajor)
    generalize made : (if switches.gemm && switches.tileWorkspace && switches.gemmW13 &&
      switches.xBuffers then _ else _ : ℕ × ℕ → K) = hidden
    have hiddenAt : ∀ p ∈ g.rows e.nExperts, ∀ j < e.interDim, hidden (p.2, j) =
        let row := gateUp e (iq1Row e.books) switches.actX (e.xRow x (g.routeTokens p.2)) p.1 j
        e.swiglu row.1 row.2 (g.routeWeights p.2) := by
      unfold Iq1Switches.actX
      subst made
      split
      case isTrue => exact iq1W13Wmma_hidden order warps x before
      case isFalse => exact iq1W13_at order all x before
    unfold Iq1Switches.actH
    split
    case isTrue =>
      refine Eq.trans ?_ (tokenSum_outputs quantised hiddenAt t col)
      split
      case isTrue => exact (iq1W2Wmma_at order warps _ _ _ inside).trans (zero_add _)
      case isFalse => exact (iq1W2Q8_at order route _ _ _ inside).trans (zero_add _)
    case isFalse =>
      refine Eq.trans ?_ (tokenSum_outputs (homogeneous_id _) hiddenAt t col)
      exact (iq1W2_at order all _ _ _ inside).trans (zero_add _)

omit [IsStrictOrderedRing K] in
lemma q2W13_at {rows : List (ℕ × ℕ)} (covers : Covers g e.nExperts rows) (x : ℕ → K)
    (before : ℕ × ℕ → K × K) : ∀ p ∈ g.rows e.nExperts, ∀ j < e.interDim,
      q2W13 e order rows (fun route => quantizeQ8 32 fun k =>
          if 0 ≤ g.routeTokens route then e.xRow x (g.routeTokens route) k else 0) before
          (p.2, j) =
        gateUp e (iq2Row e.books) (dequantized 32) (e.xRow x (g.routeTokens p.2)) p.1 j := by
  intro p there j inside
  have token := (Grouping.mem_rows.mp there).2.2.2
  unfold q2W13
  rw [storeRows_at order _ covers.apart (covers.all p there) inside]
  simp only [token, if_true, iq2RowDot_eq e.dimBlocks]
  rfl

lemma moePrefillQ2Grouped_at (switches : Q2Switches) (x : ℕ → K) (staleSlots : ℕ → ℤ)
    (before : ℕ × ℕ → K × K) {t col : ℕ} (inside : col < e.dim) :
    moePrefillQ2Grouped e g order switches x staleSlots before (t, col) =
      outputs e g (iq2Row e.books) (q2kRow e.books) (dequantized 32) (dequantized 16) x t col := by
  have sixteen : 2 ^ 4 ∣ e.interDim := dvd_trans (by decide) e.interBlocks
  have quantised : Homogeneous e.interDim (dequantized 16 : (ℕ → K) → ℕ → K) :=
    homogeneous_dequantized 4 (by decide) sixteen
  unfold moePrefillQ2Grouped
  dsimp only
  split
  case isTrue none => rw [no_outputs _ _ _ _ none]
  case isFalse =>
    have covers : Covers g e.nExperts (if switches.w13ExpertTile then g.routeTile8 e.nExperts
        else g.slotRows e.nExperts (g.routeSlotsFromSegments e.nExperts order staleSlots)) := by
      split
      case isTrue => exact covers_tile8
      case isFalse => exact covers_slots order staleSlots
    have gateUpAt := q2W13_at order covers x before
    generalize q2W13 e order _ _ before = gateUps at gateUpAt ⊢
    let hidden (q : ℕ × ℕ) : K := e.swiglu (gateUps q).1 (gateUps q).2 (g.routeWeights q.1)
    have hiddenAt : ∀ p ∈ g.rows e.nExperts, ∀ j < e.interDim, hidden (p.2, j) =
        let row := gateUp e (iq2Row e.books) (dequantized 32) (e.xRow x (g.routeTokens p.2)) p.1 j
        e.swiglu row.1 row.2 (g.routeWeights p.2) := by
      intro p there j within
      dsimp only [hidden]
      rw [gateUpAt p there j within]
    refine Eq.trans ?_ (tokenSum_outputs quantised hiddenAt t col)
    have tile8 : (g.withToken (g.routeTile8 e.nExperts)).Perm (g.rows e.nExperts) :=
      List.Perm.of_eq Grouping.withToken_tile8
    split
    case isTrue =>
      unfold q2W2ExpertTile
      rw [addRows_at order tile8 (by decide) _ _ _ inside]
      refine (zero_add _).trans ?_
      simp only [q2kRowDotTile_eq e.interBlocks _ _ _ (Nat.mod_lt _ (by decide : 0 < 8))]
      rfl
    case isFalse =>
      have each {rows : List (ℕ × ℕ)} (all : rows.Perm (g.rows e.nExperts)) :
          q2W2 e g order rows (fun route => quantizeQ8 16 fun k => hidden (route, k))
            (fun _ => 0) (t, col) = tokenSum g e.nExperts (fun p col =>
              ∑ j ∈ Finset.range e.interDim, dequantized 16 (fun k => hidden (p.2, k)) j *
                q2kRow e.books e.w2Blocks e.interDim (p.1 * e.dim + col) j) t col := by
        unfold q2W2
        rw [addRows_at order all (by decide) _ _ _ inside]
        refine (zero_add _).trans ?_
        simp only [q2kRowDot_eq e.interBlocks]
        rfl
      split
      case isTrue => exact each tile8
      case isFalse => exact each (List.Perm.of_eq Grouping.perExpert_eq)

end Launchers

/-- Every variant gives a token the outputs of its routes with their weights, for the numbers as the
quantisers of the variant leave them; and the search finds the one expert of a route. -/
theorem moePrefillGrouped_outputs [Field K] [LinearOrder K] [IsStrictOrderedRing K] [FloorRing K]
    (e : Experts K) (g : Grouping K) (order : Schedule) (x : ℕ → K) {t col : ℕ}
    (inside : col < e.dim) :
    (∀ (switches : Iq1Switches) (before : ℕ × ℕ → K),
      moePrefillIq1Grouped e g order switches x before (t, col) =
        outputs e g (iq1Row e.books) (iq1Row e.books) switches.actX switches.actH x t col) ∧
    (∀ (switches : Q2Switches) (staleSlots : ℕ → ℤ) (before : ℕ × ℕ → K × K),
      moePrefillQ2Grouped e g order switches x staleSlots before (t, col) =
        outputs e g (iq2Row e.books) (q2kRow e.books) (dequantized 32) (dequantized 16) x t col) ∧
    ∀ route expert : ℕ, g.iq1GroupedRouteExpert e.nExperts route = some expert ↔
      expert < e.nExperts ∧ g.segStarts expert ≤ route ∧ route < g.segStarts (expert + 1) :=
  ⟨fun switches before => moePrefillIq1Grouped_at order switches x before inside,
    fun switches staleSlots before => moePrefillQ2Grouped_at order switches x staleSlots before
      inside,
    fun _ _ => Grouping.iq1GroupedRouteExpert_iff⟩

/-- Two experts with zeros as blocks. -/
def zeroExperts : Experts ℚ where
  nExperts := 2
  dim := 256
  interDim := 256
  dimBlocks := by decide
  interBlocks := by decide
  w1Blocks _ := 0
  w2Blocks _ := 0
  w3Blocks _ := 0
  books := { half := fun _ => 1, iq1Grid := fun _ => 1, iq2xxsGrid := fun _ => 1 }
  swigluLimit := 0
  expf _ := 1

/-- The first expert has a route without a token and one with, the second has none. -/
def twoRoutes : Grouping ℚ where
  segStarts expert := 2 * min expert 1
  mono a b le := by
    dsimp only
    omega
  routeTokens route := route - 1
  routeWeights _ := 3

/-- Tiles for gate and up, and single routes for the rest. -/
def tileSwitches : Iq1Switches where
  routeTile4 := true
  routeMajor := true
  w2Q8 := true
  gemm := true
  gemmW13 := true
  gemmW2 := false
  gemmNsplit := 2
  hiddenBuffers := true
  tileWorkspace := true
  xBuffers := true

theorem moePrefillGrouped_outputs_twoRoutes :
    moePrefillIq1Grouped zeroExperts twoRoutes ⟨List.reverse, List.reverse_perm⟩ tileSwitches
        (fun _ => 1) (fun _ => 0) ((0 : ℕ), 5) =
      outputs zeroExperts twoRoutes (iq1Row zeroExperts.books) (iq1Row zeroExperts.books)
        tileSwitches.actX tileSwitches.actH (fun _ => 1) 0 5 ∧
    moePrefillQ2Grouped zeroExperts twoRoutes ⟨List.reverse, List.reverse_perm⟩ ⟨false, true, true⟩
        (fun _ => 1) (fun _ => 7) (fun _ => (0, 0)) ((0 : ℕ), 5) =
      outputs zeroExperts twoRoutes (iq2Row zeroExperts.books) (q2kRow zeroExperts.books)
        (dequantized 32) (dequantized 16) (fun _ => 1) 0 5 := by
  obtain ⟨iq1, q2, -⟩ := moePrefillGrouped_outputs zeroExperts twoRoutes
    ⟨List.reverse, List.reverse_perm⟩ (fun _ => 1) (show 5 < zeroExperts.dim by decide) (t := 0)
  exact ⟨iq1 _ _, q2 _ _ _⟩

end PocketMoE.Engine.GgufMoe
