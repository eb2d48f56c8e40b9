import PocketMoE.Lib.BitField
import PocketMoE.Lib.Segments

/-!
# Tiles of the routes of experts

The tensor-core kernels of the grouped experts work on blocks of 16 rows and 16 columns: the rows
are routes of one expert. A block has its rows in the buffers somewhere (`Block.place`) and leaves
out those behind the last route (`Block.there`). The blocks of a launch have every row and column
once (`Tiling`).
-/

namespace PocketMoE.Engine

open PocketMoE.Lib

/-- A block of the tile kernels: which rows there are, and where a row stands in the buffers. -/
structure Block where
  expert : ℕ
  rowBase : ℕ
  colBase : ℕ
  there : ℕ → Bool
  place : ℕ → ℕ

namespace Block

variable (b : Block)

/-- The row and the column of a lane. -/
def row (i : ℕ) : ℕ := b.rowBase + i / 16

def col (i : ℕ) : ℕ := b.colBase + i % 16

/-- The lanes that write. -/
def lanes (cols : ℕ) : List ℕ :=
  (List.range 256).filter fun i => b.there (b.row i) && decide (b.col i < cols)

end Block

/-- `mma_sync` at a lane, with `b` in columns. -/
def mma (a b c : ℕ → ℤ) (i : ℕ) : ℤ :=
  c i + ∑ k ∈ Finset.range 16, a (i / 16 * 16 + k) * b (k + i % 16 * 16)

/-- The first columns of the tiles of columns, one a block. -/
def tileCols (cols : ℕ) : List ℕ := (List.range (cdiv cols 16)).map (· * 16)

/-- The same for `warps` of them a block. -/
def splitCols (warps cols : ℕ) : List ℕ :=
  (List.range (cdiv cols (16 * warps))).flatMap fun block =>
    (List.range warps).map fun warp => block * (16 * warps) + warp * 16

lemma tileCols_cut (cols : ℕ) : (tileCols cols).flatMap (cut 16 (· < cols)) = List.range cols := by
  unfold tileCols
  rw [List.flatMap_map]
  exact cells_flatten (by decide) cols

lemma splitCols_cut {warps : ℕ} (pos : 0 < warps) (cols : ℕ) :
    (splitCols warps cols).flatMap (cut 16 (· < cols)) = List.range cols := by
  have wide : 0 < 16 * warps := Nat.mul_pos (by decide) pos
  rw [← cells_flatten wide cols]
  unfold splitCols
  rw [List.flatMap_assoc]
  refine List.flatMap_congr fun block _ => ?_
  -- the tiles of the warps make up the columns of the block
  have parts := flatMap_range warps (by decide : 0 < 16) fun warp n =>
    block * (warps * 16) + (warp * 16 + n)
  have whole (i : ℕ) : i / 16 * 16 + i % 16 = i := by omega
  simp only [whole] at parts
  rw [List.flatMap_map, cells, Nat.mul_comm 16, ← parts, List.filter_flatMap]
  refine List.flatMap_congr fun warp _ => ?_
  unfold cut
  simp only [Nat.add_assoc]

/-- The blocks of compact tiles: one of `h_tile_experts` and `h_tile_rows`, and one of columns. -/
def compactBlocks (n : ℕ) (count starts : ℕ → ℕ) (colBases : List ℕ) : List Block :=
  (rowTiles n count ×ˢ colBases).map fun p =>
    { expert := p.1.1, rowBase := p.1.2, colBase := p.2
      there := fun row => decide (row < count p.1.1)
      place := fun row => starts p.1.1 + row }

/-- Blocks that have the rows of all experts and all columns, once. -/
structure Tiling (n : ℕ) (count : ℕ → ℕ) (cols : ℕ) (place : ℕ → ℕ → ℕ) (blocks : List Block) :
    Prop where
  place : ∀ b ∈ blocks, b.place = place b.expert
  cells : (blocks.flatMap fun b => (b.lanes cols).map fun i =>
    ((b.expert, b.row i), b.col i)).Perm (segmentRows n count ×ˢ List.range cols)

lemma lanes_cut (b : Block) (cols : ℕ) : (b.lanes cols).map (fun i => (b.row i, b.col i)) =
    cut 16 b.there b.rowBase ×ˢ cut 16 (· < cols) b.colBase := by
  have lanes : (List.range 256).map (fun i => (i / 16, i % 16)) = List.range 16 ×ˢ List.range 16 :=
    (flatMap_range 16 (by decide) Prod.mk).symm
  unfold cut
  rw [← product_filter, ← product_map, ← lanes, List.map_map, List.filter_map]
  rfl

lemma tiling_of {n cols : ℕ} {count : ℕ → ℕ} {place : ℕ → ℕ → ℕ} {tiles : List (ℕ × ℕ)}
    {colBases : List ℕ} {block : (ℕ × ℕ) × ℕ → Block}
    (made : ∀ p, (block p).expert = p.1.1 ∧ (block p).rowBase = p.1.2 ∧ (block p).colBase = p.2 ∧
      (block p).place = place p.1.1)
    (there : ∀ t ∈ tiles, ∀ c row, (block (t, c)).there row = decide (row < count t.1))
    (rows : tiles.flatMap (fun t => (cut 16 (· < count t.1) t.2).map (Prod.mk t.1)) =
      segmentRows n count)
    (columns : colBases.flatMap (cut 16 (· < cols)) = List.range cols) :
    Tiling n count cols place ((tiles ×ˢ colBases).map block) where
  place := by
    intro b member
    obtain ⟨p, -, rfl⟩ := List.mem_map.mp member
    obtain ⟨expert, -, -, eq⟩ := made p
    rw [eq, expert]
  cells := by
    have lanes : ∀ p ∈ tiles ×ˢ colBases, ((block p).lanes cols).map (fun i =>
        (((block p).expert, (block p).row i), (block p).col i)) =
        (cut 16 (· < count p.1.1) p.1.2).map (Prod.mk p.1.1) ×ˢ cut 16 (· < cols) p.2 := by
      rintro ⟨t, c⟩ member
      have member := (List.pair_mem_product.mp member).1
      obtain ⟨expert, rowBase, colBase, -⟩ := made (t, c)
      have lane := congrArg (List.map fun q : ℕ × ℕ => ((t.1, q.1), q.2))
        (lanes_cut (block (t, c)) cols)
      rw [List.map_map, funext (there t member c), rowBase, colBase,
        product_map _ _ (Prod.mk t.1) fun col => col, List.map_id'] at lane
      rw [expert]
      exact lane
    rw [List.flatMap_map, List.flatMap_congr lanes, ← rows, ← columns]
    exact flatMap_product_perm tiles colBases
      (fun t => (cut 16 (· < count t.1) t.2).map (Prod.mk t.1)) (cut 16 (· < cols))

lemma tiling_compact (n : ℕ) (count starts : ℕ → ℕ) {cols : ℕ} {colBases : List ℕ}
    (columns : colBases.flatMap (cut 16 (· < cols)) = List.range cols) :
    Tiling n count cols (fun expert row => starts expert + row)
      (compactBlocks n count starts colBases) :=
  tiling_of (fun _ => ⟨rfl, rfl, rfl, rfl⟩) (fun _ _ _ _ => rfl) rowTiles_rows columns

lemma Tiling.map_perm {n cols : ℕ} {count : ℕ → ℕ} {place : ℕ → ℕ → ℕ} {blocks : List Block}
    {β : Type} (tiling : Tiling n count cols place blocks)
    {f : Block → ℕ → β} {g : (ℕ × ℕ) × ℕ → β}
    (same : ∀ b ∈ blocks, ∀ i, b.there (b.row i) → b.col i < cols →
      f b i = g ((b.expert, b.row i), b.col i)) :
    (blocks.flatMap fun b => (b.lanes cols).map (f b)).Perm
      ((segmentRows n count ×ˢ List.range cols).map g) := by
  have lanes : (blocks.flatMap fun b => (b.lanes cols).map (f b)) =
      (blocks.flatMap fun b => (b.lanes cols).map fun i =>
        ((b.expert, b.row i), b.col i)).map g := by
    rw [List.map_flatMap]
    refine List.flatMap_congr fun b member => ?_
    rw [List.map_map]
    refine List.map_congr_left fun i lane => ?_
    have active := (List.mem_filter.mp lane).2
    rw [Bool.and_eq_true, decide_eq_true_eq] at active
    exact same b member i active.1 active.2
  rw [lanes]
  exact tiling.cells.map g

end PocketMoE.Engine
