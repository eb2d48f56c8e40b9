import PocketMoE.Engine.GgufDots

/-!
# Grouped prefill of GGUF experts

Model of `moe_prefill_iq1_grouped_cuda_with_workspace` (`iq1_ops.cu`) and
`moe_prefill_q2_grouped_cuda_with_workspace` (`q2_ops.cu`) with the kernels that they launch. A
launch is a list of the experts and routes that its warps work on, and their columns; threads that
store or do an atomic operation run in some order. The buffers that a launcher requires are there.
-/

namespace PocketMoE.Engine.GgufMoe

open PocketMoE.Lib PocketMoE.Loader.Python

variable {K : Type} [Field K] [LinearOrder K]

/-- The experts of a layer: blocks of the three matrices, expert after expert, row after row. -/
structure Experts (K : Type) where
  nExperts : ℕ
  dim : ℕ
  interDim : ℕ
  dimBlocks : 256 ∣ dim
  interBlocks : 256 ∣ interDim
  w1Blocks : ℕ → Byte
  w2Blocks : ℕ → Byte
  w3Blocks : ℕ → Byte
  books : Codebooks K
  swigluLimit : K
  expf : K → K

/-- The routes of a chunk, expert after expert. -/
structure Grouping (K : Type) where
  segStarts : ℕ → ℕ
  mono : Monotone segStarts
  routeTokens : ℕ → ℤ
  routeWeights : ℕ → K

/-- `(g / (1 + exp(-g))) * u * route_weight`, of limited numbers. -/
def Experts.swiglu (e : Experts K) (gate up routeWeight : K) : K :=
  let limit := e.swigluLimit
  let u := if 0 < limit then min (max up (-limit)) limit else up
  let g := if 0 < limit then min gate limit else gate
  g / (1 + e.expf (-g)) * u * routeWeight

/-! ## The work of a launch -/

section Work

variable (g : Grouping K) (n : ℕ)

namespace Grouping

def count (expert : ℕ) : ℕ := g.segStarts (expert + 1) - g.segStarts expert

/-- `routes`, the end of the last segment. -/
def routes : ℕ := g.segStarts n

/-- `max_count` -/
def maxCount : ℕ := longest n g.count

/-- A block of 8 columns for each expert and each route of the longest segment. -/
def perExpert : List (ℕ × ℕ) :=
  (List.range n ×ˢ List.range (g.maxCount n)).filterMap fun p =>
    let route := g.segStarts p.1 + p.2
    if p.2 < g.count p.1 ∧ route < g.routes n ∧ 0 ≤ g.routeTokens route then some (p.1, route)
    else none

/-- `iq1_grouped_route_expert` -/
def iq1GroupedRouteExpert (route : ℕ) : Option ℕ :=
  let lo := lastStart g.segStarts route 0 n
  if n ≤ lo ∨ route < g.segStarts lo ∨ g.segStarts (lo + 1) ≤ route then none else some lo

/-- A block of 8 columns for each route. -/
def routeMajor : List (ℕ × ℕ) :=
  (List.range (g.routes n)).filterMap fun route =>
    match g.iq1GroupedRouteExpert n route with
    | none => none
    | some expert => if 0 ≤ g.routeTokens route then some (expert, route) else none

/-- `iq1_moe_grouped_w13_swiglu_tile4_kernel` and `iq1_moe_grouped_w2_tile4_kernel`: four routes a
block, those that are `valid`. -/
def routeTile4 : List (ℕ × ℕ) :=
  (List.range n ×ˢ List.range (cdiv (g.maxCount n) 4)).flatMap fun p =>
    let routeBaseOrdinal := p.2 * 4
    if g.maxCount n ≤ routeBaseOrdinal then []
    else (List.range 4).filterMap fun r =>
      let route := g.segStarts p.1 + routeBaseOrdinal + r
      if routeBaseOrdinal + r < g.count p.1 ∧ route < g.routes n ∧ 0 ≤ g.routeTokens route then
        some (p.1, route)
      else none

/-- The kernels with eight routes a block: the `valid_rows` of each. -/
def routeTile8 : List (ℕ × ℕ) :=
  (List.range n ×ˢ List.range (cdiv (g.maxCount n) 8)).flatMap fun p =>
    let routeStart := g.segStarts p.1 + p.2 * 8
    let validRows := min 8 (g.segStarts (p.1 + 1) - routeStart)
    (List.range validRows).map fun r => (p.1, routeStart + r)

/-- Those with a token. -/
def withToken (rows : List (ℕ × ℕ)) : List (ℕ × ℕ) :=
  rows.filter fun p => decide (0 ≤ g.routeTokens p.2)

/-- `q2_route_slots_from_segments_kernel` -/
def routeSlotsFromSegments (order : Schedule) (stale : ℕ → ℤ) : ℕ → ℤ :=
  loop (order.run ((List.range n ×ˢ List.range (g.maxCount n)).filter fun p =>
      let route := g.segStarts p.1 + p.2
      decide (route < g.segStarts (p.1 + 1)) && decide (route < g.routes n)))
    (fun p slots => Function.update slots (g.segStarts p.1 + p.2) p.1) stale

/-- A block of 8 columns for each route, with its expert in `route_slots`. -/
def slotRows (routeSlots : ℕ → ℤ) : List (ℕ × ℕ) :=
  (List.range (g.routes n)).filterMap fun route =>
    let expert := routeSlots route
    if expert < 0 ∨ n ≤ expert then none else some (expert.toNat, route)

end Grouping

/-- The columns of blocks of `size`. -/
def columns (size cols : ℕ) : List ℕ := (List.range (cdiv cols size)).flatMap (cells size cols)

variable (order : Schedule)

/-- Store a value for each route and column. -/
def storeRows {M : Type} (rows : List (ℕ × ℕ)) (cols : List ℕ) (value : ℕ × ℕ → ℕ → M)
    (before : ℕ × ℕ → M) : ℕ × ℕ → M :=
  loop (order.run ((rows ×ˢ cols).map fun q => ((q.1.2, q.2), value q.1 q.2)))
    (fun s m => Function.update m s.1 s.2) before

/-- Add a value for each route and column to the row of the token. -/
def addRows (rows : List (ℕ × ℕ)) (cols : List ℕ) (value : ℕ × ℕ → ℕ → K) (y : ℤ × ℕ → K) :
    ℤ × ℕ → K :=
  loop (order.run ((rows ×ˢ cols).map fun q => ((g.routeTokens q.1.2, q.2), value q.1 q.2)))
    (fun s y => Function.update y s.1 (y s.1 + s.2)) y

end Work

/-! ## IQ1_M -/

section Iq1

variable (e : Experts K) (g : Grouping K) (order : Schedule)

/-- What the environment and the workspace say: the values of `DSV4_IQ1_GROUPED_...`, and whether
the buffers are there for quantised hidden rows, for tiles and for quantised tokens. -/
structure Iq1Switches where
  routeTile4 : Bool
  routeMajor : Bool
  w2Q8 : Bool
  gemm : Bool
  gemmW13 : Bool
  gemmW2 : Bool
  gemmNsplit : ℤ
  hiddenBuffers : Bool
  tileWorkspace : Bool
  xBuffers : Bool

/-- The row of a token. -/
def Experts.xRow (x : ℕ → K) (token : ℤ) (k : ℕ) : K := x (token.toNat * e.dim + k)

/-- The kernels of gate and up without tiles of a tensor core. -/
def iq1W13 (rows : List (ℕ × ℕ)) (x : ℕ → K) : (ℕ × ℕ → K) → ℕ × ℕ → K :=
  storeRows order rows (columns 8 e.interDim) fun p col =>
    let row := e.xRow x (g.routeTokens p.2)
    let dot (blocks : ℕ → Byte) := iq1RowDot e.books row blocks e.dim (p.1 * e.interDim + col)
    e.swiglu (dot e.w1Blocks) (dot e.w3Blocks) (g.routeWeights p.2)

/-- The kernels of the last matrix without tiles, for numbers as they are. -/
def iq1W2 (rows : List (ℕ × ℕ)) (hidden : ℕ × ℕ → K) : (ℤ × ℕ → K) → ℤ × ℕ → K :=
  addRows g order rows (columns 8 e.dim) fun p col =>
    iq1RowDot e.books (fun k => hidden (p.2, k)) e.w2Blocks e.interDim (p.1 * e.dim + col)

/-- And for quantised numbers. -/
def iq1W2Q8 (rows : List (ℕ × ℕ)) (hiddenQ : ℕ → Q8 K) : (ℤ × ℕ → K) → ℤ × ℕ → K :=
  addRows g order rows (columns 8 e.dim) fun p col =>
    iq1RowDotQ8 e.books (hiddenQ p.2) e.w2Blocks e.interDim (p.1 * e.dim + col)

/-- The blocks of the tile kernels. -/
def Grouping.blocks (warps cols : ℕ) : List Block :=
  compactBlocks e.nExperts g.count g.segStarts (splitCols warps cols)

/-- `iq1_moe_grouped_w13_q8_wmma_compact_nsplit_kernel` -/
def iq1W13Wmma (warps : ℕ) (x : ℕ → Q8 K) (before : ℕ × ℕ → K) : ℕ × ℕ → K :=
  loop (order.run ((g.blocks e warps e.interDim).flatMap fun b => (b.lanes e.interDim).map fun i =>
      let route := b.place (b.row i)
      let acc (blocks : ℕ → Byte) := tileAcc b e.books x blocks e.interDim e.dim i
      ((route, b.col i), e.swiglu (acc e.w1Blocks) (acc e.w3Blocks) (g.routeWeights route))))
    (fun s hidden => Function.update hidden s.1 s.2) before

/-- `iq1_moe_grouped_w2_q8_wmma_compact_nsplit_kernel` -/
def iq1W2Wmma (warps : ℕ) (hiddenQ : ℕ → Q8 K) (y : ℤ × ℕ → K) : ℤ × ℕ → K :=
  loop (order.run ((g.blocks e warps e.dim).flatMap fun b => ((b.lanes e.dim).map fun i =>
      ((g.routeTokens (b.place (b.row i)), b.col i),
        tileAcc b e.books hiddenQ e.w2Blocks e.dim e.interDim i)).filter fun s =>
          decide (0 ≤ s.1.1)))
    (fun s y => Function.update y s.1 (y s.1 + s.2)) y

variable [FloorRing K]

/-- `moe_prefill_iq1_grouped_cuda_with_workspace` -/
def moePrefillIq1Grouped (switches : Iq1Switches) (x : ℕ → K) (before : ℕ × ℕ → K) : ℤ × ℕ → K :=
  let n := e.nExperts
  let y : ℤ × ℕ → K := fun _ => 0
  if g.routes n = 0 ∨ g.maxCount n = 0 then y
  else
    let routeTile4 := switches.routeTile4 && decide (4 ≤ g.maxCount n)
    let routeMajor := !routeTile4 && switches.routeMajor
    let q8W2 := switches.w2Q8 && switches.hiddenBuffers
    let gemmEnabled := switches.gemm && switches.tileWorkspace
    let gemmW13 := gemmEnabled && switches.gemmW13 && switches.xBuffers
    let gemmW2 := gemmEnabled && switches.gemmW2 && q8W2
    let nsplit := if switches.gemmNsplit = 2 then 2 else 4
    let routeOrExpert := if routeMajor then g.routeMajor n else g.perExpert n
    let rows := if routeTile4 then g.routeTile4 n else routeOrExpert
    let hidden := if gemmW13 then
        iq1W13Wmma e g order nsplit (fun route =>
          iq1QuantizeRouteRow (g.routeTokens route) (e.xRow x (g.routeTokens route))) before
      else iq1W13 e g order rows x before
    if q8W2 then
      let hiddenQ (route : ℕ) := quantizeQ8 16 fun k => hidden (route, k)
      if gemmW2 then iq1W2Wmma e g order nsplit hiddenQ y
      else iq1W2Q8 e g order routeOrExpert hiddenQ y
    else iq1W2 e g order rows hidden y

end Iq1

/-! ## IQ2_XXS and Q2_K -/

section Q2

variable (e : Experts K) (g : Grouping K) (order : Schedule)

/-- `DSV4_Q2_PREFILL_...` -/
structure Q2Switches where
  w13ExpertTile : Bool
  w2ExpertTile : Bool
  w2RouteTile : Bool

/-- The kernels of gate and up. -/
def q2W13 (rows : List (ℕ × ℕ)) (x : ℕ → Q8 K) : (ℕ × ℕ → K × K) → ℕ × ℕ → K × K :=
  storeRows order rows (columns 8 e.interDim) fun p col =>
    let dot (blocks : ℕ → Byte) := iq2RowDot e.books (x p.2) blocks e.dim (p.1 * e.interDim + col)
    (dot e.w1Blocks, dot e.w3Blocks)

/-- `gguf_moe_grouped_w2_q2k_dp4a_kernel` and its kernel with eight routes a block. -/
def q2W2 (rows : List (ℕ × ℕ)) (hiddenQ : ℕ → Q8 K) : (ℤ × ℕ → K) → ℤ × ℕ → K :=
  addRows g order rows (columns 8 e.dim) fun p col =>
    q2kRowDot e.books (hiddenQ p.2) e.w2Blocks e.interDim (p.1 * e.dim + col)

/-- `gguf_moe_grouped_w2_q2k_dp4a_expert_tile_kernel`: 64 columns a block, eight a warp. -/
def q2W2ExpertTile (hiddenQ : ℕ → Q8 K) : (ℤ × ℕ → K) → ℤ × ℕ → K :=
  addRows g order (g.withToken (g.routeTile8 e.nExperts)) (columns 64 e.dim) fun p col =>
    q2kRowDotTile e.books (hiddenQ p.2) e.w2Blocks e.interDim (p.1 * e.dim + col) (col % 8)

variable [FloorRing K]

/-- `moe_prefill_q2_grouped_cuda_with_workspace` -/
def moePrefillQ2Grouped (switches : Q2Switches) (x : ℕ → K) (staleSlots : ℕ → ℤ)
    (before : ℕ × ℕ → K × K) : ℤ × ℕ → K :=
  let n := e.nExperts
  let y : ℤ × ℕ → K := fun _ => 0
  if g.routes n = 0 ∨ g.maxCount n = 0 then y
  else
    -- `gather_q2_route_rows_kernel`
    let xRoute (route : ℕ) (k : ℕ) : K :=
      if 0 ≤ g.routeTokens route then e.xRow x (g.routeTokens route) k else 0
    let xQ (route : ℕ) := quantizeQ8 32 (xRoute route)
    let routeSlots := g.routeSlotsFromSegments n order staleSlots
    let w13Rows := if switches.w13ExpertTile then g.routeTile8 n else g.slotRows n routeSlots
    let gateUp := q2W13 e order w13Rows xQ before
    -- `gguf_route_swiglu_quantize_hidden_16_kernel`
    let hiddenQ (route : ℕ) := quantizeQ8 16 fun k =>
      e.swiglu (gateUp (route, k)).1 (gateUp (route, k)).2 (g.routeWeights route)
    if switches.w2ExpertTile then q2W2ExpertTile e g order hiddenQ y
    else if switches.w2RouteTile then q2W2 e g order (g.withToken (g.routeTile8 n)) hiddenQ y
    else q2W2 e g order (g.perExpert n) hiddenQ y

end Q2

end PocketMoE.Engine.GgufMoe
