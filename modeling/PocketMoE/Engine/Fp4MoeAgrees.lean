import PocketMoE.Engine.Fp4Moe

/-!
# Grouped prefill and single tokens agree

Each of the tile kernels covers the rows of all routes and all columns, once (`Tiling`). The routes
of an expert are its entries in some order, so that the additions to the row of a token are those of
the single-token kernels (`moePrefillFp4Grouped_eq`).
-/

namespace PocketMoE.Engine.Fp4Moe

open PocketMoE.Lib

variable {K : Type} [Field K] [LinearOrder K]

/-! ## A row of codes -/

/-- The code at a place of a row, doubled. -/
def codeAt (wq : ℕ → BitVec 8) (rowBytes kk : ℕ) : ℤ :=
  let byte := wq (rowBytes + kk / 2)
  fp4DecodeCodeX2 (if kk % 2 = 1 then byte >>> 4 else byte &&& 0x0f#8)

/-- The product with a row of an expert's matrix. -/
def rowDot (x : ℕ → BitVec 8) (wq ws : ℕ → BitVec 8) (cols width expert col : ℕ) : K :=
  ∑ kb ∈ Finset.range (width / 32),
    ((∑ k ∈ Finset.range 32, (x (kb * 32 + k)).toInt *
      codeAt wq ((expert * cols + col) * (width / 2)) (kb * 32 + k) : ℤ) : K) *
        fp4BlockScale (ws ((expert * cols + col) * (width / 32) + kb))

lemma lane_bytePerm (x y s : BitVec 32) {j : ℕ} (lt : j < 4) : lane (bytePerm x y s) j =
    if (nibble s j).toNat % 8 < 4 then lane x ((nibble s j).toNat % 8)
    else lane y ((nibble s j).toNat % 8 - 4) :=
  lane_pack4 _ lt

lemma nibble_twoBytes (low high : BitVec 8) {j : ℕ} (lt : j < 4) :
    nibble ((high ++ low).setWidth 32) j =
      (if j < 2 then low else high).extractLsb' (4 * (j % 2)) 4 := by
  apply BitVec.eq_of_getLsbD_eq
  intro i hi
  unfold nibble
  have inside : 4 * j + i < 32 := by omega
  simp only [BitVec.getLsbD_extractLsb', BitVec.getLsbD_setWidth, BitVec.getLsbD_append, hi, inside,
    decide_true, Bool.true_and]
  interval_cases j
  · rw [if_pos (by omega)]
    rfl
  · rw [if_pos (by omega)]
    rfl
  · rw [if_neg (by omega)]
    exact congrArg high.getLsbD (by omega)
  · rw [if_neg (by omega)]
    exact congrArg high.getLsbD (by omega)

lemma nibble_mags (w : BitVec 32) {j : ℕ} (lt : j < 4) :
    nibble (w &&& 0x7777#32) j = nibble w j &&& 7#4 := by
  rw [nibble_and]
  have mask : ∀ j < 4, nibble 0x7777#32 j = 7#4 := by decide
  rw [mask j lt]

lemma nibble_sign (w : BitVec 32) {j : ℕ} (lt : j < 4) :
    nibble ((w >>> 3) &&& 0x1111#32) j = (nibble w j >>> 3) &&& 1#4 := by
  have mask : ∀ j < 4, nibble 0x1111#32 j = 1#4 := by decide
  rw [nibble_and, mask j lt]
  apply BitVec.eq_of_getLsbD_eq
  intro i hi
  unfold nibble
  interval_cases i
  · have place : 3 + 4 * j = 4 * j + 3 := by omega
    simp [place]
  · simp
  · simp
  · simp

/-- The bytes picked by four bits. -/
def picked (v : BitVec 4) : BitVec 8 :=
  let pick (x y : BitVec 32) (s : BitVec 4) : BitVec 8 :=
    if s.toNat % 8 < 4 then lane x (s.toNat % 8) else lane y (s.toNat % 8 - 4)
  let mask := pick 0x0000ff00#32 0#32 ((v >>> 3) &&& 1#4)
  (pick 0x03020100#32 0x0c080604#32 (v &&& 7#4) &&& ~~~mask) |||
    (pick 0xfdfeff00#32 0xf4f8fafc#32 (v &&& 7#4) &&& mask)

lemma toInt_picked : ∀ v : BitVec 4, (picked v).toInt = fp4LutX2.getD v.toNat 0 := by decide

lemma lane_unpack (w : BitVec 32) {j : ℕ} (lt : j < 4) :
    lane (fp4Unpack4CodesPrmt w) j = picked (nibble w j) := by
  unfold fp4Unpack4CodesPrmt picked
  dsimp only
  rw [lane_or, lane_and, lane_and, lane_not _ lt, lane_bytePerm _ _ _ lt, lane_bytePerm _ _ _ lt,
    lane_bytePerm _ _ _ lt, nibble_mags w lt, nibble_sign w lt]

lemma decode_low : ∀ b : BitVec 8,
    fp4LutX2.getD (b.extractLsb' 0 4).toNat 0 = fp4DecodeCodeX2 (b &&& 0x0f#8) := by decide

lemma decode_high : ∀ b : BitVec 8,
    fp4LutX2.getD (b.extractLsb' 4 4).toNat 0 = fp4DecodeCodeX2 (b >>> 4) := by decide

lemma toInt_unpack (wq : ℕ → BitVec 8) (rowBytes pack : ℕ) {j : ℕ} (lt : j < 4) :
    (lane (fp4Unpack4CodesPrmt
      ((wq (rowBytes + 2 * pack + 1) ++ wq (rowBytes + 2 * pack)).setWidth 32)) j).toInt =
        codeAt wq rowBytes (4 * pack + j) := by
  rw [lane_unpack _ lt, toInt_picked, nibble_twoBytes _ _ lt, codeAt]
  have odd : (4 * pack + j) % 2 = j % 2 := by omega
  have place : (4 * pack + j) / 2 = 2 * pack + j / 2 := by omega
  rw [odd, place]
  interval_cases j
  · exact decode_low _
  · exact decode_high _
  · exact decode_low _
  · exact decode_high _

lemma dp4a_unpack (x wq : ℕ → BitVec 8) (rowBytes kb ip : ℕ) (acc : ℤ) :
    dp4a (pack4 fun j => x (4 * (kb * 8 + ip) + j)) (fp4Unpack4CodesPrmt
      ((wq (rowBytes + 2 * (kb * 8 + ip) + 1) ++ wq (rowBytes + 2 * (kb * 8 + ip))).setWidth 32))
        acc =
      acc + ∑ j ∈ Finset.range 4, (x (kb * 32 + (ip * 4 + j))).toInt *
        codeAt wq rowBytes (kb * 32 + (ip * 4 + j)) := by
  refine congrArg (acc + ·) (Finset.sum_congr rfl fun j member => ?_)
  have lt := Finset.mem_range.mp member
  have place : 4 * (kb * 8 + ip) + j = kb * 32 + (ip * 4 + j) := by omega
  rw [lane_pack4 _ lt, toInt_unpack _ _ _ lt, place]

omit [LinearOrder K] in
lemma singleDot_eq (x wq ws : ℕ → BitVec 8) (cols width expert col : ℕ) :
    singleDot x wq ws cols width expert col = (rowDot x wq ws cols width expert col : K) := by
  have block (rowBytes kb : ℕ) : ∑ ip ∈ Finset.range 8, ∑ j ∈ Finset.range 4,
      (x (kb * 32 + (ip * 4 + j))).toInt * codeAt wq rowBytes (kb * 32 + (ip * 4 + j)) =
        ∑ k ∈ Finset.range 32, (x (kb * 32 + k)).toInt * codeAt wq rowBytes (kb * 32 + k) :=
    sum_parts (fun k => (x (kb * 32 + k)).toInt * codeAt wq rowBytes (kb * 32 + k)) 8 4
  unfold singleDot rowDot
  simp only [dp4a_unpack, loop_sum, zero_add, ← block]
  rfl

section Tiles

variable {b : Block} {x : ℕ → Quantized K} {cols width : ℕ}

omit [Field K] [LinearOrder K] in
lemma cTile_eq (wq : ℕ → BitVec 8) {i : ℕ} (there : b.there (b.row i)) (inside : b.col i < cols)
    (kb : ℕ) : cTile b x wq cols width kb i =
      ∑ k ∈ Finset.range 32, ((x (b.place (b.row i))).codes (kb * 32 + k)).toInt *
        codeAt wq ((b.expert * cols + b.col i) * (width / 2)) (kb * 32 + k) := by
  refine (loop_range_sum (fun c : ℕ → ℤ => c i) (fun half => ∑ k ∈ Finset.range 16,
    ((x (b.place (b.row i))).codes (kb * 32 + (half * 16 + k))).toInt *
      codeAt wq ((b.expert * cols + b.col i) * (width / 2)) (kb * 32 + (half * 16 + k))) _
        (fun half _ c => ?_) _).trans ((zero_add _).trans ?_)
  · refine congrArg (c i + ·) (Finset.sum_congr rfl fun k member => ?_)
    have lt := Finset.mem_range.mp member
    have row : b.row (i / 16 * 16 + k) = b.row i := by
      unfold Block.row
      omega
    have kA : (i / 16 * 16 + k) % 16 = k := by omega
    have kB : (k + i % 16 * 16) % 16 = k := by omega
    have n : (k + i % 16 * 16) / 16 = i % 16 := by omega
    have inside : b.colBase + i % 16 < cols := inside
    unfold aTile bTile
    dsimp only
    rw [row, if_pos there, kA, kB, n, if_pos inside, Nat.add_assoc (kb * 32)]
    rfl
  · exact sum_parts (fun k => ((x (b.place (b.row i))).codes (kb * 32 + k)).toInt *
      codeAt wq ((b.expert * cols + b.col i) * (width / 2)) (kb * 32 + k)) 2 16

omit [LinearOrder K] in
lemma acc_eq (wq ws : ℕ → BitVec 8) {i : ℕ} (there : b.there (b.row i)) (inside : b.col i < cols) :
    acc b x wq ws cols width i =
      rowDot (x (b.place (b.row i))).codes wq ws cols width b.expert (b.col i) := by
  refine (loop_range_sum (fun acc : ℕ → K => acc i) _ _ (fun kb _ acc => ?_) _).trans (zero_add _)
  dsimp only
  rw [if_pos inside, cTile_eq wq there inside]

end Tiles

/-! ## The tiles of a launch -/

lemma colBases_cut (f : Family) (cols : ℕ) :
    (f.colBases cols).flatMap (cut 16 (· < cols)) = List.range cols := by
  cases f with
  | nsplit warps pos => exact splitCols_cut pos cols
  | compact => exact tileCols_cut cols
  | padded => exact tileCols_cut cols

omit [Field K] [LinearOrder K] in
lemma tiling_padded (e : Experts K) (routes : Routes K) (cols : ℕ) :
    Tiling e.nLocalExperts routes.count cols (fun expert row => expert * maxCount e routes + row)
      (paddedBlocks e routes (maxCount e routes) cols) := by
  have fits : ∀ expert < e.nLocalExperts, routes.count expert ≤ maxCount e routes :=
    fun _ => le_longest
  let grid := List.range e.nLocalExperts ×ˢ List.range (cdiv (maxCount e routes) 16)
  let block (p : (ℕ × ℕ) × ℕ) : Block :=
    { expert := p.1.1, rowBase := p.1.2, colBase := p.2
      there := fun row => decide (row < routes.count p.1.1) && decide (row < maxCount e routes)
      place := fun row => p.1.1 * maxCount e routes + row }
  have blocks : paddedBlocks e routes (maxCount e routes) cols =
      ((grid.map fun t => (t.1, t.2 * 16)) ×ˢ tileCols cols).map block := by
    have both := product_map grid (tileCols cols) (fun t => (t.1, t.2 * 16)) fun col => col
    rw [List.map_id'] at both
    rw [← both, List.map_map]
    rfl
  rw [blocks]
  refine tiling_of (fun _ => ⟨rfl, rfl, rfl, rfl⟩) (fun t member _ row => ?_) ?_ (tileCols_cut cols)
  · obtain ⟨p, here, rfl⟩ := List.mem_map.mp member
    have le := fits p.1 (List.mem_range.mp (List.pair_mem_product.mp here).1)
    have whole : row < routes.count p.1 → row < maxCount e routes := fun lt => lt.trans_le le
    show (decide (row < routes.count p.1) && decide (row < maxCount e routes)) = _
    rw [← Bool.decide_and, decide_eq_decide]
    exact and_iff_left_of_imp whole
  · rw [List.flatMap_map]
    exact grid_tiles (by decide) fits

/-! ## The launches -/

/-- The rows of all experts. -/
abbrev allRows (e : Experts K) (routes : Routes K) : List (ℕ × ℕ) :=
  segmentRows e.nLocalExperts routes.count

section Launches

variable {e : Experts K} {routes : Routes K} {order : Schedule} {place : ℕ → ℕ → ℕ}
  {blocks : List Block} {x hidden : ℕ → Quantized K}

/-- The gate and the up of an expert for a quantised row. -/
def gateUpAt (e : Experts K) (xq : Quantized K) (expert col : ℕ) : K × K :=
  (rowDot xq.codes e.w1q e.w1s e.interDim e.dim expert col * xq.scale,
    rowDot xq.codes e.w3q e.w3s e.interDim e.dim expert col * xq.scale)

/-- The output of an expert for a quantised hidden row. -/
def downAt (e : Experts K) (hidden : Quantized K) (expert col : ℕ) : K :=
  rowDot hidden.codes e.w2q e.w2s e.dim e.interDim expert col * hidden.scale

omit [LinearOrder K] in
lemma launchW13_at (tiling : Tiling e.nLocalExperts routes.count e.interDim place blocks)
    (apart : ∀ p ∈ allRows e routes, ∀ q ∈ allRows e routes,
      place p.1 p.2 = place q.1 q.2 → p = q)
    {p : ℕ × ℕ} (there : p ∈ allRows e routes) {col : ℕ} (inside : col < e.interDim)
    (before : ℕ × ℕ → K × K) :
    launchW13 e order blocks x before (place p.1 p.2, col) =
      gateUpAt e (x (place p.1 p.2)) p.1 col := by
  refine loop_grid_store (allRows e routes) (fun p : ℕ × ℕ => place p.1 p.2)
    (fun p col => gateUpAt e (x (place p.1 p.2)) p.1 col)
    ((order.perm _).trans (tiling.map_perm fun b member i here within => ?_)) apart there inside
    before
  have eq := tiling.place b member
  rw [acc_eq _ _ here within, acc_eq _ _ here within, eq]
  rfl

omit [LinearOrder K] in
lemma launchW2_at (tiling : Tiling e.nLocalExperts routes.count e.dim place blocks)
    (y : ℕ × ℕ → K) {t col : ℕ} (inside : col < e.dim) :
    launchW2 e order routes blocks hidden y (t, col) =
      y (t, col) + ((allRows e routes).map fun p =>
        if routes.tokens (routes.segStarts p.1 + p.2) = t then
          downAt e (hidden (place p.1 p.2)) p.1 col else 0).sum := by
  refine loop_grid_add (allRows e routes)
    (fun p : ℕ × ℕ => routes.tokens (routes.segStarts p.1 + p.2))
    (fun p col => downAt e (hidden (place p.1 p.2)) p.1 col)
    ((order.perm _).trans (tiling.map_perm fun b member i here within => ?_)) y t inside
  have eq := tiling.place b member
  rw [acc_eq _ _ here within, eq]
  rfl

end Launches

/-! ## The paths -/

section Paths

variable (e : Experts K) (chunk : Chunk K) (routes : Routes K)

/-- The output of an expert for a row of the chunk and a weight. -/
def expertAt (token : ℕ) (weight : K) (expert col : ℕ) : K :=
  let xq := e.quantizeRow ((List.range e.dim).map fun k => chunk.x (token * e.dim + k))
  downAt e (e.hiddenRow (gateUpAt e xq expert) weight) expert col

/-- What the rows of all experts add up to for a token. -/
def rowsSum (t col : ℕ) : K :=
  ((allRows e routes).map fun p =>
    let route := routes.segStarts p.1 + p.2
    if routes.tokens route = t then
      expertAt e chunk (routes.tokens route) (routes.weights route) p.1 col else 0).sum

variable {e chunk routes}

omit [Field K] [LinearOrder K] in
lemma gatheredRow_eq (route : ℕ) : gatheredRow e chunk routes route =
    e.quantizeRow ((List.range e.dim).map fun k =>
      chunk.x (routes.tokens route * e.dim + k)) := by
  unfold gatheredRow
  refine congrArg e.quantizeRow (List.map_congr_left fun k member => ?_)
  dsimp only
  rw [mul_add_div_of_lt (List.mem_range.mp member), Nat.add_sub_cancel_left]

lemma hiddenRow_congr {gateUp gateUp' : ℕ → K × K} (weight : K)
    (same : ∀ col < e.interDim, gateUp col = gateUp' col) :
    e.hiddenRow gateUp weight = e.hiddenRow gateUp' weight := by
  refine congrArg e.quantizeRow (List.map_congr_left fun col member => ?_)
  rw [same col (List.mem_range.mp member)]

omit [Field K] [LinearOrder K] in
lemma apart_compact : ∀ p ∈ allRows e routes, ∀ q ∈ allRows e routes,
    routes.segStarts p.1 + p.2 = routes.segStarts q.1 + q.2 → p = q := by
  intro p there q there' same
  by_cases expert : p.1 = q.1
  · rw [expert] at same
    exact Prod.ext expert (Nat.add_left_cancel same)
  · exact absurd same
      (offsets_apart routes.count expert (mem_segmentRows.mp there).2 (mem_segmentRows.mp there').2)

omit [Field K] [LinearOrder K] in
lemma padded_place {p : ℕ × ℕ} (there : p ∈ allRows e routes) :
    (p.1 * maxCount e routes + p.2) / maxCount e routes = p.1 ∧
      (p.1 * maxCount e routes + p.2) % maxCount e routes = p.2 := by
  obtain ⟨isLocal, inside⟩ := mem_segmentRows.mp there
  have lt := inside.trans_le (le_longest isLocal)
  exact ⟨mul_add_div_of_lt lt, Nat.mul_add_mod_of_lt lt⟩

omit [Field K] [LinearOrder K] in
lemma apart_padded : ∀ p ∈ allRows e routes, ∀ q ∈ allRows e routes,
    p.1 * maxCount e routes + p.2 = q.1 * maxCount e routes + q.2 → p = q := by
  intro p there q there' same
  obtain ⟨expert, row⟩ := padded_place there
  obtain ⟨expert', row'⟩ := padded_place there'
  rw [same] at expert row
  exact Prod.ext (expert.symm.trans expert') (row.symm.trans row')

omit [LinearOrder K] in
lemma padRow_there (make : ℕ → Quantized K) {p : ℕ × ℕ} (there : p ∈ allRows e routes) :
    padRow routes (maxCount e routes) make (p.1 * maxCount e routes + p.2) =
      make (routes.segStarts p.1 + p.2) := by
  obtain ⟨expert, row⟩ := padded_place there
  unfold padRow
  dsimp only
  rw [expert, row, if_pos (mem_segmentRows.mp there).2]

lemma compactPrefill_at {order : Schedule} {f : Family} (before : ℕ × ℕ → K × K) (y : ℕ × ℕ → K)
    {t col : ℕ} (inside : col < e.dim) :
    compactPrefill e chunk order routes f before y (t, col) =
      y (t, col) + rowsSum e chunk routes t col := by
  unfold compactPrefill
  rw [launchW2_at (tiling_compact _ _ _ (colBases_cut f e.dim)) y inside]
  refine congrArg (y (t, col) + ·) (congrArg List.sum (List.map_congr_left fun p there => ?_))
  refine if_congr Iff.rfl (congrArg (fun hidden => downAt e hidden p.1 col) ?_) rfl
  refine hiddenRow_congr _ fun c within => ?_
  rw [launchW13_at (tiling_compact _ _ _ (colBases_cut f e.interDim)) apart_compact there within,
    gatheredRow_eq]

lemma paddedPrefill_at {order : Schedule} (y : ℕ × ℕ → K) {t col : ℕ} (inside : col < e.dim) :
    paddedPrefill e chunk order routes y (t, col) = y (t, col) + rowsSum e chunk routes t col := by
  unfold paddedPrefill
  rw [launchW2_at (tiling_padded e routes e.dim) y inside]
  refine congrArg (y (t, col) + ·) (congrArg List.sum (List.map_congr_left fun p there => ?_))
  refine if_congr Iff.rfl (congrArg (fun hidden => downAt e hidden p.1 col) ?_) rfl
  rw [padRow_there _ there]
  refine hiddenRow_congr _ fun c within => ?_
  rw [launchW13_at (tiling_padded e routes e.interDim) apart_padded there within,
    padRow_there _ there, gatheredRow_eq]

omit [Field K] [LinearOrder K] in
lemma no_rows (none : routes.segStarts e.nLocalExperts = 0 ∨ maxCount e routes = 0) :
    allRows e routes = [] := by
  refine List.eq_nil_iff_forall_not_mem.mpr fun p there => ?_
  obtain ⟨isLocal, inside⟩ := mem_segmentRows.mp there
  rcases none with start | most
  · have upto : routes.segStarts p.1 + routes.count p.1 ≤ routes.segStarts e.nLocalExperts :=
      offsets_mono routes.count isLocal
    omega
  · have le : routes.count p.1 ≤ maxCount e routes := le_longest isLocal
    omega

lemma moePrefillFp4Grouped_at (order : Schedule) (f : Family) (before : ℕ × ℕ → K × K) {t col : ℕ}
    (inside : col < e.dim) :
    moePrefillFp4Grouped e chunk order routes f before (t, col) = rowsSum e chunk routes t col := by
  unfold moePrefillFp4Grouped
  split
  case isTrue none =>
    rw [rowsSum, no_rows none]
    rfl
  case isFalse =>
    cases f with
    | padded => exact (paddedPrefill_at _ inside).trans (zero_add _)
    | compact => exact (compactPrefill_at before _ inside).trans (zero_add _)
    | nsplit => exact (compactPrefill_at before _ inside).trans (zero_add _)

end Paths

/-! ## The routes of a token -/

section Tokens

variable (e : Experts K) (chunk : Chunk K)

/-- What an entry of `indices` adds to a column of its token. -/
def entryAt (idx col : ℕ) : K :=
  match chunk.expertOf e idx with
  | none => 0
  | some expert => expertAt e chunk (idx / chunk.topk) (chunk.weights idx) expert col

variable {e chunk}

omit [Field K] [LinearOrder K] in
lemma localExpert_lt {index : ℤ} {expert : ℕ} (found : e.localExpert index = some expert) :
    expert < e.nLocalExperts := by
  unfold Experts.localExpert at found
  dsimp only at found
  split at found
  case isTrue inside =>
    cases found
    omega
  case isFalse => cases found

lemma entryAt_none {idx col : ℕ}
    (none : ¬∃ expert < e.nLocalExperts, chunk.expertOf e idx = some expert) :
    entryAt e chunk idx col = 0 := by
  unfold entryAt
  cases found : chunk.expertOf e idx with
  | none => rfl
  | some expert => exact absurd ⟨expert, localExpert_lt found, found⟩ none

lemma expertRows_grouped (order : Schedule) (stale : ℕ → ℕ) (t col expert : ℕ) :
    let routes := moeGroupRoutes e chunk order stale
    ((List.range (routes.count expert)).map fun row =>
      let route := routes.segStarts expert + row
      if routes.tokens route = t then
        expertAt e chunk (routes.tokens route) (routes.weights route) expert col else 0) =
      (bucket (chunk.expertOf e) expert (order.run chunk.entries)).map fun idx =>
        if idx / chunk.topk = t then entryAt e chunk idx col else 0 := by
  intro routes
  have cells : (List.range (routes.count expert)).map (fun row =>
      moeRouteFillKernel e chunk order stale (routes.segStarts expert + row)) =
        bucket (chunk.expertOf e) expert (order.run chunk.entries) := by
    have grouped : group (moeRouteCountKernel e chunk order)
        (moeRouteFillKernel e chunk order stale) expert =
          bucket (chunk.expertOf e) expert (order.run chunk.entries) := group_eq ..
    unfold group at grouped
    rwa [offsets, Nat.add_sub_cancel_left] at grouped
  rw [← cells, List.map_map]
  refine List.map_congr_left fun row member => ?_
  have among : moeRouteFillKernel e chunk order stale (routes.segStarts expert + row) ∈
      bucket (chunk.expertOf e) expert (order.run chunk.entries) := by
    rw [← cells]
    exact List.mem_map_of_mem member
  have key := of_decide_eq_true (List.mem_filter.mp among).2
  dsimp only [Function.comp]
  rw [entryAt, key]
  rfl

lemma rowsSum_grouped (order : Schedule) (stale : ℕ → ℕ) (t col : ℕ) :
    rowsSum e chunk (moeGroupRoutes e chunk order stale) t col =
      (chunk.entries.map fun idx =>
        if idx / chunk.topk = t then entryAt e chunk idx col else 0).sum := by
  rw [rowsSum, allRows, segmentRows, sum_flatMap]
  simp only [List.map_map]
  rw [← ((order.perm chunk.entries).map _).sum_eq]
  calc _ = ((List.range e.nLocalExperts).map fun expert =>
        ((bucket (chunk.expertOf e) expert (order.run chunk.entries)).map fun idx =>
          if idx / chunk.topk = t then entryAt e chunk idx col else 0).sum).sum := by
        refine congrArg List.sum (List.map_congr_left fun expert _ => ?_)
        exact congrArg List.sum (expertRows_grouped order stale t col expert)
    _ = _ := sum_buckets ..
    _ = _ := by
        refine congrArg List.sum (List.map_congr_left fun idx _ => ?_)
        split
        case isTrue => rfl
        case isFalse none => rw [entryAt_none none, ite_self]

omit [LinearOrder K] in
lemma entries_sum {t : ℕ} (isToken : t < chunk.tokens) (f : ℕ → K) :
    (chunk.entries.map fun idx => if idx / chunk.topk = t then f idx else 0).sum =
      ∑ route ∈ Finset.range chunk.topk, f (t * chunk.topk + route) := by
  calc _ = ∑ t' ∈ Finset.range chunk.tokens, ∑ route ∈ Finset.range chunk.topk,
        (if (t' * chunk.topk + route) / chunk.topk = t then f (t' * chunk.topk + route) else 0) :=
        (sum_parts (fun idx => if idx / chunk.topk = t then f idx else 0) _ _).symm
    _ = ∑ t' ∈ Finset.range chunk.tokens, (if t' = t then
        ∑ route ∈ Finset.range chunk.topk, f (t' * chunk.topk + route) else 0) := by
        refine Finset.sum_congr rfl fun t' _ => ?_
        split
        case isTrue same =>
          refine Finset.sum_congr rfl fun route member => ?_
          rw [mul_add_div_of_lt (Finset.mem_range.mp member), if_pos same]
        case isFalse other =>
          refine Finset.sum_eq_zero fun route member => ?_
          rw [mul_add_div_of_lt (Finset.mem_range.mp member), if_neg other]
    _ = _ := sum_range_pick isToken _

lemma moeSingleTokenFp4_eq (stale : ℕ → ℕ → BitVec 8) (t col : ℕ) :
    moeSingleTokenFp4 e stale chunk.topk (fun k => chunk.x (t * e.dim + k))
      (fun route => chunk.indices (t * chunk.topk + route))
      (fun route => chunk.weights (t * chunk.topk + route)) col =
        ∑ route ∈ Finset.range chunk.topk, entryAt e chunk (t * chunk.topk + route) col := by
  unfold moeSingleTokenFp4
  dsimp only
  rw [loop_sum, zero_add]
  refine congrArg List.sum (List.map_congr_left fun route member => ?_)
  have token : (t * chunk.topk + route) / chunk.topk = t :=
    mul_add_div_of_lt (List.mem_range.mp member)
  unfold entryAt Chunk.expertOf moeSingleW2WriteFp4Kernel moeSingleSwigluQuantFp4Kernel
  unfold moeSingleW1w3Fp4Kernel
  cases e.localExpert (chunk.indices (t * chunk.topk + route)) with
  | none => rfl
  | some expert =>
    dsimp only
    simp only [singleDot_eq, token]
    rfl

end Tokens

/-- Grouped prefill gives each token the row that it has alone, whatever the order of the threads
and the family of kernels; a token that has no local route gets zeros. -/
theorem moePrefillFp4Grouped_eq (e : Experts K) (chunk : Chunk K) (f : Family)
    (grouping launches : Schedule) (staleRoutes : ℕ → ℕ) (before : ℕ × ℕ → K × K)
    (staleHidden : ℕ → ℕ → BitVec 8) {t col : ℕ} (isToken : t < chunk.tokens)
    (inside : col < e.dim) :
    let y := moePrefillFp4Grouped e chunk launches
      (moeGroupRoutes e chunk grouping staleRoutes) f before
    y (t, col) = moeSingleTokenFp4 e staleHidden chunk.topk (fun k => chunk.x (t * e.dim + k))
        (fun route => chunk.indices (t * chunk.topk + route))
        (fun route => chunk.weights (t * chunk.topk + route)) col ∧
      ((∀ route < chunk.topk, e.localExpert (chunk.indices (t * chunk.topk + route)) = none) →
        y (t, col) = 0) := by
  intro y
  have rows : y (t, col) =
      ∑ route ∈ Finset.range chunk.topk, entryAt e chunk (t * chunk.topk + route) col := by
    dsimp only [y]
    rw [moePrefillFp4Grouped_at launches f before inside, rowsSum_grouped, entries_sum isToken]
  refine ⟨rows.trans (moeSingleTokenFp4_eq staleHidden t col).symm, fun none => ?_⟩
  rw [rows]
  refine Finset.sum_eq_zero fun route member => ?_
  unfold entryAt Chunk.expertOf
  rw [none route (Finset.mem_range.mp member)]

/-- An expert whose codes are all one. -/
def onesExpert : Experts ℚ where
  expertsStartIdx := 4
  nLocalExperts := 1
  dim := 32
  interDim := 32
  dimBlocks := by decide
  interBlocks := by decide
  w1q _ := 0x22#8
  w1s _ := 128#8
  w2q _ := 0x22#8
  w2s _ := 128#8
  w3q _ := 0x22#8
  w3s _ := 128#8
  swigluLimit := 0
  expf _ := 1
  quantizeRow _ := { codes := fun _ => 1#8, scale := 1 }

/-- Two tokens with the same two routes, the second to an expert that is not local. -/
def twoTokens : Chunk ℚ where
  tokens := 2
  topk := 2
  topkPos := Nat.two_pos
  x _ := 1
  indices idx := 4 + (idx % 2 : ℕ)
  weights _ := 1

/-- The threads last to first. -/
def lastFirst : Schedule where
  run := List.reverse
  perm := List.reverse_perm

theorem moePrefillFp4Grouped_twoTokens :
    let y := moePrefillFp4Grouped onesExpert twoTokens lastFirst
      (moeGroupRoutes onesExpert twoTokens lastFirst fun _ => 0) (family 2 false) fun _ => (0, 0)
    y (1, 31) = moeSingleTokenFp4 onesExpert (fun _ _ => 0) 2 (fun _ => 1)
        (fun route => twoTokens.indices (1 * 2 + route)) (fun _ => 1) 31 ∧
      ((∀ route < 2, onesExpert.localExpert (twoTokens.indices (1 * 2 + route)) = none) →
        y (1, 31) = 0) :=
  moePrefillFp4Grouped_eq onesExpert twoTokens (family 2 false) lastFirst lastFirst (fun _ => 0)
    (fun _ => (0, 0)) (fun _ _ => 0) (by decide) (by decide)

/-- The first route of each is local. -/
example : (moeGroupRoutes onesExpert twoTokens lastFirst fun _ => 0).segStarts 1 = 2 := by decide

end PocketMoE.Engine.Fp4Moe
