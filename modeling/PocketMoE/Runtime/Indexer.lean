import Mathlib.Algebra.Ring.Int.Defs
import PocketMoE.Lib.TopK
import PocketMoE.Runtime.Window

/-!
# Which compressed cells a query sees

Model of the two selectors of compressed cells (`runtime.py`): `get_compress_topk_idxs`, which takes
every cell of the past, and `Indexer.forward`, which scores them and keeps the best `index_topk`.
`visibleCells` is what either may choose from: the cells that summarise no token after the query.

The indexer scores a chunk of queries against the cells up to the end of the chunk, masks for each
query the cells that come too late, selects, and masks again; single-token decode can take a fused
kernel instead. How queries are scored is a parameter, and so are the two selectors of the largest
scores, each with its contract (`Lib.TopK`); a fresh tensor of the fused kernel holds `junk`.

The static selector is exact (`compressRow_exact`). So is the indexer, on every chunk
(`plainRow_exact`), except that the fused kernel returns one entry that it never wrote when there is
no cell to select yet (`compressedExact_iff`).
-/

namespace PocketMoE.Runtime
open PocketMoE.Tensor PocketMoE.Lib

/-- The compressed cells that summarise only positions up to `q`. -/
def visibleCells (ratio q : Nat) : List Nat :=
  (List.range (q + 1)).filter fun c => (c + 1) * ratio ≤ q + 1

/-! ## All cells of the past -/

/-- `get_compress_topk_idxs`. -/
def getCompressTopkIdxs (ratio seqlen startPos offset : Nat) : List (List Int) :=
  if startPos = 0 then
    (List.range seqlen).map fun i => (List.range (seqlen / ratio)).map fun c =>
      if (i + 1) / ratio ≤ c then -1 else ((offset + c : Nat) : Int)
  else if seqlen = 1 then
    [(List.range ((startPos + 1) / ratio)).map fun c => ((offset + c : Nat) : Int)]
  else
    let rows := (List.range seqlen).map fun i =>
      (List.range ((startPos + i + 1) / ratio)).map fun c => ((offset + c : Nat) : Int)
    let maxLen := (rows.map List.length).foldr max 0
    rows.map fun row => row ++ List.replicate (maxLen - row.length) (-1)

/-- Where the compressed cells start in the buffer that attention reads (`Attention.forward`). -/
def compressOffset (win seqlen startPos : Nat) : Nat :=
  if startPos = 0 then seqlen else win

/-- The buffer that attention reads: a first chunk's own keys and the cells compressed from it, or
the ring cache and the cache of cells after it. -/
def keyBuffer {K : Type} (win seqlen ratio startPos : Nat) (kv ring cell : Nat → K) : Nat → K :=
  fun j =>
    if startPos = 0 then
      if j < seqlen then kv j
      else if j < seqlen + seqlen / ratio then cell (j - seqlen) else ring j
    else
      if j < win then ring j else cell (j - win)

/-! ## The best cells of the past -/

/-- The parameters of an indexer: `Q` and `C` are the types of a query and of a cell, and
`scoresReduced` says that the scores are summed over the tensor-parallel ranks. -/
structure Indexer (Q C K : Type) [LinearOrder K] where
  compressRatio : Nat
  ratio_pos : 0 < compressRatio
  indexTopk : Nat
  prefillChunkTokens : Nat
  chunk_pos : 0 < prefillChunkTokens
  fusedC4IndexerEnabled : Bool
  scoresReduced : Bool
  score : Q → C → K
  fusedScore : Q → C → K
  topk : TopK (WithBot K)
  c4Topk : TopK K

namespace Indexer

lemma ratio_four_pos : 0 < 4 := by decide

lemma chunk_512_pos : 0 < 512 := by decide

variable {Q C K : Type} [LinearOrder K] (ix : Indexer Q C K)

/-- `index_score`: every query of the chunk against every cell, in chunks when there are many. -/
def indexScore (q : List Q) (kvWindow : List C) : List (List (WithBot K)) :=
  let rowScores : Q → List (WithBot K) := fun qi => kvWindow.map fun c => (ix.score qi c : WithBot K)
  if ix.prefillChunkTokens < q.length then
    overChunks ix.prefillChunkTokens (fun _ part => part.map rowScores) q
  else
    q.map rowScores

/-- `masked_fill_` with minus infinity from cell `valid` on. -/
def maskScores (valid : Nat) (row : List (WithBot K)) : List (WithBot K) :=
  row.mapIdx fun t score => if valid ≤ t then ⊥ else score

/-- Mask for each query the cells that come after it, before the selection. -/
def maskLate (startPos : Nat) (rows : List (List (WithBot K))) : List (List (WithBot K)) :=
  if startPos = 0 then
    overChunks ix.prefillChunkTokens (fun qs part => part.mapIdx fun j row =>
      maskScores ((qs + j + 1) / ix.compressRatio) row) rows
  else if 1 < rows.length then
    overChunks ix.prefillChunkTokens (fun qs part => part.mapIdx fun j row =>
      maskScores (min row.length ((startPos + (qs + j) + 1) / ix.compressRatio)) row) rows
  else
    rows

/-- Shift the selected cells to where they lie, and mask those from `valid` on. -/
def shiftRow (valid offset : Nat) (row : List Nat) : List Int :=
  row.map fun c => if valid ≤ c then -1 else ((c + offset : Nat) : Int)

/-- Shift the selected cells, and mask for each query those that come after it. -/
def shiftLate (startPos offset : Nat) (rows : List (List Nat)) : List (List Int) :=
  if startPos = 0 then
    overChunks ix.prefillChunkTokens (fun qs part => part.mapIdx fun j row =>
      shiftRow ((qs + j + 1) / ix.compressRatio) offset row) rows
  else if 1 < rows.length then
    overChunks ix.prefillChunkTokens (fun qs part => part.mapIdx fun j row =>
      shiftRow ((startPos + (qs + j) + 1) / ix.compressRatio) offset row) rows
  else
    rows.map fun row => row.map fun c => ((c + offset : Nat) : Int)

/-- `c4_topk_from_scores`: the output has room for one index even when there is none to write. -/
def c4TopkFromScores (scores : List K) (offset indexTopk : Nat) (junk : Int) : List Int :=
  let k := min indexTopk scores.length
  if 0 < k then
    (ix.c4Topk.select scores k).map fun c => ((c + offset : Nat) : Int)
  else
    [junk]

/-- The result of `fused_c4_indexer_decode_forward` and, when the scores are reduced over ranks, of
the selection after it. -/
def fusedDecode [Zero K] (q : Q) (kvCache : Nat → C) (startPos offset : Nat) (junk : Int) :
    List Int :=
  let kvLen := (startPos + 1) / 4
  let scores := (List.range kvLen).map fun t => ix.fusedScore q (kvCache t)
  if ix.scoresReduced then
    let scores := if 0 < kvLen then scores else [0]
    ix.c4TopkFromScores scores offset (min ix.indexTopk ((startPos + 1) / ix.compressRatio)) junk
  else
    ix.c4TopkFromScores scores offset ix.indexTopk junk

/-- `_fused_decode_forward` takes the call. -/
def takesFused (startPos seqlen : Nat) : Prop :=
  ix.fusedC4IndexerEnabled ∧ startPos ≠ 0 ∧ seqlen = 1 ∧ ix.compressRatio = 4

instance (startPos seqlen : Nat) : Decidable (ix.takesFused startPos seqlen) :=
  inferInstanceAs (Decidable (_ ∧ _ ∧ _ ∧ _))

/-- `Indexer.forward` on the queries `q` of a chunk, once its tokens are compressed. -/
def forward [Zero K] (q : List Q) (kvCache : Nat → C) (startPos offset : Nat) (junk : Int) :
    List (List Int) :=
  if ix.takesFused startPos q.length then
    q.map fun q => ix.fusedDecode q kvCache startPos offset junk
  else
    let cells := (startPos + q.length) / ix.compressRatio
    let kvWindow := (List.range cells).map kvCache
    let scores := ix.maskLate startPos (ix.indexScore q kvWindow)
    let topkIdxs := scores.map fun row => ix.topk.select row (min ix.indexTopk cells)
    ix.shiftLate startPos offset topkIdxs

end Indexer

/-! ## What the static selector denotes -/

lemma visibleCells_eq {ratio : Nat} (hr : 0 < ratio) (q : Nat) :
    visibleCells ratio q = List.range ((q + 1) / ratio) := by
  obtain ⟨k, e⟩ := Nat.exists_eq_add_of_le (Nat.div_le_self (q + 1) ratio)
  have inside (c : Nat) : (c + 1) * ratio ≤ q + 1 ↔ c < (q + 1) / ratio := by
    rw [← Nat.le_div_iff_mul_le hr, Nat.succ_le_iff]
  simp only [visibleCells, inside]
  generalize (q + 1) / ratio = v at e
  rw [e, List.range_add, List.filter_append]
  have past : (List.range v).filter (fun c => c < v) = List.range v :=
    List.filter_eq_self.mpr fun c member => by simpa using member
  have later : ((List.range k).map fun c => v + c).filter (fun c => c < v) = [] := by
    rw [List.filter_eq_nil_iff]
    intro c member
    obtain ⟨d, -, rfl⟩ := List.mem_map.mp member
    simp
  rw [past, later, List.append_nil]

@[simp] lemma length_visibleCells {ratio : Nat} (hr : 0 < ratio) (q : Nat) :
    (visibleCells ratio q).length = (q + 1) / ratio := by
  rw [visibleCells_eq hr, List.length_range]

lemma getCompressTopkIdxs_row {K : Type} {ratio seqlen startPos i : Nat} (offset : Nat)
    (buffer : Nat → K) (lt : i < seqlen) :
    attended buffer (((getCompressTopkIdxs ratio seqlen startPos offset)[i]?).getD []) =
      (List.range' offset ((startPos + i + 1) / ratio)).map buffer := by
  have plain (m : Nat) : attended buffer ((List.range m).map fun c => ((offset + c : Nat) : Int)) =
      (List.range' offset m).map buffer :=
    attended_prefix le_rfl (fun j _ => rfl) fun j ge lt => absurd lt (by omega)
  simp only [getCompressTopkIdxs]
  split_ifs with first single
  · subst first
    simp only [List.getElem?_map, List.getElem?_range lt, Option.map_some, Option.getD_some]
    rw [Nat.zero_add]
    apply attended_prefix (Nat.div_le_div_right (show i + 1 ≤ seqlen from lt))
    · intro c hc
      rw [if_neg (by omega)]
    · intro c hc _
      rw [if_pos hc]
  · obtain rfl : i = 0 := by omega
    simpa using plain ((startPos + 1) / ratio)
  · simp only [List.getElem?_map, List.getElem?_range lt, Option.map_some, Option.getD_some]
    rw [attended, List.filterMap_append, ← attended, ← attended, plain]
    simp [attended]

/-- The static selector picks, for every query of every chunk, each visible cell once and where it
lies. -/
theorem compressRow_exact {K : Type} {ratio win seqlen startPos i : Nat} (hr : 0 < ratio)
    (kv ring cell : Nat → K) (lt : i < seqlen) :
    attended (keyBuffer win seqlen ratio startPos kv ring cell)
        (((getCompressTopkIdxs ratio seqlen startPos
          (compressOffset win seqlen startPos))[i]?).getD []) =
      (visibleCells ratio (startPos + i)).map cell := by
  rw [getCompressTopkIdxs_row _ _ lt, visibleCells_eq hr, List.range'_eq_map_range, List.map_map]
  apply List.map_congr_left
  intro c member
  have visible := List.mem_range.mp member
  simp only [Function.comp_apply, keyBuffer, compressOffset]
  split_ifs with first h1 h2 h3
  · omega
  · rw [Nat.add_sub_cancel_left]
  · subst first
    have := Nat.div_le_div_right (c := ratio) (show 0 + i + 1 ≤ seqlen from by omega)
    omega
  · omega
  · rw [Nat.add_sub_cancel_left]

/-! ## What the indexer selects -/

namespace Indexer

variable {Q C K : Type} [LinearOrder K] {ix : Indexer Q C K} {startPos : Nat}

lemma indexScore_eq (q : List Q) (kvWindow : List C) :
    ix.indexScore q kvWindow = q.map fun qi => kvWindow.map fun c => (ix.score qi c : WithBot K) := by
  simp only [indexScore]
  split_ifs
  · exact overChunks_map ix.chunk_pos _ q
  · rfl

omit [LinearOrder K] in
lemma maskScores_of_le {valid : Nat} {row : List (WithBot K)} (le : row.length ≤ valid) :
    maskScores valid row = row := by
  apply List.ext_getElem
  · simp [maskScores]
  · intro t _ lt
    simp [maskScores, show ¬ valid ≤ t from by omega]

lemma maskLate_eq {rows : List (List (WithBot K))}
    (width : ∀ row ∈ rows, row.length = (startPos + rows.length) / ix.compressRatio) :
    ix.maskLate startPos rows = rows.mapIdx fun i row =>
      maskScores ((startPos + i + 1) / ix.compressRatio) row := by
  simp only [maskLate]
  split_ifs with first many
  · subst first
    exact overChunks_mapIdx ix.chunk_pos _ rows fun base part => by simp
  · rw [overChunks_mapIdx ix.chunk_pos (fun i row => maskScores
      (min row.length ((startPos + i + 1) / ix.compressRatio)) row) rows fun base part => rfl]
    apply List.ext_getElem (by simp)
    intro i h _
    have lt : i < rows.length := by simpa using h
    have le : (startPos + i + 1) / ix.compressRatio ≤ rows[i].length := by
      rw [width _ (List.getElem_mem lt)]
      exact Nat.div_le_div_right (by omega)
    simp [Nat.min_eq_right le]
  · apply List.ext_getElem (by simp)
    intro i lt _
    obtain rfl : i = 0 := by omega
    rw [List.getElem_mapIdx, maskScores_of_le]
    rw [width _ (List.getElem_mem lt), show rows.length = 1 from by omega]

lemma shiftLate_eq {offset : Nat} {rows : List (List Nat)}
    (inside : ∀ row ∈ rows, ∀ c ∈ row, c < (startPos + rows.length) / ix.compressRatio) :
    ix.shiftLate startPos offset rows = rows.mapIdx fun i row =>
      shiftRow ((startPos + i + 1) / ix.compressRatio) offset row := by
  simp only [shiftLate]
  split_ifs with first many
  · subst first
    exact overChunks_mapIdx ix.chunk_pos _ rows fun base part => by simp
  · exact overChunks_mapIdx ix.chunk_pos _ rows fun base part => rfl
  · apply List.ext_getElem (by simp)
    intro i h _
    have lt : i < rows.length := by simpa using h
    obtain rfl : i = 0 := by omega
    rw [List.getElem_mapIdx, List.getElem_map, shiftRow]
    apply List.map_congr_left
    intro c member
    have := inside _ (List.getElem_mem lt) c member
    rw [show rows.length = 1 from by omega] at this
    rw [Nat.add_zero, if_neg (by omega)]

lemma forward_plain [Zero K] {q : List Q} {kvCache : Nat → C} {offset : Nat} {junk : Int} {i : Nat}
    (plain : ¬ ix.takesFused startPos q.length) (lt : i < q.length) :
    (ix.forward q kvCache startPos offset junk)[i]? =
      some (shiftRow ((startPos + i + 1) / ix.compressRatio) offset
        (ix.topk.select
          (maskScores ((startPos + i + 1) / ix.compressRatio)
            ((List.range ((startPos + q.length) / ix.compressRatio)).map fun t =>
              (ix.score q[i] (kvCache t) : WithBot K)))
          (min ix.indexTopk ((startPos + q.length) / ix.compressRatio)))) := by
  simp only [forward, if_neg plain, indexScore_eq, List.map_map]
  rw [maskLate_eq, shiftLate_eq]
  · simp [lt]
    rfl
  · -- what is selected lies below the number of cells
    intro row member c inside
    obtain ⟨i, h, rfl⟩ := List.mem_iff_getElem.mp member
    simp only [List.getElem_map, List.getElem_mapIdx] at inside
    have := ix.topk.lt_length (by simp [maskScores]) inside
    simpa [maskScores] using this
  · simp

/-! ## Which cells end up in a row -/

/-- A row of the index matrix that denotes, up to `-1` padding, as many different visible cells as
`index_topk` allows, each where it lies. -/
def SelectionExact (indexTopk ratio q offset : Nat) (row : List Int) : Prop :=
  (row.filter (· ≠ -1)).Nodup ∧
    (row.filter (· ≠ -1)).length = min indexTopk (visibleCells ratio q).length ∧
    ∀ entry ∈ row.filter (· ≠ -1), ∃ c ∈ visibleCells ratio q, entry = ((c + offset : Nat) : Int)

lemma filter_shiftRow (valid offset : Nat) (row : List Nat) :
    (shiftRow valid offset row).filter (· ≠ -1) =
      (row.filter (· < valid)).map fun c => ((c + offset : Nat) : Int) := by
  induction row with
  | nil => rfl
  | cons c row ih =>
    rw [shiftRow, List.map_cons, List.filter_cons, List.filter_cons, ← shiftRow, ih]
    by_cases late : valid ≤ c
    · rw [if_pos late, if_neg (by simp), if_neg (by simpa using late)]
    · have : ((c + offset : Nat) : Int) ≠ -1 := by omega
      rw [if_neg late, if_pos (by simpa using this), if_pos (by simpa using late), List.map_cons]

lemma SelectionExact.of_selected {indexTopk ratio q offset : Nat} {row : List Nat} (hr : 0 < ratio)
    (nodup : row.Nodup)
    (count : (row.filter (· < (q + 1) / ratio)).length = min indexTopk ((q + 1) / ratio)) :
    SelectionExact indexTopk ratio q offset (shiftRow ((q + 1) / ratio) offset row) := by
  simp only [SelectionExact, filter_shiftRow, length_visibleCells hr, List.length_map]
  refine ⟨?_, count, ?_⟩
  · refine (nodup.filter _).map fun a b e => ?_
    have : a + offset = b + offset := by exact_mod_cast e
    omega
  · intro entry member
    obtain ⟨c, inside, rfl⟩ := List.mem_map.mp member
    have lt : c < (q + 1) / ratio := by simpa using (List.mem_filter.mp inside).2
    exact ⟨c, by rw [visibleCells_eq hr]; exact List.mem_range.mpr lt, rfl⟩

/-- The selection among masked scores takes the visible cells first. -/
theorem plainRow_exact [Zero K] {q : List Q} {kvCache : Nat → C} {offset : Nat} {junk : Int}
    {i : Nat} (plain : ¬ ix.takesFused startPos q.length) (lt : i < q.length) :
    ∃ row, (ix.forward q kvCache startPos offset junk)[i]? = some row ∧
      SelectionExact ix.indexTopk ix.compressRatio (startPos + i) offset row := by
  refine ⟨_, forward_plain plain lt, .of_selected ix.ratio_pos (ix.topk.nodup_select ?_) ?_⟩
  · simp [maskScores]
  · have le : (startPos + i + 1) / ix.compressRatio ≤
        (startPos + q.length) / ix.compressRatio := Nat.div_le_div_right (by omega)
    rw [ix.topk.count_below (by simp [maskScores])]
    · omega
    · -- the scores of visible cells are finite, the others are minus infinity
      intro c d a b hc hd ha hb
      simp only [maskScores, List.getElem?_mapIdx, Option.map_eq_some_iff] at ha hb
      obtain ⟨a, ha, rfl⟩ := ha
      obtain ⟨b, hb, rfl⟩ := hb
      rw [if_pos hd, if_neg (by omega)]
      rw [List.getElem?_map, Option.map_eq_some_iff] at ha
      obtain ⟨-, -, rfl⟩ := ha
      exact WithBot.bot_lt_coe _

lemma fusedDecode_eq [Zero K] {q : Q} {kvCache : Nat → C} {offset : Nat} {junk : Int}
    (four : ix.compressRatio = 4) :
    ix.fusedDecode q kvCache startPos offset junk =
      if min ix.indexTopk ((startPos + 1) / 4) = 0 then [junk]
      else (ix.c4Topk.select
        ((List.range ((startPos + 1) / 4)).map fun t => ix.fusedScore q (kvCache t))
        (min ix.indexTopk ((startPos + 1) / 4))).map fun c => ((c + offset : Nat) : Int) := by
  simp only [fusedDecode, c4TopkFromScores, four]
  by_cases none_ : (startPos + 1) / 4 = 0
  · simp [none_]
  · rw [if_pos (Nat.pos_of_ne_zero none_), List.length_map, List.length_range]
    have same : min (min ix.indexTopk ((startPos + 1) / 4)) ((startPos + 1) / 4) =
        min ix.indexTopk ((startPos + 1) / 4) := by omega
    rw [same, ite_self]
    split_ifs with h1 h2 h2
    · omega
    · rfl
    · rfl
    · omega

lemma fusedDecode_exact [Zero K] {q : Q} {kvCache : Nat → C} {offset : Nat} {junk : Int}
    (four : ix.compressRatio = 4) (some_ : min ix.indexTopk ((startPos + 1) / 4) ≠ 0) :
    SelectionExact ix.indexTopk ix.compressRatio startPos offset
      (ix.fusedDecode q kvCache startPos offset junk) := by
  have width : min ix.indexTopk ((startPos + 1) / 4) ≤
      ((List.range ((startPos + 1) / 4)).map fun t => ix.fusedScore q (kvCache t)).length := by
    simp
  have inside : ∀ c ∈ ix.c4Topk.select
      ((List.range ((startPos + 1) / 4)).map fun t => ix.fusedScore q (kvCache t))
      (min ix.indexTopk ((startPos + 1) / 4)), c < (startPos + 1) / 4 := by
    intro c member
    simpa using ix.c4Topk.lt_length width member
  have count := ix.c4Topk.length_select width
  have nodup := ix.c4Topk.nodup_select width
  rw [fusedDecode_eq four, if_neg some_, four]
  generalize ix.c4Topk.select _ _ = row at inside count nodup
  -- nothing lies behind the query, so shifting masks nothing
  have shifted : (row.map fun c => ((c + offset : Nat) : Int)) =
      shiftRow ((startPos + 1) / 4) offset row := by
    apply List.map_congr_left
    intro c member
    rw [if_neg (Nat.not_le.mpr (inside c member))]
  rw [shifted]
  refine .of_selected (by decide) nodup ?_
  rw [List.filter_eq_self.mpr fun c member => by simpa using inside c member, count]

lemma junk_not_exact {indexTopk ratio q offset : Nat} (hr : 0 < ratio)
    (none_ : min indexTopk ((q + 1) / ratio) = 0) : ¬ SelectionExact indexTopk ratio q offset [0] := by
  rintro ⟨-, count, -⟩
  rw [length_visibleCells hr, none_] at count
  simp at count

/-- Attention on a chunk sees the right compressed cells: the static selector gives each query all
visible cells where they lie in the key buffer, and the indexer, whatever is left in fresh memory,
as many of them as `index_topk` allows. -/
def CompressedExact [Zero K] (ix : Indexer Q C K) (win : Nat) (q : List Q) (kvCache : Nat → C)
    (startPos : Nat) : Prop :=
  ∀ i, i < q.length →
    (∀ kv ring cell : Nat → C,
      attended (keyBuffer win q.length ix.compressRatio startPos kv ring cell)
        (((getCompressTopkIdxs ix.compressRatio q.length startPos
          (compressOffset win q.length startPos))[i]?).getD []) =
      (visibleCells ix.compressRatio (startPos + i)).map cell) ∧
    ∀ junk : Int, ∃ row,
      (ix.forward q kvCache startPos (compressOffset win q.length startPos) junk)[i]? = some row ∧
      SelectionExact ix.indexTopk ix.compressRatio (startPos + i)
        (compressOffset win q.length startPos) row

lemma CompressedExact.selects [Zero K] {win : Nat} {q : List Q} {kvCache : Nat → C}
    (exact : ix.CompressedExact win q kvCache startPos) :
    ¬ (ix.takesFused startPos q.length ∧ min ix.indexTopk ((startPos + 1) / 4) = 0) := by
  rintro ⟨fused, none_⟩
  obtain ⟨-, -, single, four⟩ := id fused
  obtain ⟨qi, rfl⟩ := List.length_eq_one_iff.mp single
  obtain ⟨row, here, exact⟩ := (exact 0 Nat.one_pos).2 0
  simp only [forward, if_pos fused, List.map_cons, List.map_nil, fusedDecode_eq four, if_pos none_,
    List.getElem?_cons_zero, Option.some.injEq] at here
  subst here
  exact junk_not_exact ix.ratio_pos (by rwa [four, Nat.add_zero]) exact

/-- A chunk sees the right compressed cells unless the fused kernel takes it with nothing to
select. -/
theorem compressedExact_iff [Zero K] (ix : Indexer Q C K) (win : Nat) (q : List Q)
    (kvCache : Nat → C) (startPos : Nat) :
    ix.CompressedExact win q kvCache startPos ↔
      ¬ (ix.takesFused startPos q.length ∧ min ix.indexTopk ((startPos + 1) / 4) = 0) := by
  constructor
  · exact CompressedExact.selects
  · intro safe i lt
    refine ⟨fun kv ring cell => compressRow_exact ix.ratio_pos kv ring cell lt, fun junk => ?_⟩
    by_cases fused : ix.takesFused startPos q.length
    · obtain ⟨-, -, single, four⟩ := id fused
      obtain ⟨qi, rfl⟩ := List.length_eq_one_iff.mp single
      obtain rfl : i = 0 := by simpa using lt
      refine ⟨ix.fusedDecode qi kvCache startPos (compressOffset win 1 startPos) junk, ?_, ?_⟩
      · rw [forward, if_pos fused]
        rfl
      · exact fusedDecode_exact four fun none_ => safe ⟨fused, none_⟩
    · exact plainRow_exact fused lt

/-- An indexer as the scripts set it up, with the fused kernel and a `topk` of 512. -/
def scripted : Indexer Unit Unit Int where
  compressRatio := 4
  ratio_pos := ratio_four_pos
  indexTopk := 512
  prefillChunkTokens := 512
  chunk_pos := chunk_512_pos
  fusedC4IndexerEnabled := true
  scoresReduced := false
  score := fun _ _ => 0
  fusedScore := fun _ _ => 0
  topk := .repeatedMax _
  c4Topk := .repeatedMax _

/-- The first decode step after a prompt of one token has no compressed cell to select. -/
theorem scripted_second_token : ¬ scripted.CompressedExact 128 [()] (fun _ => ()) 1 := by
  intro exact
  exact exact.selects (by decide)

end Indexer

end PocketMoE.Runtime
