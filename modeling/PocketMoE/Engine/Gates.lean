import Mathlib.Algebra.Order.BigOperators.Group.List
import Mathlib.Algebra.Order.Field.Basic
import Mathlib.Algebra.Order.Field.Rat
import PocketMoE.Engine.TopkKernels
import PocketMoE.Lib.BlockScale
import PocketMoE.Lib.Loop

/-!
# The expert gates

Model of the gate kernels (`bf16_ops.cu`), of the host loop over the hash table in
`run_safetensors_prompt_prefill_impl` (`dsv4_engine.cpp`) and of `Gate.forward` (`runtime.py`), for
the score function that is neither softmax nor sigmoid. `score` stands for it; it is positive. A
gate gives the experts of a token, in order, and their weights.

All agree (`gates_agree`): selection is by the biased scores, weighting by the others.
-/

namespace PocketMoE.Engine.Gates

open PocketMoE.Lib

variable {R : Type} [Field R] [LinearOrder R] [IsStrictOrderedRing R]

/-- A gate: its weights, row after row, and either a table of the experts of each token id, with a
column for each of the experts of a token, or a bias. -/
structure Gate (R : Type) [Field R] [LinearOrder R] where
  experts : ℕ
  cols : ℕ
  nActivatedExperts : ℕ
  pos : 0 < nActivatedExperts
  le : nActivatedExperts ≤ experts
  weight : ℕ → R
  tid2eid : ℕ → ℕ
  hashTopk : ℕ
  columns : hashTopk = nActivatedExperts
  bias : Option (ℕ → R)
  score : R → R
  scorePos : ∀ v, 0 < score v
  routeScale : R

variable (gate : Gate R)

section Kernels

/-- `route_count` -/
def Gate.topk : ℕ := min gate.nActivatedExperts gate.experts

/-- The dot product of a block of 256 threads: each adds up its columns, the lanes of a warp pass on
their sums, and so do the first lanes for the eight warps. -/
def blockDot (row : ℕ) (x : ℕ → R) : R :=
  let sum (tid : ℕ) : R :=
    loop (strided 256 gate.cols tid) (fun c s => s + gate.weight (row * gate.cols + c) * x c) 0
  let warpPartials (warp : ℕ) : R := warpSum 16 (fun lane => sum (warp * 32 + lane)) 0
  warpSum 4 (fun lane => if lane < 8 then warpPartials lane else 0) 0

/-- `gate_scores_kernel` at an expert of a token: the score and the biased one. -/
def gateScoresKernel (x : ℕ → R) (token row : ℕ) : R × R :=
  let orig := gate.score (blockDot gate row fun c => x (token * gate.cols + c))
  (orig, orig + match gate.bias with
    | none => 0
    | some bias => bias row)

/-- One round of `gate_topk_finalize_kernel`: the first of the best experts that are not used. -/
def bestExpert (scored : ℕ → R) (used : List ℕ) : ℕ :=
  (loop (List.range gate.experts) (fun e (best : WithBot R × ℕ) =>
    let s : WithBot R := if e ∈ used then ⊥ else scored e
    if best.1 < s then (s, e) else best) (⊥, 0)).2

/-- `gate_topk_finalize_kernel` -/
def gateTopkFinalizeKernel (original scored : ℕ → R) : List ℕ × List R :=
  let (indices, denom) := loop (List.range gate.topk) (fun _ (s : List ℕ × R) =>
    let best := bestExpert gate scored s.1
    (s.1 ++ [best], s.2 + original best)) ([], 0)
  let denom := if denom = 0 then 1 else denom
  (indices, indices.map fun e => original e / denom * gate.routeScale)

/-- `gate_topk_bf16_rows_cuda` and, for the first token, `gate_topk_bf16_cuda_with_buffers`. -/
def gateTopkBf16Cuda (x : ℕ → R) (token : ℕ) : List ℕ × List R :=
  gateTopkFinalizeKernel gate (fun e => (gateScoresKernel gate x token e).1)
    fun e => (gateScoresKernel gate x token e).2

/-- `gate_hash_finalize_kernel` and `gate_hash_rows_finalize_kernel` -/
def gateHashFinalizeKernel (original : List R) : List R :=
  let denom := loop original (fun s denom => denom + s) 0
  let denom := if denom = 0 then 1 else denom
  original.map fun s => s / denom * gate.routeScale

/-- `gate_hash_bf16_cuda` -/
def gateHashBf16Cuda (x : ℕ → R) (tokenId : ℕ) : List ℕ × List R :=
  let scores := (List.range gate.topk).map fun k =>
    let expert := gate.tid2eid (tokenId * gate.hashTopk + k)
    (expert, gate.score (blockDot gate expert x))
  (scores.map Prod.fst, gateHashFinalizeKernel gate (scores.map Prod.snd))

/-- `gate_hash_bf16_rows_cuda` -/
def gateHashBf16RowsCuda (x : ℕ → R) (tokenIds : ℕ → ℕ) (token : ℕ) : List ℕ × List R :=
  let scores := (List.range gate.topk).map fun k =>
    let expert := gate.tid2eid (tokenIds token * gate.hashTopk + k)
    (expert, gate.score (blockDot gate expert fun c => x (token * gate.cols + c)))
  (scores.map Prod.fst, gateHashFinalizeKernel gate (scores.map Prod.snd))

/-- The host loop in prefill. -/
def hostHash (x : ℕ → R) (tokenIds : ℕ → ℕ) (token : ℕ) : List ℕ × List R :=
  let (indices, weights, denom) :=
    loop (List.range gate.topk) (fun k (s : List ℕ × List R × R) =>
      let e := gate.tid2eid (tokenIds token * gate.nActivatedExperts + k)
      let dot := loop (List.range gate.cols) (fun d dot =>
        dot + x (token * gate.cols + d) * gate.weight (e * gate.cols + d)) 0
      let original := gate.score dot
      (s.1 ++ [e], s.2.1 ++ [original], s.2.2 + original)) ([], [], 0)
  let denom := if denom = 0 then 1 else denom
  (indices, weights.map fun w => w / denom * gate.routeScale)

end Kernels

section Python

/-- `linear` with the weights of the gate, and the score function. -/
def originalScores (x : ℕ → R) (e : ℕ) : R :=
  gate.score (∑ c ∈ Finset.range gate.cols, x c * gate.weight (e * gate.cols + c))

/-- The weights of some experts: their scores by the sum of them. -/
def routeWeights (x : ℕ → R) (indices : List ℕ) : List R :=
  let weights := indices.map (originalScores gate x)
  weights.map fun w => w / weights.sum * gate.routeScale

/-- `Gate.forward` on a row of activations, with or without the table. -/
def forward (hash : Bool) (x : ℕ → R) (inputId : ℕ) : List ℕ × List R :=
  let scores (e : ℕ) : R := originalScores gate x e + match gate.bias with
    | none => 0
    | some bias => bias e
  let indices := if hash then
      (List.range gate.hashTopk).map fun k => gate.tid2eid (inputId * gate.hashTopk + k)
    else (ranked scores gate.experts).take gate.nActivatedExperts
  (indices, routeWeights gate x indices)

end Python

section Dot

variable {gate}

omit [IsStrictOrderedRing R] in
lemma blockDot_eq (row : ℕ) (x : ℕ → R) :
    blockDot gate row x =
      ∑ c ∈ Finset.range gate.cols, x c * gate.weight (row * gate.cols + c) := by
  let term (c : ℕ) : R := x c * gate.weight (row * gate.cols + c)
  have threads : ∀ tid, loop (strided 256 gate.cols tid)
      (fun c s => s + gate.weight (row * gate.cols + c) * x c) 0 =
        ((strided 256 gate.cols tid).map term).sum := by
    intro tid
    rw [loop_sum, zero_add]
    simp only [term, mul_comm]
  have warps (v : ℕ → R) : warpSum 4 v 0 = ∑ lane ∈ Finset.range 8, v lane := warpSum_eq 3 v
  have lanes (v : ℕ → R) : warpSum 16 v 0 = ∑ lane ∈ Finset.range 32, v lane := warpSum_eq 5 v
  have all := sum_parts (fun tid => ((strided 256 gate.cols tid).map term).sum) 8 32
  have places := sum_strided (show 0 < 256 by decide) gate.cols term
  unfold blockDot
  simp only [threads, warps, lanes]
  rw [← places, ← all]
  refine Finset.sum_congr rfl fun warp lt => ?_
  rw [if_pos (Finset.mem_range.mp lt)]

omit [IsStrictOrderedRing R] in
lemma score_blockDot (e : ℕ) (x : ℕ → R) :
    gate.score (blockDot gate e x) = originalScores gate x e := by
  rw [blockDot_eq]
  rfl

end Dot

section Topk

variable {gate} {scored : ℕ → R}

omit [IsStrictOrderedRing R] in
lemma bestExpert_eq {used : List ℕ} {i : ℕ} (inside : i < gate.experts) (left : i ∉ used)
    (best : ∀ j < gate.experts, j ∉ used → Before scored i j) :
    bestExpert gate scored used = i := by
  let value (e : ℕ) : WithBot R := if e ∈ used then ⊥ else scored e
  have here : value i = scored i := if_neg left
  have row (j : ℕ) (b : WithBot R) : ((List.range gate.experts).map value)[j]? = some b ↔
      j < gate.experts ∧ value j = b := by
    simp [List.getElem?_eq_some_iff]
  have max : FirstMaxAt ((List.range gate.experts).map value) i (scored i : WithBot R) := by
    refine ⟨(row i _).mpr ⟨inside, here⟩, fun j b there => ?_, fun j b before there => ?_⟩
    · obtain ⟨lt, rfl⟩ := (row j b).mp there
      by_cases old : j ∈ used
      · rw [show value j = ⊥ from if_pos old]
        exact bot_le
      · rw [show value j = scored j from if_neg old, WithBot.coe_le_coe]
        rcases best j lt old with above | ⟨same, -⟩
        · exact above.le
        · exact same.ge
    · obtain ⟨lt, rfl⟩ := (row j b).mp there
      by_cases old : j ∈ used
      · rw [show value j = ⊥ from if_pos old]
        exact WithBot.bot_lt_coe _
      · rw [show value j = scored j from if_neg old, WithBot.coe_lt_coe]
        rcases best j lt old with above | ⟨-, first⟩
        · exact above
        · omega
  have scan : bestExpert gate scored used =
      (strictScan (⊥, 0) ((List.range gate.experts).map fun e => (value e, e))).2 := by
    unfold bestExpert strictScan loop
    rw [List.foldl_map]
  rw [scan, strictScan_bot (k := i) (a := (scored i : WithBot R)) (c := (value i, i))]
  · rw [List.map_map]
    exact max
  · exact WithBot.coe_ne_bot
  · simp [inside]

omit [IsStrictOrderedRing R] in
lemma rounds_eq (original : ℕ → R) {k : ℕ} (le : k ≤ gate.experts) :
    loop (List.range k) (fun _ (s : List ℕ × R) =>
        let best := bestExpert gate scored s.1
        (s.1 ++ [best], s.2 + original best)) ([], 0) =
      ((ranked scored gate.experts).take k,
        (((ranked scored gate.experts).take k).map original).sum) := by
  induction k with
  | zero => rfl
  | succ k ih =>
    have step : ∃ i, (ranked scored gate.experts)[k]? = some i ∧ i < gate.experts ∧
        i ∉ (ranked scored gate.experts).take k ∧ ∀ j < gate.experts,
          j ∉ (ranked scored gate.experts).take k → Before scored i j := ranked_next le
    obtain ⟨i, next, inside, left, best⟩ := step
    have more : (ranked scored gate.experts).take (k + 1) =
        (ranked scored gate.experts).take k ++ [i] := by
      rw [List.take_add_one, next]
      rfl
    rw [List.range_succ, loop_append, ih (by omega), more]
    simp only [loop_cons, loop_nil, bestExpert_eq inside left best, List.map_append, List.map_cons,
      List.map_nil, List.sum_append, List.sum_singleton]

end Topk

section Weights

variable {gate}

lemma denom_eq {scores : List R} (pos : ∀ s ∈ scores, 0 < s) (some_ : scores ≠ []) :
    (if scores.sum = 0 then 1 else scores.sum) = scores.sum := by
  have : 0 < scores.sum := List.sum_pos scores pos some_
  rw [if_neg this.ne']

omit [IsStrictOrderedRing R] in
lemma original_pos (x : ℕ → R) (indices : List ℕ) :
    ∀ s ∈ indices.map (originalScores gate x), 0 < s := by
  intro s member
  obtain ⟨e, -, rfl⟩ := List.mem_map.mp member
  exact gate.scorePos _

lemma weights_eq (x : ℕ → R) {indices : List ℕ} (some_ : indices ≠ []) :
    (indices.map (originalScores gate x)).map (fun w => w /
        (if (indices.map (originalScores gate x)).sum = 0 then 1
          else (indices.map (originalScores gate x)).sum) * gate.routeScale) =
      routeWeights gate x indices := by
  rw [denom_eq (original_pos x indices) (by simpa using some_)]
  rfl

omit [IsStrictOrderedRing R] in
lemma topk_eq : gate.topk = gate.nActivatedExperts := Nat.min_eq_left gate.le

end Weights

/-- The experts the table has for a token. -/
def tableRow (gate : Gate R) (id : ℕ) : List ℕ :=
  (List.range gate.hashTopk).map fun k => gate.tid2eid (id * gate.hashTopk + k)

section Agree

variable {gate}

omit [IsStrictOrderedRing R] in
lemma tableRow_ne (id : ℕ) : tableRow gate id ≠ [] := by
  unfold tableRow
  have := gate.pos
  rw [gate.columns, ne_eq, List.map_eq_nil_iff, List.range_eq_nil]
  omega

lemma hashFinalize_eq (x : ℕ → R) {indices : List ℕ} (some_ : indices ≠ []) :
    gateHashFinalizeKernel gate (indices.map (originalScores gate x)) =
      routeWeights gate x indices := by
  have sum := loop_sum (indices.map (originalScores gate x)) (fun s => s) 0
  rw [zero_add, List.map_id'] at sum
  rw [← weights_eq x some_]
  unfold gateHashFinalizeKernel
  rw [sum]

omit [IsStrictOrderedRing R] in
lemma forward_hash (x : ℕ → R) (id : ℕ) :
    forward gate true x id = (tableRow gate id, routeWeights gate x (tableRow gate id)) := rfl

omit [IsStrictOrderedRing R] in
lemma tableRow_eq (id : ℕ) : ((List.range gate.topk).map fun k =>
    gate.tid2eid (id * gate.hashTopk + k)) = tableRow gate id := by
  rw [topk_eq, ← gate.columns]
  rfl

lemma gateHashBf16Cuda_eq (x : ℕ → R) (id : ℕ) :
    gateHashBf16Cuda gate x id = forward gate true x id := by
  unfold gateHashBf16Cuda
  simp only [List.map_map, Function.comp_def, score_blockDot]
  rw [forward_hash, tableRow_eq, ← hashFinalize_eq x (tableRow_ne id), ← tableRow_eq, List.map_map]
  rfl

lemma hostHash_eq (x : ℕ → R) (tokenIds : ℕ → ℕ) (token : ℕ) :
    hostHash gate x tokenIds token =
      forward gate true (fun c => x (token * gate.cols + c)) (tokenIds token) := by
  have dots : ∀ e, gate.score (loop (List.range gate.cols) (fun d dot =>
      dot + x (token * gate.cols + d) * gate.weight (e * gate.cols + d)) 0) =
        originalScores gate (fun c => x (token * gate.cols + c)) e := by
    intro e
    rw [loop_sum, zero_add]
    rfl
  have rounds : ∀ n, loop (List.range n) (fun k (s : List ℕ × List R × R) =>
      let e := gate.tid2eid (tokenIds token * gate.hashTopk + k)
      let original := originalScores gate (fun c => x (token * gate.cols + c)) e
      (s.1 ++ [e], s.2.1 ++ [original], s.2.2 + original)) ([], [], 0) =
      (let row := (List.range n).map fun k => gate.tid2eid (tokenIds token * gate.hashTopk + k)
      let scores := row.map (originalScores gate fun c => x (token * gate.cols + c))
      (row, scores, scores.sum)) := by
    intro n
    induction n with
    | zero => rfl
    | succ n ih =>
      rw [List.range_succ, loop_append, ih]
      simp only [loop_cons, loop_nil, List.map_append, List.map_cons, List.map_nil,
        List.sum_append, List.sum_singleton]
  unfold hostHash
  simp only [dots, ← gate.columns]
  rw [rounds]
  simp only
  rw [tableRow_eq, weights_eq _ (tableRow_ne _), forward_hash]

lemma gateTopkBf16Cuda_eq (x : ℕ → R) (token id : ℕ) :
    gateTopkBf16Cuda gate x token =
      forward gate false (fun c => x (token * gate.cols + c)) id := by
  let row (c : ℕ) : R := x (token * gate.cols + c)
  let scored (e : ℕ) : R := originalScores gate row e + match gate.bias with
    | none => 0
    | some bias => bias e
  have scores : ∀ e, gateScoresKernel gate x token e = (originalScores gate row e, scored e) := by
    intro e
    unfold gateScoresKernel
    simp only [score_blockDot]
    rfl
  have some_ : (ranked scored gate.experts).take gate.nActivatedExperts ≠ [] := by
    have := gate.pos
    have := gate.le
    have : (ranked scored gate.experts).length = gate.experts := ranked_length
    rw [ne_eq, ← List.length_eq_zero_iff, List.length_take]
    omega
  unfold gateTopkBf16Cuda gateTopkFinalizeKernel
  simp only [scores]
  rw [topk_eq, rounds_eq (originalScores gate row) gate.le]
  refine Prod.ext rfl ?_
  change _ = routeWeights gate row ((ranked scored gate.experts).take gate.nActivatedExperts)
  rw [← weights_eq row some_, List.map_map]
  rfl

omit [IsStrictOrderedRing R] in
lemma forward_nodup (x : ℕ → R) (id : ℕ) : (forward gate false x id).1.Nodup :=
  ranked_nodup.sublist (List.take_sublist ..)

end Agree

/-- For a token of a prompt, the kernels and the host loop give the experts and the weights that
`Gate.forward` gives for its row. -/
theorem gates_agree (gate : Gate R) (x : ℕ → R) (tokenIds : ℕ → ℕ) (token : ℕ) :
    let row := fun c => x (token * gate.cols + c)
    let id := tokenIds token
    gateTopkBf16Cuda gate x token = forward gate false row id ∧
      (forward gate false row id).1.Nodup ∧
      gateHashBf16RowsCuda gate x tokenIds token = forward gate true row id ∧
      gateHashBf16Cuda gate row id = forward gate true row id ∧
      hostHash gate x tokenIds token = forward gate true row id ∧
      ∀ hash, let experts := (forward gate hash row id).1
        (forward gate hash row id).2 = experts.map fun e => originalScores gate row e /
          (experts.map (originalScores gate row)).sum * gate.routeScale := by
  intro row id
  refine ⟨gateTopkBf16Cuda_eq x token id, forward_nodup row id, gateHashBf16Cuda_eq row id,
    gateHashBf16Cuda_eq row id, hostHash_eq x tokenIds token, fun hash => ?_⟩
  change routeWeights gate row _ = _
  unfold routeWeights
  rw [List.map_map]
  rfl

/-- A gate whose table has an expert twice for a token. -/
theorem gates_agree_repeated :
    let gate : Gate ℚ := ⟨3, 1, 2, by decide, by decide, fun _ => 0, fun _ => 1, 2, rfl, none,
      fun _ => 1, fun _ => one_pos, 5⟩
    let row := fun c : ℕ => ((1 * gate.cols + c : ℕ) : ℚ)
    gateTopkBf16Cuda gate (fun i => i) 1 = forward gate false row 7 ∧
      (forward gate false row 7).1.Nodup ∧
      gateHashBf16RowsCuda gate (fun i => i) (fun _ => 7) 1 = forward gate true row 7 ∧
      gateHashBf16Cuda gate row 7 = forward gate true row 7 ∧
      hostHash gate (fun i => i) (fun _ => 7) 1 = forward gate true row 7 := by
  intro gate row
  have all := gates_agree gate (fun i => (i : ℚ)) (fun _ => 7) 1
  exact ⟨all.1, all.2.1, all.2.2.1, all.2.2.2.1, all.2.2.2.2.1⟩

end PocketMoE.Engine.Gates
