import Mathlib.Algebra.Order.Ring.Rat
import Mathlib.Data.List.FinRange
import PocketMoE.Engine.Sampler
import PocketMoE.Lib.Collective
import PocketMoE.Lib.Double
import PocketMoE.Lib.FirstMax

/-!
# Greedy tokens

The three ways in which the ranks agree on the next token when each has a slice of the logits:
`argmax_fp32_kernel` with `nccl_global_top1`, the gather and broadcast of `select_token`, and
`ParallelHead.next_token` (`runtime.py`). Each is a program of a rank that enters collectives.

Logits are compared only, so they are of any linear order, with minus infinity below. All three
return the first of the largest logits on every rank (`greedy_agrees`). The token of a rank travels
as a float next to its logit, so ids are below 2^24.
-/

namespace PocketMoE.Engine
open PocketMoE.Lib

variable {α D : Type} [LinearOrder α]

/-- A number in the buffer of a collective. -/
inductive TokenCell (α : Type) where
  | logit (value : WithBot α)
  | number (n : Nat)

inductive TokenCollective where
  | allGather
  | broadcast

/-- What a collective gives to all ranks: their buffers in order, or that of rank 0. -/
def TokenCollective.combine {world : Nat} :
    TokenCollective → (Fin world → List (TokenCell α)) → List (TokenCell α)
  | .allGather, buffers => (List.finRange world).flatMap buffers
  | .broadcast, buffers => if h : 0 < world then buffers ⟨0, h⟩ else []

/-- The program of a rank. -/
abbrev TokenProg (α R : Type) := Prog TokenCollective (List (TokenCell α)) R

/-- The logits of a buffer. -/
def logitsOf (buffer : List (TokenCell α)) : List (WithBot α) :=
  buffer.filterMap fun
    | .logit v => some v
    | .number _ => none

/-- The integers of a buffer. -/
def numbersOf (buffer : List (TokenCell α)) : List Nat :=
  buffer.filterMap fun
    | .logit _ => none
    | .number n => some n

/-- How a rank is set up. -/
structure TokenConfig where
  tpWorld : Nat
  ncclIdPath : String

/-! ## The kernel and `nccl_global_top1` -/

/-- `argmax_fp32_kernel`. -/
def argmaxFp32Kernel (threads : Nat) (logits : Nat → WithBot α) (count tokenOffset : Nat) :
    Nat × WithBot α :=
  let best := blockBest threads count (fun _ => true) 0 logits
  (tokenOffset + best.2, best.1)

/-- `argmax_fp32_cuda`. -/
def argmaxFp32Cuda (logits : List (WithBot α)) (tokenOffset : Nat) : Option (Nat × WithBot α) :=
  if logits.length = 0 then none
  else some (argmaxFp32Kernel 256 (fun i => logits.getD i ⊥) logits.length tokenOffset)

/-- The pairs of a logit and a token that were gathered. -/
def topPairs : List (TokenCell α) → List (WithBot α × Nat)
  | .logit v :: .number n :: rest => (v, n) :: topPairs rest
  | _ => []

/-- `nccl_global_top1`: the first strictly larger logit wins. -/
def ncclGlobalTop1 (localToken : Nat) (localLogit : WithBot α) : TokenProg α (Nat × WithBot α) :=
  .call .allGather [.logit localLogit, .number (Double.toSingle localToken)] fun all =>
    let result := strictScan (⊥, 0) (topPairs all)
    .ret (result.2, result.1)

/-- The end of a step of `run_gguf_generate`, built with NCCL. -/
def ggufTop (config : TokenConfig) (logits : List (WithBot α)) (localVocabStart : Nat) :
    TokenProg α (Nat × WithBot α) :=
  match argmaxFp32Cuda logits localVocabStart with
  | none => .raise
  | some (token, logit) =>
    if 1 < config.tpWorld ∧ config.ncclIdPath ≠ "" then ncclGlobalTop1 token logit
    else .ret (token, logit)

/-! ## `select_token` -/

/-- `select_token` on a rank, with its generator: rank 0 has all logits and selects. -/
def selectTokenOn (a : Floats (WithBot α) D) (config : TokenConfig) (rank : Nat)
    (sp : SamplingParams (WithBot α)) (lastLocalLogits : List (WithBot α))
    (lastLocalHeadStart : Nat) (rng : Mt19937) : TokenProg α (Nat × Mt19937) :=
  if lastLocalLogits.length = 0 then .raise
  else if 1 < config.tpWorld ∧ config.ncclIdPath ≠ "" then
    .call .allGather (lastLocalLogits.map .logit) fun all =>
      if rank = 0 then
        match selectToken a true sp (logitsOf all) rng with
        | .error _ => .raise
        | .ok (token, rng) => .call .broadcast [.number token] fun tokenBuf =>
          .ret ((numbersOf tokenBuf).headD 0, rng)
      else .call .broadcast [.number 0] fun tokenBuf => .ret ((numbersOf tokenBuf).headD 0, rng)
  else if sp.isGreedy a then
    .ret (argmax a lastLocalHeadStart a.bottom lastLocalHeadStart lastLocalLogits, rng)
  else match sampleTokenTopP a lastLocalLogits sp.temperature sp.topP rng with
    | .error _ => .raise
    | .ok drawn => .ret drawn

/-- The comparisons of the sampler are those of the logits. -/
structure FloatOrder (a : Floats (WithBot α) D) : Prop where
  lt : ∀ x y, a.lt x y = decide (x < y)
  bottom : a.bottom = ⊥

/-! ## `ParallelHead.next_token` -/

/-- `ParallelHead.next_token` at a position; `torch` is `max` and `argmax`. -/
def nextToken (torch : ArgMax (WithBot α)) (tpWorldSize partVocabSize : Nat)
    (logits : List (WithBot α)) : TokenProg α Nat :=
  let indices := torch.index logits
  let values := logits.getD indices ⊥
  if 1 < tpWorldSize then
    .call .allGather [.logit values] fun allValues =>
      .call .allGather [.number indices] fun allIndices =>
        let bestRank := torch.index (logitsOf allValues)
        .ret ((numbersOf allIndices).getD bestRank 0 + bestRank * partVocabSize)
  else .ret indices

/-! ## The buffers of a gather -/

variable {world : Nat}

lemma flatMap_finRange {R : Type} (world : Nat) (f : Nat → List R) :
    ((List.finRange world).flatMap fun rank : Fin world => f rank.val) =
      (List.range world).flatMap f := by
  induction world with
  | zero => rfl
  | succ world ih =>
    rw [List.finRange_succ_last, List.flatMap_append, List.flatMap_map, List.range_succ,
      List.flatMap_append, ← ih]
    rfl

omit [LinearOrder α] in
lemma topPairs_gathered (value : Nat → WithBot α) (f : Nat → Nat) (ranks : List Nat) :
    topPairs (ranks.flatMap fun r => [.logit (value r), .number (f r)]) =
      ranks.map fun r => (value r, f r) := by
  induction ranks with
  | nil => rfl
  | cons r ranks ih =>
    rw [List.flatMap_cons, List.map_cons, ← ih]
    rfl

omit [LinearOrder α] in
lemma logitsOf_map (row : List (WithBot α)) : logitsOf (row.map .logit) = row := by
  rw [logitsOf, List.filterMap_map]
  exact List.filterMap_some

omit [LinearOrder α] in
lemma topPairs_combine (value : Nat → WithBot α) (token : Nat → Nat) :
    topPairs (TokenCollective.combine .allGather fun rank : Fin world =>
      [.logit (value rank), .number (Double.toSingle (token rank))]) =
        (List.range world).map fun r => (value r, Double.toSingle (token r)) := by
  have ranks := flatMap_finRange world fun r =>
    ([.logit (value r), .number (Double.toSingle (token r))] : List (TokenCell α))
  rw [TokenCollective.combine, ranks]
  exact topPairs_gathered value _ _

omit [LinearOrder α] in
lemma logitsOf_singles (value : Nat → WithBot α) :
    logitsOf (TokenCollective.combine .allGather fun rank : Fin world => [.logit (value rank)]) =
      (List.range world).map value := by
  have ranks := flatMap_finRange world fun r => ([.logit (value r)] : List (TokenCell α))
  rw [TokenCollective.combine, ranks, ← List.map_eq_flatMap, ← logitsOf_map (List.map ..),
    List.map_map]
  rfl

omit [LinearOrder α] in
lemma numbersOf_singles (number : Nat → Nat) :
    numbersOf (TokenCollective.combine .allGather fun rank : Fin world =>
        ([.number (number rank)] : List (TokenCell α))) = (List.range world).map number := by
  have ranks := flatMap_finRange world fun r => ([.number (number r)] : List (TokenCell α))
  rw [TokenCollective.combine, ranks, ← List.map_eq_flatMap, numbersOf, List.filterMap_map]
  exact congrFun List.filterMap_eq_map' _

omit [LinearOrder α] in
lemma flatMap_sliceOf {β : Type*} (row : List β) (n world : Nat) :
    ((List.range world).flatMap fun r => sliceOf n r row) = row.take (world * n) := by
  induction world with
  | zero => simp
  | succ world ih =>
    rw [List.range_succ, List.flatMap_append, ih, List.flatMap_singleton, sliceOf,
      Nat.succ_mul, List.take_add]

/-! ## The token -/

lemma argmax_eq {f : Floats (WithBot α) D} (order : FloatOrder f) (best : Nat) (value : WithBot α)
    (i : Nat) (row : List (WithBot α)) :
    argmax f best value i row = (strictScan (value, best) (row.zipIdx i)).2 := by
  induction row generalizing best value i with
  | nil => rfl
  | cons v row ih =>
    rw [argmax, order.lt, List.zipIdx_cons, strictScan, List.foldl_cons]
    by_cases above : value < v
    · rw [if_pos (decide_eq_true above), ih, if_pos above]
      rfl
    · rw [if_neg (by simpa using above), ih, if_neg above]
      rfl

/-- The maxima of the slices of a row, and the first of the largest of them. -/
structure Tops (world : Nat) (row : List (WithBot α)) (index : Nat → Nat)
    (value : Nat → WithBot α) (k : Nat) (a : WithBot α) : Prop where
  length : row.length = world * (row.length / world)
  slices : ∀ r < world, FirstMaxAt (sliceOf (row.length / world) r row) (index r) (value r)
  finite : ∀ r < world, value r ≠ ⊥
  best : FirstMaxAt ((List.range world).map value) k a

lemma exists_tops {row : List (WithBot α)} (nonempty : row ≠ []) (finite : ∀ v ∈ row, v ≠ ⊥)
    (divides : world ∣ row.length) : ∃ index value k a, Tops world row index value k a := by
  obtain ⟨n, length⟩ := divides
  have pos : 0 < world * n := length ▸ List.length_pos_iff.mpr nonempty
  have worlds : 0 < world := Nat.pos_of_mul_pos_right pos
  have width : row.length / world = n := by rw [length, Nat.mul_div_cancel_left _ worlds]
  have each : ∀ r, ∃ i b, r < world → FirstMaxAt (sliceOf n r row) i b ∧ b ≠ ⊥ := by
    intro r
    by_cases lt : r < world
    · have some_ : sliceOf n r row ≠ [] := by
        have inside : r * n < row.length := by
          rw [length]
          exact Nat.mul_lt_mul_of_pos_right lt (Nat.pos_of_mul_pos_left pos)
        intro empty
        rw [sliceOf, List.take_eq_nil_iff, List.drop_eq_nil_iff] at empty
        rcases empty with zero | beyond
        · exact absurd zero (Nat.pos_of_mul_pos_left pos).ne'
        · exact absurd inside (Nat.not_lt.mpr beyond)
      obtain ⟨b, max⟩ := (ArgMax.scan (WithBot α)).spec _ some_
      have member : b ∈ row := by
        have := List.mem_of_getElem? max.here
        exact List.mem_of_mem_drop (List.mem_of_mem_take this)
      exact ⟨_, b, fun _ => ⟨max, finite b member⟩⟩
    · exact ⟨0, ⊥, fun inside => absurd inside lt⟩
  choose index value spec using each
  have some_ : (List.range world).map value ≠ [] := by
    simpa [List.range_eq_nil] using worlds.ne'
  obtain ⟨a, best⟩ := (ArgMax.scan (WithBot α)).spec _ some_
  refine ⟨index, value, _, a, ⟨by rw [width, length], ?_, fun r lt => (spec r lt).2, best⟩⟩
  rw [width]
  exact fun r lt => (spec r lt).1

namespace Tops

variable {row : List (WithBot α)} {index : Nat → Nat} {value : Nat → WithBot α} {k : Nat}
  {a : WithBot α}

lemma entry (tops : Tops world row index value k a) : k < world ∧ value k = a := by
  have here := tops.best.here
  rw [List.getElem?_map, Option.map_eq_some_iff] at here
  obtain ⟨r, there, eq⟩ := here
  obtain ⟨lt, same⟩ := List.getElem?_eq_some_iff.mp there
  rw [List.getElem_range] at same
  subst same
  exact ⟨by simpa using lt, eq⟩

lemma token (tops : Tops world row index value k a) :
    FirstMaxAt row (k * (row.length / world) + index k) a := by
  refine firstMaxAt_of_slices tops.length (by simp) (fun r b there => ?_) tops.best
  rw [List.getElem?_map, Option.map_eq_some_iff] at there
  obtain ⟨r', there, rfl⟩ := there
  obtain ⟨lt, same⟩ := List.getElem?_eq_some_iff.mp there
  rw [List.getElem_range] at same
  subst same
  exact tops.slices r (by simpa using lt)

lemma id_lt (tops : Tops world row index value k a) {r : Nat} (lt : r < world) :
    r * (row.length / world) + index r < row.length := by
  have inside := (tops.slices r lt).inside
  rw [sliceOf, List.length_take, List.length_drop] at inside
  omega

lemma argmaxFp32Cuda_eq (tops : Tops world row index value k a) {r : Nat} (lt : r < world)
    (offset : Nat) : argmaxFp32Cuda (sliceOf (row.length / world) r row) offset =
      some (offset + index r, value r) := by
  have max := tops.slices r lt
  have found := blockBest_firstMaxAt 8 0 max (tops.finite r lt)
  rw [argmaxFp32Cuda, if_neg (Nat.ne_zero_of_lt max.inside), argmaxFp32Kernel]
  rw [show (2 : Nat) ^ 8 = 256 from rfl] at found
  rw [found]

lemma torch_eq (tops : Tops world row index value k a) (torch : ArgMax (WithBot α)) {r : Nat}
    (lt : r < world) : torch.index (sliceOf (row.length / world) r row) = index r ∧
      (sliceOf (row.length / world) r row).getD (index r) ⊥ = value r := by
  have max := tops.slices r lt
  obtain ⟨b, max'⟩ := torch.spec _ (List.length_pos_iff.mp (Nat.zero_lt_of_lt max.inside))
  refine ⟨(max'.unique max).1, ?_⟩
  rw [List.getD_eq_getElem?_getD, max.here, Option.getD_some]

lemma alone (tops : Tops 1 row index value k a) : k = 0 ∧ sliceOf (row.length / 1) 0 row = row := by
  refine ⟨Nat.lt_one_iff.mp tops.entry.1, ?_⟩
  rw [sliceOf, Nat.zero_mul, List.drop_zero, Nat.div_one, List.take_length]

lemma ncclGlobalTop1_iff (tops : Tops world row index value k a) (ids : row.length ≤ 2 ^ 24)
    (results : Fin world → Nat × WithBot α) :
    Completes TokenCollective.combine (fun rank : Fin world =>
        ncclGlobalTop1 (rank * (row.length / world) + index rank) (value rank)) results ↔
      results = fun _ => (k * (row.length / world) + index k, a) := by
  obtain ⟨lt, top⟩ := tops.entry
  have : Nonempty (Fin world) := ⟨k, lt⟩
  have values : ((List.range world).map fun r =>
      (value r, Double.toSingle (r * (row.length / world) + index r))).map Prod.fst =
        (List.range world).map value := by
    rw [List.map_map]
    rfl
  have here : ((List.range world).map fun r =>
      (value r, Double.toSingle (r * (row.length / world) + index r)))[k]? =
        some (a, k * (row.length / world) + index k) := by
    have small := Nat.lt_of_lt_of_le (tops.id_lt lt) ids
    simp [List.getElem?_range lt, top, Double.toSingle_small small]
  unfold ncclGlobalTop1
  rw [completes_once_iff fun _ => rfl,
    topPairs_combine value fun r => r * (row.length / world) + index r, strictScan_bot
      (values.symm ▸ tops.best) (top ▸ tops.finite k lt) here]

lemma ggufTop_iff (tops : Tops world row index value k a) {idPath : String}
    (configured : 1 < world → idPath ≠ "") (ids : row.length ≤ 2 ^ 24)
    (results : Fin world → Nat × WithBot α) :
    Completes TokenCollective.combine (fun rank : Fin world => ggufTop ⟨world, idPath⟩
        (sliceOf (row.length / world) rank row) (rank * (row.length / world))) results ↔
      results = fun _ => (k * (row.length / world) + index k, a) := by
  simp only [ggufTop, tops.argmaxFp32Cuda_eq (Fin.isLt _)]
  rcases Nat.lt_or_ge 1 world with many | one
  · simp only [if_pos (And.intro many (configured many))]
    exact tops.ncclGlobalTop1_iff ids results
  · obtain ⟨lt, top⟩ := tops.entry
    obtain rfl : world = 1 := by omega
    obtain ⟨rfl, -⟩ := tops.alone
    rw [completes_ret_iff fun rank => if_neg (by omega)]
    have all : (fun rank : Fin 1 => (rank.val * (row.length / 1) + index rank, value rank)) =
        fun _ => (0 * (row.length / 1) + index 0, a) := by
      funext rank
      rw [Subsingleton.elim rank 0, ← top]
      rfl
    rw [all]

lemma logitsOf_gathered (tops : Tops world row index value k a) :
    logitsOf (TokenCollective.combine .allGather fun rank : Fin world =>
      (sliceOf (row.length / world) rank row).map .logit) = row := by
  have ranks := flatMap_finRange world fun r =>
    (sliceOf (row.length / world) r row).map (TokenCell.logit (α := α))
  rw [TokenCollective.combine, ranks, ← List.map_flatMap, logitsOf_map, flatMap_sliceOf,
    ← tops.length, List.take_length]

lemma selectTokenOn_iff (tops : Tops world row index value k a) {idPath : String}
    (configured : 1 < world → idPath ≠ "") {f : Floats (WithBot α) D} (order : FloatOrder f)
    {sp : SamplingParams (WithBot α)} (greedy : sp.isGreedy f) (rng : Fin world → Mt19937)
    (results : Fin world → Nat × Mt19937) :
    Completes TokenCollective.combine (fun rank : Fin world => selectTokenOn f ⟨world, idPath⟩ rank
        sp (sliceOf (row.length / world) rank row) (rank * (row.length / world)) (rng rank))
        results ↔
      results = fun rank => (k * (row.length / world) + index k, rng rank) := by
  obtain ⟨lt, top⟩ := tops.entry
  have : Nonempty (Fin world) := ⟨k, lt⟩
  have some_ (rank : Fin world) : (sliceOf (row.length / world) rank row).length ≠ 0 :=
    Nat.ne_zero_of_lt (tops.slices rank rank.isLt).inside
  have inside := tops.token.inside
  simp only [selectTokenOn, if_neg (some_ _)]
  rcases Nat.lt_or_ge 1 world with many | one
  · simp only [if_pos (And.intro many (configured many))]
    rw [completes_call_iff fun _ => rfl, tops.logitsOf_gathered]
    obtain ⟨first, rest, rfl⟩ := List.exists_cons_of_length_pos (Nat.zero_lt_of_lt inside)
    have selected (rng : Mt19937) : selectToken f true sp (first :: rest) rng =
        .ok (k * ((first :: rest).length / world) + index k, rng) := by
      have token := (strictScan_zipIdx first rest).unique tops.token
      rw [selectToken, if_pos greedy, if_pos rfl, argmax_eq order, token.1]
      rfl
    -- rank 0 selects, and what the others put in is not read
    have entered (rank : Fin world) : (if rank.val = 0 then
          match selectToken f true sp (first :: rest) (rng rank) with
          | .error _ => .raise
          | .ok (token, rng) => .call .broadcast [.number token] fun tokenBuf =>
            .ret ((numbersOf tokenBuf).headD 0, rng)
        else .call .broadcast [.number 0] fun tokenBuf =>
          .ret ((numbersOf tokenBuf).headD 0, rng rank) : TokenProg α (Nat × Mt19937)) =
        .call .broadcast [.number (if rank.val = 0 then
          k * ((first :: rest).length / world) + index k else 0)] fun tokenBuf =>
          .ret ((numbersOf tokenBuf).headD 0, rng rank) := by
      by_cases zero : rank.val = 0
      · rw [if_pos zero, if_pos zero, selected]
      · rw [if_neg zero, if_neg zero]
    simp only [entered]
    rw [completes_once_iff fun _ => rfl, TokenCollective.combine, dif_pos (Nat.zero_lt_of_lt lt)]
    rfl
  · obtain rfl : world = 1 := by omega
    obtain ⟨rfl, whole⟩ := tops.alone
    have alone_ (rank : Fin 1) := strictScan_bot_zipIdx (tops.slices rank rank.isLt)
      (tops.finite rank rank.isLt) (rank * (row.length / 1))
    simp only [if_neg (show ¬ (1 < 1 ∧ idPath ≠ "") from fun both => absurd both.1 (lt_irrefl 1)),
      if_pos greedy, argmax_eq order, order.bottom, alone_]
    rw [completes_ret_iff fun rank => rfl]
    have all : (fun rank : Fin 1 => (rank.val * (row.length / 1) + index rank, rng rank)) =
        fun rank => (0 * (row.length / 1) + index 0, rng rank) := by
      funext rank
      rw [Subsingleton.elim rank 0]
      rfl
    rw [all]

lemma nextToken_iff (tops : Tops world row index value k a) (torch : ArgMax (WithBot α))
    (results : Fin world → Nat) :
    Completes TokenCollective.combine (fun rank : Fin world =>
        nextToken torch world (row.length / world) (sliceOf (row.length / world) rank row))
        results ↔
      results = fun _ => k * (row.length / world) + index k := by
  obtain ⟨lt, top⟩ := tops.entry
  have : Nonempty (Fin world) := ⟨k, lt⟩
  simp only [nextToken, (tops.torch_eq torch (Fin.isLt _)).1, (tops.torch_eq torch (Fin.isLt _)).2]
  rcases Nat.lt_or_ge 1 world with many | one
  · simp only [if_pos many]
    rw [completes_call_iff fun _ => rfl, completes_once_iff fun _ => rfl]
    obtain ⟨b, max⟩ := torch.spec ((List.range world).map value) (List.ne_nil_of_length_pos (by
      rw [List.length_map, List.length_range]
      exact Nat.zero_lt_of_lt many))
    have here : ((List.range world).map index).getD k 0 = index k := by
      simp [List.getD_eq_getElem?_getD, List.getElem?_range lt]
    rw [logitsOf_singles, numbersOf_singles, (max.unique tops.best).1, here]
    simp only [Nat.add_comm (index k)]
  · obtain rfl : world = 1 := by omega
    obtain ⟨rfl, -⟩ := tops.alone
    rw [completes_ret_iff fun rank => if_neg (lt_irrefl 1)]
    have all : (fun rank : Fin 1 => index rank) = fun _ => 0 * (row.length / 1) + index 0 := by
      funext rank
      rw [Subsingleton.elim rank 0, Nat.zero_mul, Nat.zero_add]
      rfl
    rw [all]

end Tops

/-- Greedy tokens agree: each way ends on every rank with the lowest id among those of the largest
logit. -/
theorem greedy_agrees (world : Nat) {logits : List α} (nonempty : logits ≠ [])
    (divides : world ∣ logits.length) (ids : logits.length ≤ 2 ^ 24) {idPath : String}
    (configured : 1 < world → idPath ≠ "") {f : Floats (WithBot α) D} (order : FloatOrder f)
    (sp : SamplingParams (WithBot α)) (greedy : sp.isGreedy f) (torch : ArgMax (WithBot α)) :
    ∃ token logit, FirstMaxAt logits token logit ∧
      let part := logits.length / world
      let row := logits.map fun v : α => (v : WithBot α)
      (∀ results : Fin world → Nat × WithBot α,
        Completes TokenCollective.combine
            (fun rank => ggufTop ⟨world, idPath⟩ (sliceOf part rank row) (rank * part)) results ↔
          results = fun _ => (token, (logit : WithBot α))) ∧
      (∀ (rng : Fin world → Mt19937) (results : Fin world → Nat × Mt19937),
        Completes TokenCollective.combine
            (fun rank => selectTokenOn f ⟨world, idPath⟩ rank sp (sliceOf part rank row)
              (rank * part) (rng rank)) results ↔
          results = fun rank => (token, rng rank)) ∧
      ∀ results : Fin world → Nat,
        Completes TokenCollective.combine
            (fun rank => nextToken torch world part (sliceOf part rank row)) results ↔
          results = fun _ => token := by
  obtain ⟨logit, max⟩ := (ArgMax.scan α).spec logits nonempty
  refine ⟨_, logit, max, ?_⟩
  have length : (logits.map fun v : α => (v : WithBot α)).length = logits.length :=
    List.length_map _
  obtain ⟨index, value, k, a, tops⟩ : ∃ index value k a,
      Tops world (logits.map fun v : α => (v : WithBot α)) index value k a := by
    refine exists_tops (by simpa using nonempty) (fun v member => ?_) (length.symm ▸ divides)
    obtain ⟨u, -, rfl⟩ := List.mem_map.mp member
    exact WithBot.coe_ne_bot
  obtain ⟨same, value_⟩ := (max.map WithBot.coe_strictMono).unique tops.token
  dsimp only
  rw [same, value_, ← length]
  exact ⟨tops.ggufTop_iff configured (length.symm ▸ ids), tops.selectTokenOn_iff configured order
    greedy, tops.nextToken_iff torch⟩

/-- Numbers of which the comparisons are exact, with the exponential of zero. -/
def comparisons : Floats (WithBot ℚ) ℚ where
  zero := (0 : ℚ)
  one := (1 : ℚ)
  tiny := (0 : ℚ)
  bottom := ⊥
  lt := fun x y => x < y
  le := fun x y => x ≤ y
  mul := WithBot.map₂ (· * ·)
  sub := WithBot.map₂ (· - ·)
  inv := id
  exp := fun x => if x = (0 : ℚ) then (1 : ℚ) else (0 : ℚ)
  uniform := fun _ => (0 : ℚ)
  sort := fun ps => List.range ps.length
  wide := fun x => x.unbotD 0
  narrow := fun x => x
  zeroD := 0
  add := fun x y => x + y
  invD := id
  leD := fun x y => x ≤ y

/-- Two ranks have a largest logit each: all get the id of the first. -/
theorem greedy_agrees_tie :
    (∀ results : Fin 2 → Nat × WithBot ℚ,
      Completes TokenCollective.combine (fun rank => ggufTop ⟨2, "/tmp/id"⟩
        (sliceOf 2 rank ([1, 3, 3, 2].map fun v : ℚ => (v : WithBot ℚ))) (rank * 2)) results ↔
        results = fun _ => (1, ((3 : ℚ) : WithBot ℚ))) ∧
      ∀ results : Fin 2 → Nat,
        Completes TokenCollective.combine (fun rank => nextToken (ArgMax.scan (WithBot ℚ)) 2 2
          (sliceOf 2 rank ([1, 3, 3, 2].map fun v : ℚ => (v : WithBot ℚ)))) results ↔
          results = fun _ => 1 := by
  have nonempty : [(1 : ℚ), 3, 3, 2] ≠ [] := by decide
  obtain ⟨token, logit, max, gguf, -, torch⟩ := greedy_agrees 2 nonempty (by decide) (by decide)
    (fun _ => show "/tmp/id" ≠ "" by decide) (f := comparisons) ⟨fun _ _ => rfl, rfl⟩
    ⟨(0 : ℚ), (1 : ℚ), true, 0⟩ rfl (ArgMax.scan (WithBot ℚ))
  have first : FirstMaxAt [(1 : ℚ), 3, 3, 2] 1 3 := strictScan_zipIdx 1 [3, 3, 2]
  obtain ⟨rfl, rfl⟩ := max.unique first
  exact ⟨gguf, torch⟩

end PocketMoE.Engine
