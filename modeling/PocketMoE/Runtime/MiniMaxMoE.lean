import Mathlib.Algebra.BigOperators.Fin
import Mathlib.Algebra.BigOperators.Pi
import Mathlib.Algebra.Module.Defs
import Mathlib.Algebra.Order.Field.Rat
import PocketMoE.Lib.Collective
import PocketMoE.Lib.Csr
import PocketMoE.Lib.Numerals
import PocketMoE.Lib.SortBy
import PocketMoE.Runtime.TpRange

/-!
# `MiniMaxMoE`

Every rank has a range of the experts in a `MiniMaxM2DeviceResidentCache`. `MiniMaxMoE.__call__`
routes the tokens, adds up what the rank's own experts make of them, on one path for a single token
and on another for a batch, and reduces over the ranks. On all ranks the result is the sum over all
routes of weight times expert output (`minimax_moe_complete`), token by token, for every world.

The CUDA kernels are a parameter (`MoeKernels`), of which `Documented` says what they compute from
the routes that are passed to them. The arithmetic is exact, so the conversions to the type of the
reduction and back are identities.
-/

namespace PocketMoE.Runtime
open PocketMoE.Lib PocketMoE.Tensor

/-! ## The cache -/

/-- Types of routed tensors on the device. -/
inductive DeviceType where
  | iq2Xxs
  | q2K
  | iq1M
deriving DecidableEq

/-- A routed tensor of the checkpoint: the blocks of each expert. -/
structure RoutedTensor (B : Type) (nExperts : Nat) where
  typeName : DeviceType
  blocks : List B
  experts : blocks.length = nExperts

/-- A routed tensor on the device: the blocks of the experts of the rank. -/
structure DeviceRoutedTensor (B : Type) where
  typeName : DeviceType
  blocks : List B

/-- The three tensors of a layer. -/
structure DeviceRoutedLayer (B : Type) where
  w1 : DeviceRoutedTensor B
  w3 : DeviceRoutedTensor B
  w2 : DeviceRoutedTensor B

/-- `MiniMaxM2DeviceResidentCache`: a range of the experts that is not empty. -/
@[ext]
structure DeviceResidentCache (nExperts : Nat) where
  expertStart : Nat
  expertCount : Nat
  some_ : 0 < expertCount
  inside : expertStart + expertCount ≤ nExperts

namespace DeviceResidentCache

variable {nExperts : Nat} {B : Type}

/-- `MiniMaxM2DeviceResidentCache.__init__`. -/
def init (nExperts : Nat) (expertStart : Int) (expertCount : Option Int) :
    Except String (DeviceResidentCache nExperts) :=
  if expertStart < 0 then .error s!"expert_start must be non-negative, got {expertStart}"
  else
    let available := nExperts - expertStart
    if available < 0 then
      .error s!"expert_start {expertStart} outside MiniMax-M2 expert count {nExperts}"
    else
      let count := expertCount.getD available
      if h : 0 < count ∧ count ≤ available ∧ 0 ≤ expertStart then
        .ok ⟨expertStart.toNat, count.toNat, by omega, by omega⟩
      else
        .error (s!"expert range [{expertStart}, {expertStart + count}) is outside " ++
          s!"MiniMax-M2 expert count {nExperts}")

/-- `load_role`. -/
def loadRole (cache : DeviceResidentCache nExperts) (tensor : RoutedTensor B nExperts) :
    DeviceRoutedTensor B where
  typeName := tensor.typeName
  blocks := slice tensor.blocks cache.expertStart (cache.expertStart + cache.expertCount)

/-- `layer`. -/
def layer (cache : DeviceResidentCache nExperts) (w1 w3 w2 : RoutedTensor B nExperts) :
    DeviceRoutedLayer B where
  w1 := cache.loadRole w1
  w3 := cache.loadRole w3
  w2 := cache.loadRole w2

end DeviceResidentCache

/-- The cache of a rank. -/
def loadCache (nExperts world rank : Nat) : Except String (DeviceResidentCache nExperts) := do
  let (expertStart, expertCount) ← minimaxM2TpExpertRange nExperts world rank
  DeviceResidentCache.init nExperts expertStart (some expertCount)

/-! ## Kernels -/

/-- Routes in groups: the local experts that have some, the token and weight of each route, and
where the routes of each expert start. -/
structure MoeGroups (K : Type) where
  localIds : List Nat
  routeTokens : List Nat
  routeWeights : List K
  segStarts : List Nat

/-- The kernels of the CUDA extension that the module calls. -/
structure MoeKernels (K V B : Type) where
  moeGroupRoutes : {tokens : Nat} → (indices : Fin tokens → List Nat) →
    (weights : Fin tokens → List K) → (expertStart expertCount : Nat) → MoeGroups K
  ggufMoeSingleToken : (x : List K) → (routeSlots : List Nat) → (routeWeights : List K) →
    DeviceRoutedLayer B → V
  ggufMoePrefillGrouped : {tokens : Nat} → (x : Fin tokens → List K) → (routeTokens : List Nat) →
    (routeWeights : List K) → (segStarts : List Nat) → DeviceRoutedLayer B → Fin tokens → V

/-- The types of `gguf_moe_single_token_iq2_q2k_forward`, which checks the sizes of the blocks. -/
def singleTokenTypes (w1 w3 w2 : DeviceType) : Bool := w1 = .iq2Xxs ∧ w3 = .iq2Xxs ∧ w2 ≠ .iq1M

/-- The types of `gguf_moe_prefill_grouped_forward` with the grid for `w1`. -/
def prefillTypes (w1 w3 w2 : DeviceType) : Bool := (w3 ≠ .q2K → w3 = w1) ∧ (w2 ≠ .q2K → w2 = w1)

/-- Types that a kernel takes, in the order of its arguments. -/
def DeviceRoutedLayer.has {B : Type} (layer : DeviceRoutedLayer B)
    (types : DeviceType → DeviceType → DeviceType → Bool) : Bool :=
  types layer.w1.typeName layer.w3.typeName layer.w2.typeName

/-! ## `MiniMaxMoE` -/

/-- `torch.topk`: indices into the scores. -/
structure TorchTopk (K : Type) where
  indices : List K → Nat → List Nat
  inside : ∀ scores k, ∀ i ∈ indices scores k, i < scores.length

/-- The module: a row of gate weights and maybe a bias for each expert. -/
structure MiniMaxMoE (K : Type) (nExperts : Nat) where
  topK : Nat
  gateWeight : List (List K)
  gateBias : Option (List K)
  experts : gateWeight.length = nExperts

variable {K V B : Type} [Field K] {nExperts : Nat}

/-- `MiniMaxMoE.route` for a token. -/
def MiniMaxMoE.route [LinearOrder K] (moe : MiniMaxMoE K nExperts) (sigmoid : K → K)
    (topk : TorchTopk K) (x : List K) : List Nat × List K :=
  let logits := moe.gateWeight.map fun row => (List.zipWith (· * ·) x row).sum
  let probs := logits.map sigmoid
  let selectScores := match moe.gateBias with
    | none => probs
    | some bias => List.zipWith (· + ·) probs bias
  let indices := topk.indices selectScores moe.topK
  let weights := indices.map fun i => probs.getD i 0
  (indices, weights.map (· / max weights.sum (1 / 10 ^ 20)))

variable [AddCommGroup V]

/-- `MiniMaxMoE.__call__` up to the reduction; `none` is a kernel that refuses the tensors. -/
def contribution (kernels : MoeKernels K V B) (cache : DeviceResidentCache nExperts)
    (layer : DeviceRoutedLayer B) {tokens : Nat} (x : Fin tokens → List K)
    (indices : Fin tokens → List Nat) (weights : Fin tokens → List K) : Option (Fin tokens → V) :=
  if single : tokens = 1 then
    let first : Fin tokens := ⟨0, by omega⟩
    let routes := (indices first).zip (weights first)
    let expertStart := cache.expertStart
    let expertEnd := expertStart + cache.expertCount
    let local_ := routes.filter fun (slot, _) => expertStart ≤ slot ∧ slot < expertEnd
    let localSlots := local_.map fun (slot, _) => slot - expertStart
    let localWeights := local_.map fun (_, weight) => weight
    if localSlots.length = 0 then some 0
    else if layer.has singleTokenTypes then
      some fun _ => kernels.ggufMoeSingleToken (x first) localSlots localWeights layer
    else none
  else
    let grouped := kernels.moeGroupRoutes indices weights cache.expertStart cache.expertCount
    if grouped.routeTokens.length = 0 then some 0
    else if layer.has prefillTypes then
      some (kernels.ggufMoePrefillGrouped x grouped.routeTokens grouped.routeWeights
        grouped.segStarts layer)
    else none

/-- `MiniMaxMoE.__call__`; `initialized` says that `torch.distributed` is there and initialised. -/
def MiniMaxMoE.call [LinearOrder K] (moe : MiniMaxMoE K nExperts) (sigmoid : K → K)
    (topk : TorchTopk K) (kernels : MoeKernels K V B) (cache : DeviceResidentCache nExperts)
    (w1 w3 w2 : RoutedTensor B nExperts) (initialized : Bool) {tokens : Nat}
    (x : Fin tokens → List K) : Prog Unit (Fin tokens → V) (Fin tokens → V) :=
  let indices := fun t => (moe.route sigmoid topk (x t)).1
  let weights := fun t => (moe.route sigmoid topk (x t)).2
  match contribution kernels cache (cache.layer w1 w3 w2) x indices weights with
  | none => .raise
  | some y => if initialized then .call () y .ret else .ret y

/-- `all_reduce`. -/
def allReduce {T : Type} [AddCommMonoid T] {world : Nat} (_op : Unit) (values : Fin world → T) :
    T :=
  ∑ rank, values rank

/-! ## What the kernels compute -/

/-- All routes of all tokens: the expert, the token, the weight. -/
def allRoutes {tokens : Nat} (indices : Fin tokens → List Nat) (weights : Fin tokens → List K) :
    List (Nat × Nat × K) :=
  (List.finRange tokens).flatMap fun t =>
    ((indices t).zip (weights t)).map fun (e, weight) => (e, t.val, weight)

/-- The local expert of a route. -/
def localKey (expertStart expertCount : Nat) (route : Nat × Nat × K) : Option Nat :=
  if expertStart ≤ route.1 ∧ route.1 < expertStart + expertCount then some (route.1 - expertStart)
  else none

/-- What an expert of the rank makes of a token. -/
def DeviceRoutedLayer.expertAt [Inhabited B] (layer : DeviceRoutedLayer B)
    (expert : B → B → B → List K → V) (slot : Nat) (x : List K) : V :=
  expert (layer.w1.blocks.getD slot default) (layer.w3.blocks.getD slot default)
    (layer.w2.blocks.getD slot default) x

/-- The layer has the blocks of `count` experts. -/
structure DeviceRoutedLayer.Holds (layer : DeviceRoutedLayer B) (count : Nat) : Prop where
  w1 : layer.w1.blocks.length = count
  w3 : layer.w3.blocks.length = count
  w2 : layer.w2.blocks.length = count

/-- What the kernels are documented to compute from the routes that they get. -/
structure MoeKernels.Documented [Module K V] [Inhabited B] (kernels : MoeKernels K V B)
    (expert : B → B → B → List K → V) : Prop where
  groups : ∀ {tokens : Nat} (indices : Fin tokens → List Nat) (weights : Fin tokens → List K)
    (expertStart expertCount : Nat), 0 < expertCount →
    (∀ t, (indices t).length = (weights t).length) →
    let grouped := kernels.moeGroupRoutes indices weights expertStart expertCount
    grouped.routeTokens.length = grouped.routeWeights.length ∧
      Csr.Groups ⟨grouped.routeTokens.zip grouped.routeWeights, grouped.segStarts⟩
        (localKey expertStart expertCount) (fun route => route.2) expertCount
        (allRoutes indices weights)
  singleToken : ∀ (x : List K) (slots : List Nat) (weights : List K) (layer : DeviceRoutedLayer B)
    (count : Nat), layer.Holds count → layer.has singleTokenTypes → slots.length = weights.length →
    (∀ slot ∈ slots, slot < count) →
    kernels.ggufMoeSingleToken x slots weights layer =
      ((slots.zip weights).map fun (slot, weight) => weight • layer.expertAt expert slot x).sum
  prefillGrouped : ∀ {tokens : Nat} (x : Fin tokens → List K) (routeTokens : List Nat)
    (routeWeights : List K) (segStarts : List Nat) (layer : DeviceRoutedLayer B) (count : Nat),
    layer.Holds count → layer.has prefillTypes → routeTokens.length = routeWeights.length →
    segStarts.length = count + 1 → ∀ t,
    kernels.ggufMoePrefillGrouped x routeTokens routeWeights segStarts layer t =
      ((List.range count).map fun e =>
        ((Csr.segment ⟨routeTokens.zip routeWeights, segStarts⟩ e).map fun (token, weight) =>
          if token = t.val then weight • layer.expertAt expert e (x t) else 0).sum).sum

/-! ## The contribution of a rank -/

/-- The sum over the routes of a token that a rank owns. -/
def ownSum (expertStart expertCount : Nat) (term : Nat → K → V) (routes : List (Nat × K)) : V :=
  (routes.map fun (e, weight) =>
    if expertStart ≤ e ∧ e < expertStart + expertCount then term e weight else 0).sum

lemma sum_filter {ι : Type} (p : ι → Bool) (f : ι → V) (l : List ι) :
    ((l.filter p).map f).sum = (l.map fun i => if p i then f i else 0).sum := by
  induction l with
  | nil => rfl
  | cons i l ih =>
    rw [List.map_cons, List.sum_cons, ← ih]
    by_cases keep : p i
    · rw [List.filter_cons_of_pos keep, List.map_cons, List.sum_cons, if_pos keep]
    · rw [List.filter_cons_of_neg keep, if_neg keep, zero_add]

omit [Field K] in
lemma ownSum_eq (expertStart expertCount : Nat) (term : Nat → K → V) (routes : List (Nat × K)) :
    ownSum expertStart expertCount term routes =
      ((routes.filter fun (e, _) => expertStart ≤ e ∧ e < expertStart + expertCount).map
        fun (e, weight) => term e weight).sum := by
  rw [sum_filter, ownSum]
  refine congrArg List.sum (List.map_congr_left fun route _ => ?_)
  exact (if_congr decide_eq_true_iff rfl rfl).symm

variable [Inhabited B] (cache : DeviceResidentCache nExperts)
  (w1 w3 w2 : RoutedTensor B nExperts) (expert : B → B → B → List K → V)

/-- What an expert makes of a token. -/
def expertOf (e : Nat) (x : List K) : V :=
  expert (w1.blocks.getD e default) (w3.blocks.getD e default) (w2.blocks.getD e default) x

lemma loadRole_getD (tensor : RoutedTensor B nExperts) {slot : Nat}
    (inside : slot < cache.expertCount) : (cache.loadRole tensor).blocks.getD slot default =
      tensor.blocks.getD (cache.expertStart + slot) default := by
  rw [DeviceResidentCache.loadRole, List.getD_eq_getElem?_getD,
    getElem?_slice _ (Nat.add_lt_add_left inside _), List.getD_eq_getElem?_getD]

omit [Field K] [AddCommGroup V] in
lemma expertAt_layer {slot : Nat} (inside : slot < cache.expertCount) (x : List K) :
    (cache.layer w1 w3 w2).expertAt expert slot x =
      expertOf w1 w3 w2 expert (cache.expertStart + slot) x := by
  rw [DeviceRoutedLayer.expertAt, expertOf, DeviceResidentCache.layer,
    loadRole_getD cache w1 inside, loadRole_getD cache w3 inside, loadRole_getD cache w2 inside]

omit [Inhabited B] in
lemma layer_holds : (cache.layer w1 w3 w2).Holds cache.expertCount := by
  have size (tensor : RoutedTensor B nExperts) :
      (cache.loadRole tensor).blocks.length = cache.expertCount := by
    have inside := cache.inside
    rw [DeviceResidentCache.loadRole, length_slice, tensor.experts]
    omega
  exact ⟨size w1, size w3, size w2⟩

variable [Module K V] {cache w1 w3 w2 expert} {kernels : MoeKernels K V B}

/-- The term of a route of a token. -/
def routeTerm (w1 w3 w2 : RoutedTensor B nExperts) (expert : B → B → B → List K → V) (x : List K)
    (e : Nat) (weight : K) : V :=
  weight • expertOf w1 w3 w2 expert e x

lemma singleToken_eq (documented : kernels.Documented expert)
    (types : singleTokenTypes w1.typeName w3.typeName w2.typeName) (x : List K)
    (routes : List (Nat × K)) :
    let local_ := routes.filter fun (slot, _) =>
      cache.expertStart ≤ slot ∧ slot < cache.expertStart + cache.expertCount
    kernels.ggufMoeSingleToken x (local_.map fun (slot, _) => slot - cache.expertStart)
        (local_.map fun (_, weight) => weight) (cache.layer w1 w3 w2) =
      ownSum cache.expertStart cache.expertCount (routeTerm w1 w3 w2 expert x) routes := by
  intro local_
  have inside : ∀ route ∈ local_, cache.expertStart ≤ route.1 ∧
      route.1 < cache.expertStart + cache.expertCount := fun route member => by
    simpa using (List.mem_filter.mp member).2
  have slots : ∀ slot ∈ local_.map (fun (slot, _) => slot - cache.expertStart),
      slot < cache.expertCount := by
    intro slot member
    obtain ⟨route, member', rfl⟩ := List.mem_map.mp member
    have := inside route member'
    dsimp only
    omega
  rw [documented.singleToken x _ _ _ _ (layer_holds cache w1 w3 w2) types (by simp) slots,
    List.zip_map', List.map_map]
  calc (local_.map fun route => route.2 •
        (cache.layer w1 w3 w2).expertAt expert (route.1 - cache.expertStart) x).sum
      = (local_.map fun route => routeTerm w1 w3 w2 expert x route.1 route.2).sum := by
        refine congrArg List.sum (List.map_congr_left fun route member => ?_)
        obtain ⟨low, high⟩ := inside route member
        rw [expertAt_layer cache w1 w3 w2 expert (by omega), Nat.add_sub_cancel' low, routeTerm]
    _ = _ := (ownSum_eq ..).symm

omit [Field K] in
lemma sum_allRoutes {tokens : Nat} (indices : Fin tokens → List Nat)
    (weights : Fin tokens → List K) (term : Nat × Nat × K → V) :
    ((allRoutes indices weights).map term).sum = ∑ t : Fin tokens,
      (((indices t).zip (weights t)).map fun (e, weight) => term (e, t.val, weight)).sum := by
  rw [allRoutes, List.map_flatMap, List.flatMap_def, List.sum_flatten, List.map_map,
    Fin.sum_univ_def]
  refine congrArg List.sum (List.map_congr_left fun t _ => ?_)
  rw [Function.comp_apply, List.map_map]
  rfl

lemma prefillGrouped_eq (documented : kernels.Documented expert)
    (types : prefillTypes w1.typeName w3.typeName w2.typeName) {tokens : Nat}
    (x : Fin tokens → List K)
    {indices : Fin tokens → List Nat} {weights : Fin tokens → List K}
    (same : ∀ t, (indices t).length = (weights t).length) (t : Fin tokens) :
    let grouped := kernels.moeGroupRoutes indices weights cache.expertStart cache.expertCount
    kernels.ggufMoePrefillGrouped x grouped.routeTokens grouped.routeWeights grouped.segStarts
        (cache.layer w1 w3 w2) t =
      ownSum cache.expertStart cache.expertCount (routeTerm w1 w3 w2 expert (x t))
        ((indices t).zip (weights t)) := by
  intro grouped
  obtain ⟨aligned, groups⟩ := documented.groups indices weights cache.expertStart
    cache.expertCount cache.some_ same
  rw [documented.prefillGrouped x _ _ _ _ _ (layer_holds cache w1 w3 w2) types aligned
    groups.size t]
  have sum := groups.sum fun e (pair : Nat × K) =>
    if pair.1 = t.val then pair.2 • (cache.layer w1 w3 w2).expertAt expert e (x t) else 0
  refine (sum.trans (congrArg List.sum (List.map_congr_left (g := fun route =>
    if route.2.1 = t.val then
      if cache.expertStart ≤ route.1 ∧ route.1 < cache.expertStart + cache.expertCount then
        routeTerm w1 w3 w2 expert (x t) route.1 route.2.2 else 0
    else 0) fun route _ => ?_))).trans ?_
  · by_cases owned : cache.expertStart ≤ route.1 ∧
        route.1 < cache.expertStart + cache.expertCount
    · have slot : route.1 - cache.expertStart < cache.expertCount := by omega
      rw [localKey, if_pos owned, if_pos owned]
      dsimp only
      rw [if_pos slot, expertAt_layer cache w1 w3 w2 expert slot, Nat.add_sub_cancel' owned.1,
        routeTerm]
    · rw [localKey, if_neg owned, if_neg owned, ite_self]
  rw [sum_allRoutes, Finset.sum_eq_single t]
  · simp only [↓reduceIte]
    rfl
  · intro other _ ne
    have apart : ¬ other.val = t.val := fun eq => ne (Fin.ext eq)
    simp only [if_neg apart]
    exact List.sum_eq_zero (by simp)
  · exact fun outside => absurd (Finset.mem_univ t) outside

lemma ownSum_eq_zero (documented : kernels.Documented expert)
    (types : prefillTypes w1.typeName w3.typeName w2.typeName) {tokens : Nat}
    (x : Fin tokens → List K)
    {indices : Fin tokens → List Nat} {weights : Fin tokens → List K}
    (same : ∀ t, (indices t).length = (weights t).length)
    (none : (kernels.moeGroupRoutes indices weights cache.expertStart
      cache.expertCount).routeTokens.length = 0) (t : Fin tokens) :
    ownSum cache.expertStart cache.expertCount (routeTerm w1 w3 w2 expert (x t))
      ((indices t).zip (weights t)) = 0 := by
  obtain ⟨aligned, groups⟩ := documented.groups indices weights cache.expertStart
    cache.expertCount cache.some_ same
  have sum := documented.prefillGrouped x _ _ _ _ _ (layer_holds cache w1 w3 w2) types aligned
    groups.size t
  rw [← prefillGrouped_eq documented types x same t, sum, List.length_eq_zero_iff.mp none]
  simp [Csr.segment, slice]

lemma contribution_eq (documented : kernels.Documented expert) {tokens : Nat}
    (single : tokens = 1 → singleTokenTypes w1.typeName w3.typeName w2.typeName)
    (batch : tokens ≠ 1 → prefillTypes w1.typeName w3.typeName w2.typeName)
    (x : Fin tokens → List K) {indices : Fin tokens → List Nat} {weights : Fin tokens → List K}
    (same : ∀ t, (indices t).length = (weights t).length) :
    contribution kernels cache (cache.layer w1 w3 w2) x indices weights = some fun t =>
      ownSum cache.expertStart cache.expertCount (routeTerm w1 w3 w2 expert (x t))
        ((indices t).zip (weights t)) := by
  unfold contribution
  by_cases one : tokens = 1
  · subst one
    rw [dif_pos rfl]
    dsimp only
    have types : (cache.layer w1 w3 w2).has singleTokenTypes := single rfl
    rw [if_pos types]
    have only (t : Fin 1) : t = ⟨0, Nat.one_pos⟩ := Subsingleton.elim ..
    split_ifs with none
    · refine congrArg some (funext fun t => ?_)
      rw [List.length_map, List.length_eq_zero_iff] at none
      rw [only t, ownSum_eq, none]
      rfl
    · refine congrArg some (funext fun t => ?_)
      rw [only t]
      exact singleToken_eq documented (single rfl) _ _
  · rw [dif_neg one]
    dsimp only
    have types : (cache.layer w1 w3 w2).has prefillTypes := batch one
    rw [if_pos types]
    split_ifs with none
    · exact congrArg some (funext fun t =>
        (ownSum_eq_zero documented (batch one) x same none t).symm)
    · exact congrArg some (funext fun t => prefillGrouped_eq documented (batch one) x same t)

/-! ## All ranks -/

/-- The sum over all routes of a token. -/
def routedOutput [LinearOrder K] (moe : MiniMaxMoE K nExperts) (sigmoid : K → K)
    (topk : TorchTopk K) (w1 w3 w2 : RoutedTensor B nExperts) (expert : B → B → B → List K → V)
    (x : List K) : V :=
  (((moe.route sigmoid topk x).1.zip (moe.route sigmoid topk x).2).map fun (e, weight) =>
    weight • expertOf w1 w3 w2 expert e x).sum

lemma route_inside [LinearOrder K] (moe : MiniMaxMoE K nExperts) (sigmoid : K → K)
    (topk : TorchTopk K) (x : List K) : ∀ e ∈ (moe.route sigmoid topk x).1, e < nExperts := by
  intro e member
  have inside := topk.inside _ _ e member
  refine inside.trans_le ?_
  cases moe.gateBias with
  | none => simp [moe.experts]
  | some bias => simp [moe.experts]

lemma length_route [LinearOrder K] (moe : MiniMaxMoE K nExperts) (sigmoid : K → K)
    (topk : TorchTopk K) (x : List K) :
    (moe.route sigmoid topk x).1.length = (moe.route sigmoid topk x).2.length := by
  simp [MiniMaxMoE.route]

lemma loadCache_ok_iff {world rank : Nat} (member : rank < world)
    (cache : DeviceResidentCache nExperts) : loadCache nExperts world rank = .ok cache ↔
      cache.expertStart = cutAt nExperts world rank ∧
        cache.expertCount = partSize nExperts world rank := by
  have le : cutAt nExperts world rank + partSize nExperts world rank ≤ nExperts :=
    (cutAt_add_partSize ..).trans_le (cutAt_le member)
  rcases Nat.eq_zero_or_pos nExperts with rfl | experts
  · have some_ := cache.some_
    have inside := cache.inside
    omega
  have loaded : loadCache nExperts world rank = DeviceResidentCache.init nExperts
      (cutAt nExperts world rank) (some (partSize nExperts world rank)) := by
    rw [loadCache, minimaxM2TpExpertRange, tpRange_eq _ _ _ experts member]
    rfl
  rw [loaded, DeviceResidentCache.init, if_neg (by omega)]
  dsimp only [Option.getD_some]
  rw [if_neg (by omega)]
  split_ifs with some_
  · rw [Except.ok.injEq, eq_comm, DeviceResidentCache.ext_iff]
    simp only [Int.toNat_natCast]
  · constructor
    · intro bad
      cases bad
    · rintro ⟨start, count⟩
      have := cache.some_
      exact absurd (by omega) some_

/-- A world loads if it has no more ranks than there are experts. -/
theorem loadCache_iff {world : Nat} (pos : 0 < world) :
    (∀ rank < world, ∃ cache, loadCache nExperts world rank = .ok cache) ↔ world ≤ nExperts := by
  constructor
  · intro all
    obtain ⟨cache, loaded⟩ := all 0 pos
    obtain ⟨-, count⟩ := (loadCache_ok_iff pos cache).mp loaded
    refine Nat.not_lt.mp fun few => ?_
    have some_ := cache.some_
    rw [count, partSize, cutAt_zero, cutAt_one few] at some_
    exact Nat.lt_irrefl 0 some_
  · intro enough rank member
    have size := cutAt_lt_succ pos enough rank
    have some_ : 0 < partSize nExperts world rank := by
      rw [partSize]
      omega
    exact ⟨⟨_, _, some_, (cutAt_add_partSize ..).trans_le (cutAt_le member)⟩,
      (loadCache_ok_iff member _).mpr ⟨rfl, rfl⟩⟩

omit [Field K] [Module K V] in
lemma sum_ownSum {world : Nat} (pos : 0 < world) (term : Nat → K → V) {routes : List (Nat × K)}
    (inside : ∀ route ∈ routes, route.1 < nExperts) :
    ∑ rank ∈ Finset.range world,
        ownSum (cutAt nExperts world rank) (partSize nExperts world rank) term routes =
      (routes.map fun (e, weight) => term e weight).sum := by
  simp only [ownSum, cutAt_add_partSize]
  induction routes with
  | nil => exact Finset.sum_const_zero
  | cons route routes ih =>
    have rest := ih fun route member => inside route (List.mem_cons_of_mem _ member)
    have here := sum_owned (cutAt_zero nExperts world) (cutAt_mono nExperts world) route.1
      (term route.1 route.2) world
    rw [cutAt_self pos, if_pos (inside route List.mem_cons_self)] at here
    simp only [List.map_cons, List.sum_cons, Finset.sum_add_distrib]
    rw [rest, here]

/-- `MiniMaxMoE` is complete: what the ranks contribute adds up to the sum over all routes of weight
times expert output, for each token by itself, and every rank returns it. -/
theorem minimax_moe_complete [LinearOrder K] (documented : kernels.Documented expert)
    (moe : MiniMaxMoE K nExperts) (sigmoid : K → K) (topk : TorchTopk K) {world : Nat}
    (pos : 0 < world) {caches : Fin world → DeviceResidentCache nExperts}
    (loaded : ∀ rank : Fin world, loadCache nExperts world rank = .ok (caches rank))
    {initialized : Bool} (group : 1 < world → initialized) {tokens : Nat}
    (single : tokens = 1 → singleTokenTypes w1.typeName w3.typeName w2.typeName)
    (batch : tokens ≠ 1 → prefillTypes w1.typeName w3.typeName w2.typeName)
    (x : Fin tokens → List K) :
    (∃ y : Fin world → Fin tokens → V,
      (∀ rank, contribution kernels (caches rank) ((caches rank).layer w1 w3 w2) x
        (fun t => (moe.route sigmoid topk (x t)).1) (fun t => (moe.route sigmoid topk (x t)).2) =
          some (y rank)) ∧
      ∑ rank, y rank = fun t => routedOutput moe sigmoid topk w1 w3 w2 expert (x t)) ∧
    ∀ results : Fin world → Fin tokens → V,
      Completes allReduce (fun rank : Fin world => moe.call sigmoid topk kernels (caches rank)
          w1 w3 w2 initialized x) results ↔
        results = fun _ t => routedOutput moe sigmoid topk w1 w3 w2 expert (x t) := by
  have : Nonempty (Fin world) := ⟨⟨0, pos⟩⟩
  have ranges (rank : Fin world) := (loadCache_ok_iff rank.isLt (caches rank)).mp (loaded rank)
  let y : Fin world → Fin tokens → V := fun rank t =>
    ownSum (cutAt nExperts world rank) (partSize nExperts world rank)
      (routeTerm w1 w3 w2 expert (x t))
      ((moe.route sigmoid topk (x t)).1.zip (moe.route sigmoid topk (x t)).2)
  have contributed (rank : Fin world) : contribution kernels (caches rank)
      ((caches rank).layer w1 w3 w2) x (fun t => (moe.route sigmoid topk (x t)).1)
        (fun t => (moe.route sigmoid topk (x t)).2) = some (y rank) := by
    obtain ⟨start, count⟩ := ranges rank
    rw [contribution_eq documented single batch x fun t => length_route moe sigmoid topk (x t),
      start, count]
  have total : ∑ rank, y rank = fun t => routedOutput moe sigmoid topk w1 w3 w2 expert (x t) := by
    funext t
    rw [Finset.sum_apply]
    have inside : ∀ route ∈ (moe.route sigmoid topk (x t)).1.zip (moe.route sigmoid topk (x t)).2,
        route.1 < nExperts := fun route member =>
      route_inside moe sigmoid topk (x t) route.1 (List.of_mem_zip member).1
    have sum := sum_ownSum pos (routeTerm w1 w3 w2 expert (x t)) inside
    rw [← Fin.sum_univ_eq_sum_range fun rank => ownSum (cutAt nExperts world rank)
      (partSize nExperts world rank) (routeTerm w1 w3 w2 expert (x t)) _] at sum
    exact sum
  refine ⟨⟨y, contributed, total⟩, fun results => ?_⟩
  simp only [MiniMaxMoE.call, contributed]
  cases initialized with
  | true =>
    simp only [↓reduceIte]
    rw [completes_once_iff fun _ => rfl]
    simp only [allReduce, total]
  | false =>
    have one : world = 1 := by
      refine Nat.le_antisymm (Nat.not_lt.mp fun many => ?_) pos
      cases group many
    subst one
    simp only [Bool.false_eq_true, ↓reduceIte]
    rw [completes_ret_iff fun _ => rfl]
    have alone : y = fun _ t => routedOutput moe sigmoid topk w1 w3 w2 expert (x t) := by
      funext rank
      rw [← total, Fin.sum_univ_one, Subsingleton.elim rank 0]
    rw [alone]

/-! ## A small model -/

/-- Kernels on numbers that compute what is documented. -/
def MoeKernels.plain : MoeKernels ℚ ℚ ℚ where
  moeGroupRoutes indices weights expertStart expertCount :=
    let routes := sortBy (fun route => route.1 - expertStart)
      ((allRoutes indices weights).filter fun route =>
        (localKey expertStart expertCount route).isSome)
    { localIds := []
      routeTokens := routes.map fun route => route.2.1
      routeWeights := routes.map fun route => route.2.2
      segStarts := (List.range (expertCount + 1)).map fun b =>
        routes.countP (fun route => route.1 - expertStart < b) }
  ggufMoeSingleToken x slots weights layer := ((slots.zip weights).map fun (slot, weight) =>
    weight • layer.expertAt (fun b1 b3 b2 x => b1 * b3 * b2 * x.sum) slot x).sum
  ggufMoePrefillGrouped x routeTokens routeWeights segStarts layer t :=
    ((List.range layer.w1.blocks.length).map fun e =>
      ((Csr.segment ⟨routeTokens.zip routeWeights, segStarts⟩ e).map fun (token, weight) =>
        if token = t.val then
          weight • layer.expertAt (fun b1 b3 b2 x => b1 * b3 * b2 * x.sum) e (x t)
        else 0).sum).sum

lemma MoeKernels.plain_documented :
    MoeKernels.plain.Documented fun b1 b3 b2 x => b1 * b3 * b2 * x.sum where
  groups := by
    intro tokens indices weights expertStart expertCount _ _
    refine ⟨by simp [plain], ?_⟩
    have keys : ∀ route ∈ allRoutes indices weights, ∀ e,
        localKey expertStart expertCount route = some e →
          route.1 - expertStart = e ∧ e < expertCount := by
      intro route _ e key
      rw [localKey] at key
      split_ifs at key with inside
      obtain rfl := Option.some.inj key
      exact ⟨rfl, by omega⟩
    have groups := groups_of_sorted (fun route : Nat × Nat × ℚ => route.2)
      (sortBy_perm (fun route => route.1 - expertStart) _) keys (pairwise_sortBy _ _)
    rwa [← List.zip_map'] at groups
  singleToken := fun x slots weights layer count _ _ _ _ => rfl
  prefillGrouped := by
    intro tokens x routeTokens routeWeights segStarts layer count holds _ _ _ t
    rw [← holds.w1]
    rfl

/-- The scores are sorted already. -/
def firstScores : TorchTopk ℚ where
  indices scores k := (List.range scores.length).take k
  inside _ _ _ member := List.mem_range.mp (List.mem_of_mem_take member)

def threeExperts : MiniMaxMoE ℚ 3 := ⟨2, [[3], [2], [1]], none, rfl⟩

def threeBlocks : RoutedTensor ℚ 3 := ⟨.iq2Xxs, [1, 2, 3], rfl⟩

def twoCaches (rank : Fin 2) : DeviceResidentCache 3 :=
  match rank with
  | 0 => ⟨0, 1, Nat.one_pos, by decide⟩
  | 1 => ⟨1, 2, Nat.two_pos, by decide⟩

lemma twoCaches_loaded (rank : Fin 2) : loadCache 3 2 rank = .ok (twoCaches rank) := by
  rw [loadCache_ok_iff rank.isLt]
  match rank with
  | 0 => exact ⟨rfl, rfl⟩
  | 1 => exact ⟨rfl, rfl⟩

/-- Two ranks share three experts, and the token goes to one expert of each. -/
theorem minimax_moe_complete_two :
    Completes allReduce (fun rank : Fin 2 => threeExperts.call id firstScores .plain
        (twoCaches rank) threeBlocks threeBlocks threeBlocks true fun _ : Fin 1 => [1])
      fun _ _ => routedOutput threeExperts id firstScores threeBlocks threeBlocks threeBlocks
        (fun b1 b3 b2 x => b1 * b3 * b2 * x.sum) [(1 : ℚ)] :=
  ((minimax_moe_complete MoeKernels.plain_documented threeExperts id firstScores (by decide)
    twoCaches_loaded (fun _ => rfl) (fun _ => by decide) (fun many => absurd rfl many) _).2 _).mpr
      rfl

end PocketMoE.Runtime
