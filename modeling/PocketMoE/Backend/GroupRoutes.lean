import Mathlib.Data.Finset.Sort
import PocketMoE.Lib.Csr

/-!
# Routes grouped by expert

`_group_routes` and `_group_routes_single_token` (`gpu_prefill_backend.py`) sort the routes to local
experts by expert and say where the routes of each start: one looks the experts up in the sorted
list, the other adds up how many routes each has. The starts are 32-bit integers, so both are right
as long as fewer than 2^31 routes are local (`groupRoutes_groups`).
-/

namespace PocketMoE.Backend.GroupRoutes
open PocketMoE.Lib

variable {W F : Type}

/-! ## Tensors -/

/-- The experts and weights of each token. -/
structure Routing (W : Type) where
  topk : Nat
  indices : List (List Int)
  weights : List (List W)
  tokens : weights.length = indices.length
  indexWidth : ∀ row ∈ indices, row.length = topk
  weightWidth : ∀ row ∈ weights, row.length = topk

/-- `l[mask]`. -/
def maskSelect {α : Type} (l : List α) (mask : List Bool) : List α :=
  (l.zip mask).filterMap fun (a, keep) => if keep then some a else none

/-- `l[order]`. -/
def takeAt {α : Type} (l : List α) (order : List Nat) : List α := order.filterMap (l[·]?)

/-- An order that sorts; equal entries may come in any order. -/
structure ArgSort where
  order : List Int → List Nat
  perm : ∀ l, (order l).Perm (List.range l.length)
  sorted : ∀ l, (takeAt l (order l)).Pairwise (· ≤ ·)

/-- The stable order. -/
def ArgSort.stable : ArgSort where
  order := fun l => (List.range l.length).mergeSort fun i j => l.getD i 0 ≤ l.getD j 0
  perm := fun l => List.mergeSort_perm ..
  sorted := by
    intro l
    have sorted : ((List.range l.length).mergeSort fun i j => l.getD i 0 ≤ l.getD j 0).Pairwise
        fun i j => decide (l.getD i 0 ≤ l.getD j 0) :=
      List.pairwise_mergeSort (fun i j k => by simpa using le_trans)
        (fun i j => by simpa using le_total _ _) _
    have inside : takeAt l ((List.range l.length).mergeSort fun i j => l.getD i 0 ≤ l.getD j 0) =
        ((List.range l.length).mergeSort fun i j => l.getD i 0 ≤ l.getD j 0).map (l.getD · 0) := by
      rw [takeAt, ← List.filterMap_eq_map]
      refine List.filterMap_congr fun i member => ?_
      have lt := List.mem_range.mp (List.mem_mergeSort.mp member)
      rw [List.getElem?_eq_getElem lt, Function.comp_apply, List.getD_eq_getElem?_getD,
        List.getElem?_eq_getElem lt]
      rfl
    rw [inside, List.pairwise_map]
    exact sorted.imp of_decide_eq_true

/-- `torch.searchsorted` for a boundary. -/
def searchsorted (sorted : List Int) (boundary : Int) : Nat := sorted.countP (· < boundary)

/-- `torch.unique`. -/
def unique (l : List Int) : List Int := l.toFinset.sort (· ≤ ·)

/-- A number in 32 bits. -/
def int32 (n : Int) : Int := n.bmod (2 ^ 32)

/-- `torch.bincount(l, minlength)` of numbers below `minlength`. -/
def bincount (l : List Int) (minlength : Nat) : List Nat :=
  (List.range minlength).map fun e : Nat => l.count (e : Int)

/-- `torch.cumsum` in 32 bits, behind a zero. -/
def cumsum32 (counts : List Int) : List Int :=
  counts.scanl (fun total count => int32 (total + count)) 0

/-! ## `gpu_prefill_backend.py` -/

/-- The experts of a rank. -/
structure LocalExperts where
  expertsStartIdx : Int
  nLocalExperts : Nat

/-- What the kernels get. -/
@[ext]
structure GroupedRoutes (F : Type) where
  localIds : List Int
  routeTokens : List Nat
  routeWeights : List F
  segStarts : List Int

def LocalExperts.isLocal (self : LocalExperts) (localId : Int) : Bool :=
  0 ≤ localId ∧ localId < self.nLocalExperts

/-- `_group_routes`. -/
def groupRoutes (argsort : ArgSort) (toFloat32 : W → F) (self : LocalExperts) (r : Routing W) :
    Option (GroupedRoutes F) :=
  let flatIds := r.indices.flatten
  let flatWeights := r.weights.flatten
  let flatTokens := (List.range r.indices.length).flatMap (List.replicate r.topk)
  let mask := (flatIds.map (· - self.expertsStartIdx)).map self.isLocal
  if ¬ mask.any id then none
  else
    let localIds := (maskSelect flatIds mask).map (· - self.expertsStartIdx)
    let routeWeights := (maskSelect flatWeights mask).map toFloat32
    let routeTokens := maskSelect flatTokens mask
    let order := argsort.order localIds
    let localIds := takeAt localIds order
    some {
      localIds := unique localIds
      routeTokens := takeAt routeTokens order
      routeWeights := takeAt routeWeights order
      segStarts := (List.range (self.nLocalExperts + 1)).map fun boundary : Nat =>
        int32 (searchsorted localIds boundary) }

/-- `_group_routes_single_token`. -/
def groupRoutesSingleToken (argsort : ArgSort) (toFloat32 : W → F) (self : LocalExperts)
    (r : Routing W) : Option (GroupedRoutes F) :=
  let flatIds := r.indices.headD []
  let localIds := flatIds.map (· - self.expertsStartIdx)
  let mask := localIds.map self.isLocal
  if ¬ mask.any id then none
  else
    let localIds := maskSelect localIds mask
    let routeWeights := (maskSelect (r.weights.headD []) mask).map toFloat32
    let order := argsort.order localIds
    let localIds := takeAt localIds order
    some {
      localIds := unique localIds
      routeTokens := List.replicate localIds.length 0
      routeWeights := takeAt routeWeights order
      segStarts := cumsum32 ((bincount localIds self.nLocalExperts).map fun n : Nat => int32 n) }

/-! ## The routes -/

/-- An expert, the token that is routed to it, and the weight. -/
abbrev Route (W : Type) := Int × Nat × W

/-- All routes of all tokens. -/
def Routing.routes (r : Routing W) : List (Route W) :=
  (r.indices.zip r.weights).zipIdx.flatMap fun ((ids, weights), token) =>
    (ids.zip weights).map fun (id, weight) => (id, token, weight)

/-- The local expert of a route. -/
def LocalExperts.key (self : LocalExperts) (route : Route W) : Option Nat :=
  if self.isLocal (route.1 - self.expertsStartIdx) then
    some (route.1 - self.expertsStartIdx).toNat
  else none

/-- What a kernel sees of a route. -/
def pair (toFloat32 : W → F) (route : Route W) : Nat × F := (route.2.1, toFloat32 route.2.2)

/-- A result groups the local routes, if there is one. -/
structure GroupsRoutes (toFloat32 : W → F) (experts : LocalExperts) (r : Routing W)
    (g : GroupedRoutes F) : Prop where
  local_ : ∃ route ∈ r.routes, (experts.key route).isSome
  ids : g.localIds.Pairwise (· < ·)
  mem_ids : ∀ id, id ∈ g.localIds ↔
    ∃ route ∈ r.routes, ∃ e : Nat, experts.key route = some e ∧ (e : Int) = id
  aligned : g.routeTokens.length = g.routeWeights.length
  entries : (g.routeTokens.zip g.routeWeights).Perm
    ((r.routes.filter fun route => (experts.key route).isSome).map (pair toFloat32))
  groups : ∃ starts : List Nat, g.segStarts = starts.map (fun n : Nat => (n : Int)) ∧
    Csr.Groups ⟨g.routeTokens.zip g.routeWeights, starts⟩ experts.key (pair toFloat32)
      experts.nLocalExperts r.routes

/-- There is a result if a route is local, and it groups the local routes. -/
def Describes (toFloat32 : W → F) (experts : LocalExperts) (r : Routing W) :
    Option (GroupedRoutes F) → Prop
  | none => ∀ route ∈ r.routes, experts.key route = none
  | some g => GroupsRoutes toFloat32 experts r g

/-! ## Flat tensors -/

lemma maskSelect_map {α β : Type} (f : α → β) (p : α → Bool) (l : List α) :
    maskSelect (l.map f) (l.map p) = (l.filter p).map f := by
  induction l with
  | nil => rfl
  | cons x l ih =>
    rw [maskSelect] at ih
    by_cases keep : p x
    · simp [maskSelect, keep, ih]
    · simp [maskSelect, keep, ih]

lemma takeAt_map {α β : Type} (f : α → β) (l : List α) (order : List Nat) :
    takeAt (l.map f) order = (takeAt l order).map f := by
  simp only [takeAt, List.map_filterMap, List.getElem?_map]

lemma takeAt_perm {α : Type} {l : List α} {order : List Nat}
    (perm : order.Perm (List.range l.length)) : (takeAt l order).Perm l := by
  have all : (List.range l.length).filterMap (l[·]?) = l := by
    clear perm
    induction l with
    | nil => rfl
    | cons x l ih =>
      have head : (x :: l)[0]? = some x := rfl
      rw [List.length_cons, List.range_succ_eq_map, List.filterMap_cons_some head,
        List.filterMap_map]
      exact congrArg (x :: ·) ih
  rw [takeAt]
  exact (perm.filterMap _).trans (List.Perm.of_eq all)

lemma flat_rows {rows : List (List Int)} {weights : List (List W)} {topk : Nat}
    (tokens : weights.length = rows.length) (width : ∀ row ∈ rows, row.length = topk)
    (width' : ∀ row ∈ weights, row.length = topk) (first : Nat) :
    let routes := ((rows.zip weights).zipIdx first).flatMap fun ((ids, weights), token) =>
      (ids.zip weights).map fun (id, weight) => (id, token, weight)
    routes.map (·.1) = rows.flatten ∧ routes.map (·.2.2) = weights.flatten ∧
      routes.map (·.2.1) = (List.range' first rows.length).flatMap (List.replicate topk) := by
  induction rows generalizing weights first with
  | nil =>
    obtain rfl := List.length_eq_zero_iff.mp tokens
    exact ⟨rfl, rfl, rfl⟩
  | cons ids rows ih =>
    cases weights with
    | nil => cases tokens
    | cons ws weights =>
      have same : ids.length = ws.length :=
        (width ids List.mem_cons_self).trans (width' ws List.mem_cons_self).symm
      obtain ⟨ids_, weights_, tokens_⟩ := ih (Nat.succ.inj tokens)
        (fun row member => width row (List.mem_cons_of_mem _ member))
        (fun row member => width' row (List.mem_cons_of_mem _ member)) (first + 1)
      dsimp only
      rw [List.zip_cons_cons, List.zipIdx_cons, List.flatMap_cons, List.map_append,
        List.map_append, List.map_append, ids_, weights_, tokens_]
      refine ⟨?_, ?_, ?_⟩
      · rw [List.map_map, List.flatten_cons]
        exact congrArg (· ++ rows.flatten) (List.map_fst_zip same.le)
      · rw [List.map_map, List.flatten_cons]
        exact congrArg (· ++ weights.flatten) (List.map_snd_zip same.ge)
      · rw [List.map_map, List.length_cons, List.range'_succ, List.flatMap_cons]
        refine congrArg (· ++ _) ?_
        have size : (ids.zip ws).length = topk := by
          rw [List.length_zip, ← same, Nat.min_self, width ids List.mem_cons_self]
        rw [← size, ← List.map_const']
        rfl

lemma map_routes (r : Routing W) :
    r.routes.map (·.1) = r.indices.flatten ∧ r.routes.map (·.2.2) = r.weights.flatten ∧
      r.routes.map (·.2.1) =
        (List.range r.indices.length).flatMap (List.replicate r.topk) := by
  rw [List.range_eq_range']
  exact flat_rows r.tokens r.indexWidth r.weightWidth 0

/-! ## Numbers in 32 bits -/

lemma int32_small {n : Nat} (small : n < 2 ^ 31) : int32 n = n :=
  Int.bmod_eq_of_le_mul_two (by omega) (by omega)

lemma scanl_int32 (counts : List Nat) (total : Nat) :
    (counts.map fun n : Nat => int32 n).scanl (fun total count => int32 (total + count))
        (int32 total) =
      (List.range (counts.length + 1)).map fun b =>
        int32 ((total + (counts.take b).sum : Nat)) := by
  induction counts generalizing total with
  | nil => rfl
  | cons count counts ih =>
    have next : int32 (int32 total + int32 count) = int32 ((total + count : Nat)) := by
      rw [int32, int32, int32, Int.bmod_add_bmod, Int.add_bmod_bmod]
      rfl
    rw [List.map_cons, List.scanl_cons, next, ih, List.length_cons,
      List.range_succ_eq_map (n := counts.length + 1), List.map_cons, List.map_map]
    refine congrArg₂ List.cons rfl (List.map_congr_left fun b _ => ?_)
    rw [Function.comp_apply, List.take_succ_cons, List.sum_cons, Nat.add_assoc]

/-! ## Both groupings -/

namespace LocalExperts

variable (self : LocalExperts) (toFloat32 : W → F)

/-- The number of the local expert of a route. -/
def rank (route : Route W) : Nat := (route.1 - self.expertsStartIdx).toNat

/-- What is made of a sorted list of local routes. -/
def grouped (s : List (Route W)) : GroupedRoutes F where
  localIds := unique (s.map fun route => (self.rank route : Int))
  routeTokens := s.map fun route => route.2.1
  routeWeights := s.map fun route => toFloat32 route.2.2
  segStarts := (List.range (self.nLocalExperts + 1)).map fun b : Nat =>
    int32 (s.countP (self.rank · < b))

/-- The local routes, sorted by expert. -/
structure Sorts (experts : LocalExperts) (r : Routing W) (s : List (Route W)) : Prop where
  perm : s.Perm (r.routes.filter fun route => (experts.key route).isSome)
  sorted : s.Pairwise fun x y => experts.rank x ≤ experts.rank y
  some_ : s ≠ []

variable {self} {toFloat32}

lemma key_eq_some_iff {route : Route W} {e : Nat} : self.key route = some e ↔
    route.1 - self.expertsStartIdx = e ∧ self.rank route = e ∧ e < self.nLocalExperts := by
  rw [key, isLocal, rank]
  split_ifs with inside
  · simp only [decide_eq_true_eq] at inside
    rw [Option.some.injEq]
    omega
  · simp only [decide_eq_true_eq] at inside
    refine ⟨fun no => no.elim, fun yes => absurd ?_ inside⟩
    omega

lemma isSome_key (route : Route W) :
    (self.key route).isSome = self.isLocal (route.1 - self.expertsStartIdx) := by
  rw [key]
  split_ifs with inside
  · exact inside.symm
  · exact (Bool.eq_false_iff.mpr inside).symm

lemma any_local {r : Routing W} : (r.routes.map fun route => (self.key route).isSome).any id ↔
    r.routes.filter (fun route => (self.key route).isSome) ≠ [] := by
  simp [Option.isSome_iff_ne_none]

lemma key_eq_none {r : Routing W}
    (none : ¬ r.routes.filter (fun route => (self.key route).isSome) ≠ []) :
    ∀ route ∈ r.routes, self.key route = .none := by
  intro route member
  have outside := List.filter_eq_nil_iff.mp (not_not.mp none) route member
  simpa using outside

lemma sorts_takeAt (argsort : ArgSort) {r : Routing W} {local_ : List (Route W)}
    (filtered : r.routes.filter (fun route => (self.key route).isSome) = local_)
    (some_ : local_ ≠ []) :
    self.Sorts r (takeAt local_ (argsort.order
      (local_.map fun route => route.1 - self.expertsStartIdx))) := by
  have perm : (takeAt local_ (argsort.order
      (local_.map fun route => route.1 - self.expertsStartIdx))).Perm local_ := by
    have order := argsort.perm (local_.map fun route => route.1 - self.expertsStartIdx)
    rw [List.length_map] at order
    exact takeAt_perm order
  refine ⟨perm.trans (List.Perm.of_eq filtered.symm), ?_, fun empty => ?_⟩
  · have sorted := argsort.sorted (local_.map fun route => route.1 - self.expertsStartIdx)
    rw [takeAt_map, List.pairwise_map] at sorted
    exact sorted.imp fun le => Int.toNat_le_toNat le
  · rw [empty] at perm
    exact some_ perm.nil_eq.symm

lemma Sorts.ids {r : Routing W} {s : List (Route W)} (sorts : self.Sorts r s) :
    s.map (fun route => route.1 - self.expertsStartIdx) =
      s.map fun route => (self.rank route : Int) := by
  refine List.map_congr_left fun route member => ?_
  obtain ⟨-, local_⟩ := List.mem_filter.mp (sorts.perm.mem_iff.mp member)
  obtain ⟨e, here⟩ := Option.isSome_iff_exists.mp local_
  obtain ⟨id, rank_, -⟩ := key_eq_some_iff.mp here
  rw [id, rank_]

lemma Sorts.searchsorted {r : Routing W} {s : List (Route W)} (sorts : self.Sorts r s) :
    ((List.range (self.nLocalExperts + 1)).map fun boundary : Nat =>
      int32 (searchsorted (s.map fun route => route.1 - self.expertsStartIdx) boundary)) =
      (self.grouped toFloat32 s).segStarts := by
  refine List.map_congr_left fun b _ => congrArg (fun n : Nat => int32 n) ?_
  rw [GroupRoutes.searchsorted, sorts.ids, List.countP_map]
  refine List.countP_congr fun route _ => ?_
  simp

lemma Sorts.cumsum {r : Routing W} {s : List (Route W)} (sorts : self.Sorts r s) :
    cumsum32 ((bincount (s.map fun route => route.1 - self.expertsStartIdx)
        self.nLocalExperts).map fun n : Nat => int32 n) =
      (self.grouped toFloat32 s).segStarts := by
  have counts : bincount (s.map fun route => route.1 - self.expertsStartIdx) self.nLocalExperts =
      (List.range self.nLocalExperts).map fun e => s.countP (self.rank · = e) := by
    refine List.map_congr_left fun e _ => ?_
    rw [sorts.ids, List.count, List.countP_map]
    refine List.countP_congr fun route _ => ?_
    simp
  have sums := scanl_int32 ((List.range self.nLocalExperts).map fun e =>
    s.countP (self.rank · = e)) 0
  rw [counts]
  refine sums.trans ?_
  rw [List.length_map, List.length_range]
  refine List.map_congr_left fun b member => congrArg (fun n : Nat => int32 n) ?_
  have le := Nat.le_of_lt_succ (List.mem_range.mp member)
  rw [Nat.zero_add, ← List.map_take, List.take_range, Nat.min_eq_left le, sum_countP]

lemma groupRoutes_sorts (argsort : ArgSort) (r : Routing W) :
    (groupRoutes argsort toFloat32 self r = none ∧ ∀ route ∈ r.routes, self.key route = none) ∨
      ∃ s, self.Sorts r s ∧
        groupRoutes argsort toFloat32 self r = some (self.grouped toFloat32 s) := by
  obtain ⟨ids, weights, tokens⟩ := map_routes r
  have mask : (r.indices.flatten.map (· - self.expertsStartIdx)).map self.isLocal =
      r.routes.map fun route => (self.key route).isSome := by
    rw [← ids, List.map_map, List.map_map]
    exact List.map_congr_left fun route _ => (isSome_key route).symm
  obtain ⟨local_, filtered⟩ :
      ∃ local_, r.routes.filter (fun route => (self.key route).isSome) = local_ := ⟨_, rfl⟩
  unfold groupRoutes
  simp only [mask]
  rw [← ids, ← weights, ← tokens, maskSelect_map, maskSelect_map, maskSelect_map, filtered]
  split_ifs with found
  · have sorts := sorts_takeAt argsort filtered (filtered ▸ any_local.mp found)
    refine .inr ⟨_, sorts, congrArg some ?_⟩
    rw [List.map_map, List.map_map, takeAt_map, takeAt_map, takeAt_map]
    exact GroupedRoutes.ext (congrArg unique sorts.ids) rfl rfl sorts.searchsorted
  · exact .inl ⟨rfl, key_eq_none fun some_ => found (any_local.mpr some_)⟩

lemma groupRoutesSingleToken_sorts (argsort : ArgSort) {r : Routing W}
    (single : r.indices.length = 1) :
    (groupRoutesSingleToken argsort toFloat32 self r = none ∧
        ∀ route ∈ r.routes, self.key route = none) ∨
      ∃ s, self.Sorts r s ∧
        groupRoutesSingleToken argsort toFloat32 self r = some (self.grouped toFloat32 s) := by
  obtain ⟨ids, weights, tokens⟩ := map_routes r
  obtain ⟨flatIds, indices_⟩ := List.length_eq_one_iff.mp single
  obtain ⟨flatWeights, weights_⟩ := List.length_eq_one_iff.mp (r.tokens.trans single)
  rw [indices_, List.flatten_singleton] at ids
  rw [weights_, List.flatten_singleton] at weights
  have localIds : flatIds.map (· - self.expertsStartIdx) =
      r.routes.map fun route => route.1 - self.expertsStartIdx := by
    rw [← ids, List.map_map]
    rfl
  have mask : (r.routes.map fun route => route.1 - self.expertsStartIdx).map self.isLocal =
      r.routes.map fun route => (self.key route).isSome := by
    rw [List.map_map]
    exact List.map_congr_left fun route _ => (isSome_key route).symm
  have zero : ∀ route ∈ r.routes, route.2.1 = 0 := by
    intro route member
    have token := List.mem_map_of_mem (f := fun route : Route W => route.2.1) member
    rw [tokens, single] at token
    exact List.eq_of_mem_replicate (by simpa using token)
  obtain ⟨local_, filtered⟩ :
      ∃ local_, r.routes.filter (fun route => (self.key route).isSome) = local_ := ⟨_, rfl⟩
  unfold groupRoutesSingleToken
  rw [indices_, weights_]
  simp only [List.headD_cons, localIds, mask]
  rw [← weights, maskSelect_map, maskSelect_map, filtered]
  split_ifs with found
  · have sorts := sorts_takeAt argsort filtered (filtered ▸ any_local.mp found)
    refine .inr ⟨_, sorts, congrArg some ?_⟩
    rw [List.map_map, takeAt_map, takeAt_map]
    refine GroupedRoutes.ext (congrArg unique sorts.ids) ?_ rfl sorts.cumsum
    rw [List.length_map]
    refine (List.map_eq_replicate_iff.mpr fun route member => ?_).symm
    exact zero route (List.mem_of_mem_filter (sorts.perm.mem_iff.mp member))
  · exact .inl ⟨rfl, key_eq_none fun some_ => found (any_local.mpr some_)⟩

lemma Sorts.groups {r : Routing W} {s : List (Route W)} (sorts : self.Sorts r s)
    (few : r.routes.countP (fun route => (self.key route).isSome) < 2 ^ 31) :
    GroupsRoutes toFloat32 self r (self.grouped toFloat32 s) := by
  have member {route : Route W} : route ∈ s ↔ route ∈ r.routes ∧ (self.key route).isSome := by
    rw [sorts.perm.mem_iff, List.mem_filter]
  have length : s.length < 2 ^ 31 := by
    rwa [sorts.perm.length_eq, ← List.countP_eq_length_filter]
  have zipped : (self.grouped toFloat32 s).routeTokens.zip (self.grouped toFloat32 s).routeWeights =
      s.map (pair toFloat32) := List.zip_map' ..
  refine ⟨?_, ?_, fun id => ?_, ?_, ?_, (List.range (self.nLocalExperts + 1)).map fun b =>
    s.countP (self.rank · < b), ?_, ?_⟩
  · obtain ⟨route, here⟩ := List.exists_mem_of_ne_nil s sorts.some_
    exact ⟨route, member.mp here⟩
  · exact (Finset.sortedLT_sort (s.map fun route => (self.rank route : Int)).toFinset).pairwise
  · rw [grouped, unique, Finset.mem_sort, List.mem_toFinset, List.mem_map]
    constructor
    · rintro ⟨route, here, rfl⟩
      obtain ⟨here, some_⟩ := member.mp here
      obtain ⟨e, key_⟩ := Option.isSome_iff_exists.mp some_
      obtain ⟨-, rank_, -⟩ := key_eq_some_iff.mp key_
      exact ⟨route, here, e, key_, congrArg _ rank_.symm⟩
    · rintro ⟨route, here, e, key_, rfl⟩
      obtain ⟨-, rank_, -⟩ := key_eq_some_iff.mp key_
      exact ⟨route, member.mpr ⟨here, Option.isSome_of_eq_some key_⟩, congrArg _ rank_⟩
  · rw [grouped, List.length_map, List.length_map]
  · rw [zipped]
    exact sorts.perm.map _
  · rw [grouped, List.map_map]
    refine List.map_congr_left fun b _ => ?_
    exact int32_small (List.countP_le_length.trans_lt length)
  · rw [zipped]
    refine groups_of_sorted (pair toFloat32) sorts.perm (fun route _ e key_ => ?_) sorts.sorted
    exact (key_eq_some_iff.mp key_).2

lemma Sorts.not_none {r : Routing W} {s : List (Route W)} (sorts : self.Sorts r s) :
    ¬ ∀ route ∈ r.routes, self.key route = none := by
  intro none
  obtain ⟨route, here⟩ := List.exists_mem_of_ne_nil s sorts.some_
  obtain ⟨member, some_⟩ := List.mem_filter.mp (sorts.perm.mem_iff.mp here)
  rw [none route member] at some_
  cases some_

lemma Sorts.same {r : Routing W} {s s' : List (Route W)} (sorts : self.Sorts r s)
    (sorts' : self.Sorts r s') :
    ((self.grouped toFloat32 s').localIds, (self.grouped toFloat32 s').segStarts) =
      ((self.grouped toFloat32 s).localIds, (self.grouped toFloat32 s).segStarts) := by
  have perm : s'.Perm s := sorts'.perm.trans sorts.perm.symm
  have ids : (self.grouped toFloat32 s').localIds = (self.grouped toFloat32 s).localIds := by
    rw [grouped, grouped, unique, unique, List.toFinset_eq_of_perm _ _ (perm.map _)]
  have starts : (self.grouped toFloat32 s').segStarts = (self.grouped toFloat32 s).segStarts :=
    List.map_congr_left fun b _ => congrArg (fun n : Nat => int32 n) (perm.countP_eq _)
  rw [ids, starts]

end LocalExperts

/-- With fewer than 2^31 local routes both functions group the routes, and for one token the groups
are at the same places. -/
theorem groupRoutes_groups (argsort argsort' : ArgSort) (toFloat32 : W → F) (self : LocalExperts)
    (r : Routing W) (few : r.routes.countP (fun route => (self.key route).isSome) < 2 ^ 31) :
    Describes toFloat32 self r (groupRoutes argsort toFloat32 self r) ∧
      (r.indices.length = 1 →
        Describes toFloat32 self r (groupRoutesSingleToken argsort' toFloat32 self r) ∧
          (groupRoutesSingleToken argsort' toFloat32 self r).map
              (fun g => (g.localIds, g.segStarts)) =
            (groupRoutes argsort toFloat32 self r).map fun g => (g.localIds, g.segStarts)) := by
  rcases LocalExperts.groupRoutes_sorts argsort r with ⟨all, none⟩ | ⟨s, sorts, all⟩
  · rw [all]
    refine ⟨none, fun single => ?_⟩
    rcases LocalExperts.groupRoutesSingleToken_sorts argsort' single with
      ⟨all', -⟩ | ⟨s', sorts', -⟩
    · rw [all']
      exact ⟨none, rfl⟩
    · exact absurd none sorts'.not_none
  · rw [all]
    refine ⟨sorts.groups few, fun single => ?_⟩
    rcases LocalExperts.groupRoutesSingleToken_sorts argsort' single with
      ⟨-, none⟩ | ⟨s', sorts', all'⟩
    · exact absurd none sorts.not_none
    · rw [all']
      exact ⟨sorts'.groups few, congrArg some (sorts.same sorts')⟩

/-- Every token goes to expert 0. -/
def allToZero (tokens : Nat) : Routing Unit where
  topk := 1
  indices := List.replicate tokens [0]
  weights := List.replicate tokens [()]
  tokens := by rw [List.length_replicate, List.length_replicate]
  indexWidth := fun row member => by rw [List.eq_of_mem_replicate member]; rfl
  weightWidth := fun row member => by rw [List.eq_of_mem_replicate member]; rfl

lemma not_describes (argsort : ArgSort) {tokens : Nat} (wraps : int32 tokens < 0) :
    ¬ Describes id ⟨0, 1⟩ (allToZero tokens)
      (groupRoutes argsort id ⟨0, 1⟩ (allToZero tokens)) := by
  have flat : (allToZero tokens).routes.map (·.1) = List.replicate tokens 0 := by
    rw [(map_routes _).1]
    simp [allToZero]
  have zero : ∀ route ∈ (allToZero tokens).routes, LocalExperts.key ⟨0, 1⟩ route = some 0 := by
    intro route member
    have id_ := List.mem_map_of_mem (f := fun route : Route Unit => route.1) member
    rw [flat] at id_
    have id_ : route.1 = 0 := List.eq_of_mem_replicate id_
    rw [LocalExperts.key, id_]
    rfl
  have length : (allToZero tokens).routes.length = tokens := by
    rw [← List.length_map (f := fun route : Route Unit => route.1), flat, List.length_replicate]
  have result : (groupRoutes argsort id ⟨0, 1⟩ (allToZero tokens) = none ∧
      ∀ route ∈ (allToZero tokens).routes, LocalExperts.key ⟨0, 1⟩ route = none) ∨
        ∃ s, LocalExperts.Sorts ⟨0, 1⟩ (allToZero tokens) s ∧
          groupRoutes argsort id ⟨0, 1⟩ (allToZero tokens) =
            some (LocalExperts.grouped ⟨0, 1⟩ id s) := LocalExperts.groupRoutes_sorts argsort _
  rcases result with ⟨-, none⟩ | ⟨s, sorts, all⟩
  · have empty : (allToZero tokens).routes = [] := by
      refine List.eq_nil_iff_forall_not_mem.mpr fun route member => ?_
      cases (zero route member).symm.trans (none route member)
    rw [empty, List.length_nil] at length
    rw [← length] at wraps
    exact absurd wraps (by decide)
  · rw [all]
    intro groups
    obtain ⟨starts, segStarts, -⟩ := groups.groups
    have whole : s.countP (LocalExperts.rank ⟨0, 1⟩ · < 1) = tokens := by
      have routes : s.length = tokens := by
        rw [sorts.perm.length_eq, List.filter_eq_self.mpr fun route member => by
          rw [zero route member]; rfl, length]
      rw [← routes, List.countP_eq_length]
      intro route member
      have member := List.mem_of_mem_filter (sorts.perm.mem_iff.mp member)
      obtain ⟨-, rank_, -⟩ := LocalExperts.key_eq_some_iff.mp (zero route member)
      rw [rank_]
      rfl
    have last : (LocalExperts.grouped ⟨0, 1⟩ (id : Unit → Unit) s).segStarts[1]? =
        some (int32 tokens) := by
      rw [← whole]
      rfl
    rw [segStarts, List.getElem?_map, Option.map_eq_some_iff] at last
    obtain ⟨start, -, eq⟩ := last
    omega

/-- No route is local, or 2^31 are. -/
theorem groupRoutes_not_groups :
    groupRoutes .stable (id : Unit → Unit) ⟨0, 4⟩ ⟨1, [[7]], [[()]], rfl, by decide, by decide⟩ =
        none ∧
      ¬ Describes id ⟨0, 1⟩ (allToZero (2 ^ 31))
        (groupRoutes .stable id ⟨0, 1⟩ (allToZero (2 ^ 31))) :=
  ⟨rfl, not_describes _ (by decide)⟩

/-- One token: a route comes twice, and another is out of range. -/
def repeatedRoutes : Routing Nat where
  topk := 4
  indices := [[5, 4, 5, 9]]
  weights := [[10, 11, 10, 13]]
  tokens := rfl
  indexWidth := by decide
  weightWidth := by decide

theorem groupRoutes_groups_repeated :
    Describes id ⟨4, 2⟩ repeatedRoutes (groupRoutes .stable id ⟨4, 2⟩ repeatedRoutes) ∧
      Describes id ⟨4, 2⟩ repeatedRoutes
        (groupRoutesSingleToken .stable id ⟨4, 2⟩ repeatedRoutes) :=
  have both := groupRoutes_groups .stable .stable id ⟨4, 2⟩ repeatedRoutes (by decide)
  ⟨both.1, (both.2 rfl).1⟩

end PocketMoE.Backend.GroupRoutes
