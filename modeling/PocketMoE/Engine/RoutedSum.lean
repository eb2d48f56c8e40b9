import PocketMoE.Engine.ExpertArena
import PocketMoE.Lib.Tensor
import PocketMoE.Lib.TopK
import Mathlib.Algebra.BigOperators.Group.Finset.Basic
import Mathlib.Algebra.Order.BigOperators.Group.Finset
import Mathlib.Data.Real.Basic

/-!
# The routed experts of a decode step

Model of the MoE part of `run_safetensors_token_forward_impl` (`dsv4_engine.cpp`) and of the
`moe_single_*` kernels (`fp4_ops.cu`). Each rank keeps the routes to its own experts, stages these
experts, writes their numbers over the front of the device list of route ids and launches the kernel
over all routes; the ranks' results are then summed. One feature of the output is modelled, and an
expert is an arbitrary function `E` of its bytes, applied to the token's input.

`RoutedSum` is what the sum should be. The weights stay where they are when the ids move to the
front, so that it is right exactly when one rank has all the routes and, in a sparse arena, enough
slots for them (`routedSum_iff`).
-/

namespace PocketMoE.Engine
open PocketMoE.Tensor ActiveArena

/-- An engine's experts and ranks. -/
structure MoeSetup where
  nRoutedExperts : Nat
  tpWorld : Nat
  world_pos : 0 < tpWorld
  world_dvd : tpWorld ∣ nRoutedExperts
  mode : ArenaMode

namespace MoeSetup

variable (m : MoeSetup)

/-- The number of experts of one rank. -/
def expertsPerRank : Nat :=
  if 1 < m.tpWorld then m.nRoutedExperts / m.tpWorld else m.nRoutedExperts

/-- The first expert of a rank. -/
def expertStart (tpRank : Nat) : Nat := tpRank * m.expertsPerRank

/-- The end of a rank's experts. -/
def expertEnd (tpRank : Nat) : Nat :=
  if 1 < m.tpWorld then m.expertStart tpRank + m.expertsPerRank else m.nRoutedExperts

/-- The routes of a token that a rank keeps. -/
def localRoutes (tpRank : Nat) (ids : List Nat) : List Nat :=
  ids.filter fun id =>
    ¬ (1 < m.tpWorld ∧ (id < m.expertStart tpRank ∨ m.expertEnd tpRank ≤ id))

/-- What the kernels compute for one route: nothing if its id names no slot, else the expert in the
slot with the route's weight. -/
def routeValue {Bytes K : Type} [Semiring K] (E : Bytes → K) (id : Nat) (weight : K)
    (bytes : Nat → Bytes) (expertsStartIdx nLocalExperts : Nat) : K :=
  if expertsStartIdx ≤ id ∧ id - expertsStartIdx < nLocalExperts then
    weight * E (bytes (id - expertsStartIdx))
  else 0

/-- `moe_single_token_fp4_cuda_with_workspace`: the sum over all routes. -/
def moeSingleToken {Bytes K : Type} [Semiring K] (E : Bytes → K) (indices : Nat → Nat)
    (weights : Nat → K) (bytes : Nat → Bytes) (topk expertsStartIdx nLocalExperts : Nat) : K :=
  ∑ route ∈ Finset.range topk,
    routeValue E (indices route) (weights route) bytes expertsStartIdx nLocalExperts

/-- One rank's step: the arena it leaves and what it adds to the sum. -/
def rankStep {Bytes K : Type} [Semiring K] (file : Nat → Bytes) (E : Bytes → K) (tpRank : Nat)
    (arena : ActiveArena Bytes) (ids : List Nat) (weights : Nat → K) : ActiveArena Bytes × K :=
  let start := m.expertStart tpRank
  let routeIndices := m.localRoutes tpRank ids
  if routeIndices = [] then
    (arena, 0)
  else
    let (arena, slots) :=
      arena.stageAll (fun loc => file (start + loc)) (routeIndices.map fun id => id - start)
    let kernelIds := if arena.sparseSlots then slots.map fun slot => start + slot else routeIndices
    let indices := storeRows (fun route => (ids[route]?).getD 0) 0 kernelIds
    let nLocal := if arena.sparseSlots then arena.slots.capacity else m.expertsPerRank
    (arena, moeSingleToken E indices weights arena.bytes ids.length start nLocal)

/-- The routes that a gate can give a token: different experts. -/
structure Routes (m : MoeSetup) where
  ids : List Nat
  nodup : ids.Nodup
  lt : ∀ id ∈ ids, id < m.nRoutedExperts

/-- Whatever the experts, the weights and the arenas that earlier steps left, the sum over the ranks
is the weighted sum of the token's experts. -/
def RoutedSum (t : Routes m) : Prop :=
  ∀ (Bytes : Type) (file : Nat → Bytes) (E : Bytes → ℝ) (weights : Nat → ℝ)
    (arenas : Nat → ActiveArena Bytes),
    (∀ r, r < m.tpWorld →
      Reached (fun loc => file (m.expertStart r + loc)) m.mode m.expertsPerRank (arenas r)) →
    ∑ r ∈ Finset.range m.tpWorld, (m.rankStep file E r (arenas r) t.ids weights).2 =
      ∑ route ∈ Finset.range t.ids.length, weights route * E (file ((t.ids[route]?).getD 0))

/-! ## Which rank has an expert -/

variable {m} {t : Routes m}

lemma expertsPerRank_mul : m.tpWorld * m.expertsPerRank = m.nRoutedExperts := by
  have pos := m.world_pos
  rw [expertsPerRank]
  split_ifs with many
  · exact Nat.mul_div_cancel' m.world_dvd
  · rw [show m.tpWorld = 1 from by omega, Nat.one_mul]

lemma expertsPerRank_pos {id : Nat} (lt : id < m.nRoutedExperts) : 0 < m.expertsPerRank := by
  rw [← expertsPerRank_mul] at lt
  exact Nat.pos_of_mul_pos_left (Nat.zero_lt_of_lt lt)

lemma mem_localRoutes (t : Routes m) {r id : Nat} (hr : r < m.tpWorld) :
    id ∈ m.localRoutes r t.ids ↔ id ∈ t.ids ∧ id / m.expertsPerRank = r := by
  rw [localRoutes, List.mem_filter]
  refine and_congr_right fun member => ?_
  have lt := t.lt id member
  have pos := expertsPerRank_pos lt
  rw [decide_eq_true_eq, Nat.div_eq_iff pos, expertEnd, expertStart]
  by_cases many : 1 < m.tpWorld
  · simp only [many, if_true, true_and]
    omega
  · obtain rfl : r = 0 := by omega
    have all : m.expertsPerRank = m.nRoutedExperts := if_neg many
    simp only [many, false_and, not_false_eq_true, true_iff]
    omega

lemma nodup_locals (t : Routes m) {r : Nat} (hr : r < m.tpWorld) :
    ((m.localRoutes r t.ids).map fun id => id - m.expertStart r).Nodup := by
  refine List.Nodup.map_on ?_ (t.nodup.filter _)
  intro a ha b hb e
  have low {id : Nat} (member : id ∈ m.localRoutes r t.ids) : m.expertStart r ≤ id := by
    obtain ⟨-, rank⟩ := (mem_localRoutes t hr).mp member
    rw [expertStart, ← rank]
    exact Nat.div_mul_le_self id _
  have := low ha
  have := low hb
  omega

lemma rankStep_none {Bytes K : Type} [Semiring K] {file : Nat → Bytes} {E : Bytes → K} {r : Nat}
    {arena : ActiveArena Bytes} {ids : List Nat} {weights : Nat → K}
    (none_ : m.localRoutes r ids = []) : (m.rankStep file E r arena ids weights).2 = 0 := by
  simp [rankStep, none_]

lemma rankStep_some {Bytes K : Type} [Semiring K] {file : Nat → Bytes} {E : Bytes → K} {r : Nat}
    {arena : ActiveArena Bytes} {ids : List Nat} {weights : Nat → K}
    (some_ : m.localRoutes r ids ≠ [])
    (ok : Loaded (fun loc => file (m.expertStart r + loc)) arena)
    (low : ∀ id ∈ m.localRoutes r ids, m.expertStart r ≤ id) :
    let staged := arena.stageAll (fun loc => file (m.expertStart r + loc))
      ((m.localRoutes r ids).map fun id => id - m.expertStart r)
    (m.rankStep file E r arena ids weights).2 =
      moeSingleToken E
        (storeRows (fun route => (ids[route]?).getD 0) 0
          (staged.2.map fun slot => m.expertStart r + slot))
        weights staged.1.bytes ids.length (m.expertStart r)
        (if arena.sparseSlots then arena.slots.capacity else m.expertsPerRank) := by
  have mode := stageAll_mode ok ((m.localRoutes r ids).map fun id => id - m.expertStart r)
  simp only [rankStep, if_neg some_, mode]
  by_cases sparse : arena.sparseSlots
  · simp only [if_pos sparse]
  · -- a dense arena's slots are the local numbers, so the ids are those of the routes
    have slots := (stageAll_dense ok sparse
      ((m.localRoutes r ids).map fun id => id - m.expertStart r)).1
    have same : (m.localRoutes r ids).map (fun id => m.expertStart r + (id - m.expertStart r)) =
        m.localRoutes r ids := by
      conv_rhs => rw [← List.map_id (m.localRoutes r ids)]
      apply List.map_congr_left
      intro id member
      have := low id member
      simp only [id_eq]
      omega
    simp only [if_neg sparse, slots, List.map_map, Function.comp_def, same]

/-! ## One rank has all routes -/

/-- All experts of the token belong to the same rank. -/
def Routes.OneRank (t : Routes m) : Prop :=
  ∀ a ∈ t.ids, ∀ b ∈ t.ids, a / m.expertsPerRank = b / m.expertsPerRank

/-- The token has no more routes than a sparse arena has slots. -/
def Routes.Fits (t : Routes m) : Prop :=
  m.mode.isSparse → t.ids.length ≤ m.mode.capacity m.expertsPerRank

lemma rank_lt (t : Routes m) {id : Nat} (member : id ∈ t.ids) :
    id / m.expertsPerRank < m.tpWorld := by
  have lt := t.lt id member
  rw [Nat.div_lt_iff_lt_mul (expertsPerRank_pos lt), expertsPerRank_mul]
  exact lt

lemma Routes.OneRank.localRoutes_all (one : t.OneRank) {e : Nat} (member : e ∈ t.ids) :
    m.localRoutes (e / m.expertsPerRank) t.ids = t.ids := by
  rw [localRoutes, List.filter_eq_self]
  intro id inside
  exact (List.mem_filter.mp ((mem_localRoutes t (rank_lt t member)).mpr
    ⟨inside, one id inside e member⟩)).2

lemma Routes.OneRank.localRoutes_none (one : t.OneRank) {e r : Nat} (member : e ∈ t.ids)
    (hr : r < m.tpWorld) (ne : r ≠ e / m.expertsPerRank) : m.localRoutes r t.ids = [] := by
  rw [List.eq_nil_iff_forall_not_mem]
  intro id inside
  obtain ⟨inside, rank⟩ := (mem_localRoutes t hr).mp inside
  exact ne (rank ▸ one id inside e member)

lemma Routes.OneRank.sum_ranks {Bytes : Type} {file : Nat → Bytes} {E : Bytes → ℝ}
    {weights : Nat → ℝ} {arenas : Nat → ActiveArena Bytes} (one : t.OneRank) {e : Nat}
    (member : e ∈ t.ids) :
    ∑ r ∈ Finset.range m.tpWorld, (m.rankStep file E r (arenas r) t.ids weights).2 =
      (m.rankStep file E (e / m.expertsPerRank) (arenas (e / m.expertsPerRank)) t.ids weights).2 := by
  refine Finset.sum_eq_single_of_mem _ (Finset.mem_range.mpr (rank_lt t member)) ?_
  intro r inside ne
  exact rankStep_none (one.localRoutes_none member (Finset.mem_range.mp inside) ne)

lemma low_localRoutes (t : Routes m) {r : Nat} (hr : r < m.tpWorld) :
    ∀ id ∈ m.localRoutes r t.ids, m.expertStart r ≤ id := by
  intro id member
  obtain ⟨-, rank⟩ := (mem_localRoutes t hr).mp member
  rw [expertStart, ← rank]
  exact Nat.div_mul_le_self id _

lemma slots_lt {Bytes : Type} {load : Nat → Bytes} {arena : ActiveArena Bytes} (t : Routes m) {r : Nat}
    (hr : r < m.tpWorld) (ok : Loaded load arena) :
    ∀ s ∈ (arena.stageAll load ((m.localRoutes r t.ids).map fun id => id - m.expertStart r)).2,
      s < if arena.sparseSlots then arena.slots.capacity else m.expertsPerRank := by
  intro s member
  split_ifs with sparse
  · exact stageAll_lt ok sparse _ s member
  · rw [(stageAll_dense ok sparse _).1] at member
    obtain ⟨id, inside, rfl⟩ := List.mem_map.mp member
    obtain ⟨inside, rank⟩ := (mem_localRoutes t hr).mp inside
    have pos := expertsPerRank_pos (t.lt id inside)
    have := Nat.lt_div_mul_add pos (a := id)
    rw [rank] at this
    rw [expertStart]
    omega

lemma indices_at (ids : List Nat) {start : Nat} {slots : List Nat} {route slot : Nat}
    (here : slots[route]? = some slot) :
    storeRows (fun route => (ids[route]?).getD 0) 0 (slots.map fun slot => start + slot) route =
      start + slot := by
  have row : (slots.map fun slot => start + slot)[route]? = some (start + slot) := by simp [here]
  have stored := @storeRows_at _ (fun route => (ids[route]?).getD 0) 0 _ _ _ row
  rwa [Nat.zero_add] at stored

lemma routeValue_slot {Bytes K : Type} [Semiring K] (E : Bytes → K) (weight : K)
    (bytes : Nat → Bytes) (start : Nat) {slot nLocal : Nat} (lt : slot < nLocal) :
    routeValue E (start + slot) weight bytes start nLocal = weight * E (bytes slot) := by
  rw [routeValue, Nat.add_sub_cancel_left, if_pos ⟨Nat.le_add_right _ _, lt⟩]

lemma RoutedSum.of_oneRank (one : t.OneRank) (fits : t.Fits) : m.RoutedSum t := by
  intro Bytes file E weights arenas reached
  cases empty : t.ids with
  | nil =>
    simp [rankStep, localRoutes]
  | cons e rest =>
    have member : e ∈ t.ids := by simp [empty]
    rw [← empty, one.sum_ranks member]
    have hr := rank_lt t member
    have all := one.localRoutes_all member
    obtain ⟨ok, sparse, capacity⟩ := (reached _ hr).loaded
    have low := low_localRoutes t hr
    have inside := slots_lt t hr ok
    have staged := stageAll_exact ok (nodup_locals t hr) (by
      rw [sparse, capacity, all, List.length_map]
      exact fits)
    have count := length_stageAll (fun loc => file (m.expertStart (e / m.expertsPerRank) + loc))
      (arenas (e / m.expertsPerRank)) ((m.localRoutes (e / m.expertsPerRank) t.ids).map
        fun id => id - m.expertStart (e / m.expertsPerRank))
    rw [rankStep_some (by rw [all, empty]; simp) ok low]
    rw [all] at low inside staged count ⊢
    generalize stageAll _ _ _ = result at inside staged count ⊢
    refine Finset.sum_congr rfl fun route range => ?_
    have lt := Finset.mem_range.mp range
    -- the route's own expert is in the slot at its index
    have hs : route < result.2.length := by simpa [count] using lt
    have here := List.getElem?_eq_getElem hs
    have own := staged.get (by simpa using lt) hs
    simp only [List.get_eq_getElem, List.getElem_map] at own
    have back := low _ (List.getElem_mem lt)
    rw [indices_at _ here, routeValue_slot _ _ _ _ (inside _ (List.getElem_mem hs)), own,
      Nat.add_sub_cancel' back, List.getElem?_eq_getElem lt, Option.getD_some]

/-! ## Routes on two ranks, or more routes than slots -/

lemma routeValue_nonneg {Bytes : Type} {E : Bytes → ℝ} {weight : ℝ} (hE : ∀ b, 0 ≤ E b)
    (hw : 0 ≤ weight) (id : Nat) (bytes : Nat → Bytes) (start nLocal : Nat) :
    0 ≤ routeValue E id weight bytes start nLocal := by
  rw [routeValue]
  split_ifs
  · exact mul_nonneg hw (hE _)
  · exact le_rfl

lemma rankStep_nonneg {Bytes : Type} {file : Nat → Bytes} {E : Bytes → ℝ} {weights : Nat → ℝ}
    (hE : ∀ b, 0 ≤ E b) (hw : ∀ i, 0 ≤ weights i) (r : Nat) (arena : ActiveArena Bytes)
    (ids : List Nat) : 0 ≤ (m.rankStep file E r arena ids weights).2 := by
  by_cases none_ : m.localRoutes r ids = []
  · rw [rankStep_none none_]
  · simp only [rankStep, if_neg none_]
    exact Finset.sum_nonneg fun route _ => routeValue_nonneg hE (hw route) _ _ _ _

/-- The weights of a token whose first route alone counts. -/
noncomputable def firstOnly : Nat → ℝ := fun route => if route = 0 then 1 else 0

/-- The expert function that tells all experts from `e`, their bytes being their numbers. -/
noncomputable def otherThan (e : Nat) : Nat → ℝ := fun b => if b = e then 0 else 1

lemma firstOnly_nonneg (route : Nat) : 0 ≤ firstOnly route := by
  rw [firstOnly]
  split_ifs <;> norm_num

lemma otherThan_nonneg (e b : Nat) : 0 ≤ otherThan e b := by
  rw [otherThan]
  split_ifs <;> norm_num

lemma rankStep_first {e : Nat} {rest : List Nat} (first : t.ids = e :: rest) {r : Nat}
    (hr : r < m.tpWorld) (some_ : m.localRoutes r t.ids ≠ []) (ne : e / m.expertsPerRank ≠ r)
    {arena : ActiveArena Nat} (ok : Loaded (fun loc => id (m.expertStart r + loc)) arena) :
    1 ≤ (m.rankStep id (otherThan e) r arena t.ids firstOnly).2 := by
  have low := low_localRoutes t hr
  have inside := slots_lt t hr ok
  have held := stageAll_slots ok ((m.localRoutes r t.ids).map fun id => id - m.expertStart r)
  have count := length_stageAll (fun loc => id (m.expertStart r + loc)) arena
    ((m.localRoutes r t.ids).map fun id => id - m.expertStart r)
  rw [rankStep_some some_ ok low]
  generalize stageAll _ _ _ = result at inside held count ⊢
  have hs : 0 < result.2.length := by
    rw [count, List.length_map]
    exact List.length_pos_iff.mpr some_
  -- what is in the first slot is an expert of this rank
  obtain ⟨loc, member, bytes⟩ := held _ (List.getElem_mem hs)
  obtain ⟨own, kept, rfl⟩ := List.mem_map.mp member
  rw [id_eq, Nat.add_sub_cancel' (low own kept)] at bytes
  have other : own ≠ e := by
    rintro rfl
    exact ne ((mem_localRoutes t hr).mp kept).2
  have value : 1 = routeValue (otherThan e)
      (storeRows (fun route => (t.ids[route]?).getD 0) 0
        (result.2.map fun slot => m.expertStart r + slot) 0) (firstOnly 0) result.1.bytes
      (m.expertStart r) (if arena.sparseSlots then arena.slots.capacity else m.expertsPerRank) := by
    rw [indices_at _ (List.getElem?_eq_getElem hs),
      routeValue_slot _ _ _ _ (inside _ (List.getElem_mem hs)), bytes, otherThan, if_neg other,
      firstOnly, if_pos rfl, mul_one]
  have pos : 0 < t.ids.length := by simp [first]
  rw [value, moeSingleToken]
  exact Finset.single_le_sum (f := fun route => routeValue (otherThan e)
    (storeRows (fun route => (t.ids[route]?).getD 0) 0
      (result.2.map fun slot => m.expertStart r + slot) route) (firstOnly route) result.1.bytes
    (m.expertStart r) (if arena.sparseSlots then arena.slots.capacity else m.expertsPerRank))
    (fun route _ => routeValue_nonneg (otherThan_nonneg e) (firstOnly_nonneg route) _ _ _ _)
    (Finset.mem_range.mpr pos)

lemma RoutedSum.oneRank (sum : m.RoutedSum t) : t.OneRank := by
  cases first : t.ids with
  | nil => simp [Routes.OneRank, first]
  | cons e rest =>
    have same : ∀ a ∈ t.ids, a / m.expertsPerRank = e / m.expertsPerRank := by
      intro a member
      by_contra other
      have hr := rank_lt t member
      have some_ : m.localRoutes (a / m.expertsPerRank) t.ids ≠ [] :=
        List.ne_nil_of_mem ((mem_localRoutes t hr).mpr ⟨member, rfl⟩)
      -- only the first route counts, and its expert contributes nothing
      have total := sum Nat id (otherThan e) firstOnly
        (fun _ => ActiveArena.create m.mode m.expertsPerRank fun _ => 0)
        fun r _ => .create fun _ => 0
      have zero : ∑ route ∈ Finset.range t.ids.length,
          firstOnly route * otherThan e (id ((t.ids[route]?).getD 0)) = 0 := by
        refine Finset.sum_eq_zero fun route _ => ?_
        by_cases here : route = 0
        · simp [here, first, otherThan]
        · simp [firstOnly, here]
      rw [zero] at total
      have one := rankStep_first first hr some_ (Ne.symm other)
        (.create m.mode m.expertsPerRank fun _ => 0)
      have le := Finset.single_le_sum (f := fun r => (m.rankStep id (otherThan e) r
        (ActiveArena.create m.mode m.expertsPerRank fun _ => 0) t.ids firstOnly).2)
        (fun r _ => rankStep_nonneg (otherThan_nonneg e) firstOnly_nonneg r _ t.ids)
        (Finset.mem_range.mpr hr)
      exact absurd (one.trans (le.trans total.le)) (by norm_num)
    intro a ha b hb
    rw [same a ha, same b hb]

lemma exists_overwritten (many : ¬ t.Fits) {start : Nat} {arena : ActiveArena Nat}
    (ok : Loaded (fun loc => id (start + loc)) arena)
    (sparse : arena.sparseSlots = m.mode.isSparse)
    (capacity : arena.slots.capacity = m.mode.capacity m.expertsPerRank) :
    ∃ route, ∃ h : route < t.ids.length, ∃ slot,
      (arena.stageAll (fun loc => id (start + loc)) (t.ids.map fun id => id - start)).2[route]? =
          some slot ∧
        (arena.stageAll (fun loc => id (start + loc)) (t.ids.map fun id => id - start)).1.bytes slot ≠
          t.ids[route] := by
  rw [Routes.Fits, Classical.not_imp, Nat.not_le] at many
  have inside := stageAll_lt ok (sparse.trans many.1) (t.ids.map fun id => id - start)
  have count := length_stageAll (fun loc => id (start + loc)) arena
    (t.ids.map fun id => id - start)
  generalize stageAll _ _ _ = staged at inside count ⊢
  by_contra held
  push Not at held
  -- then different experts would be in different slots
  have bytes : staged.2.map staged.1.bytes = t.ids := by
    apply List.ext_getElem
    · rw [List.length_map, count, List.length_map]
    · intro route h lt
      rw [List.getElem_map]
      exact held route lt _ (List.getElem?_eq_getElem (by simpa using h))
  have nodup : staged.2.Nodup := List.Nodup.of_map staged.1.bytes (bytes ▸ t.nodup)
  have le := Lib.length_le_of_nodup nodup inside
  rw [count, List.length_map, capacity] at le
  omega

/-- The weights of a token of which one route alone counts. -/
noncomputable def routeOnly (route : Nat) : Nat → ℝ := fun i => if i = route then 1 else 0

/-- The expert function that tells `e` from all other experts, their bytes being their numbers. -/
noncomputable def only (e : Nat) : Nat → ℝ := fun b => if b = e then 1 else 0

lemma RoutedSum.fits (sum : m.RoutedSum t) : t.Fits := by
  by_contra many
  have one := sum.oneRank
  cases first : t.ids with
  | nil => exact many (by simp [Routes.Fits, first])
  | cons e rest =>
    have member : e ∈ t.ids := by simp [first]
    have hr := rank_lt t member
    have all := one.localRoutes_all member
    have low := low_localRoutes t hr
    have reached (r : Nat) : Reached (fun loc => id (m.expertStart r + loc)) m.mode
      m.expertsPerRank (ActiveArena.create m.mode m.expertsPerRank fun _ => 0) := .create fun _ => 0
    obtain ⟨ok, sparse, capacity⟩ := (reached (e / m.expertsPerRank)).loaded
    have inside := slots_lt t hr ok
    obtain ⟨route, lt, slot, here, lost⟩ := exists_overwritten many ok sparse capacity
    -- only that route counts, and its expert is not in its slot
    have total := sum Nat id (only t.ids[route]) (routeOnly route) _ fun r _ => reached r
    rw [one.sum_ranks member, rankStep_some (by rw [all, first]; simp) ok low, all] at total
    rw [all] at inside
    rw [moeSingleToken, Finset.sum_eq_zero, Finset.sum_eq_single_of_mem route
      (Finset.mem_range.mpr lt)] at total
    · simp [routeOnly, only, lt] at total
    · intro i _ ne
      simp [routeOnly, ne]
    · intro i _
      by_cases same : i = route
      · subst same
        rw [indices_at _ here, routeValue_slot _ _ _ _ (inside _ (List.mem_of_getElem? here)), only,
          if_neg lost, mul_zero]
      · simp [routeValue, routeOnly, same]

/-- The ranks add up to the token's routed experts iff one rank has all of them and, in a sparse
arena, a slot for each. -/
theorem routedSum_iff (m : MoeSetup) (t : Routes m) : m.RoutedSum t ↔ t.OneRank ∧ t.Fits :=
  ⟨fun sum => ⟨sum.oneRank, sum.fits⟩, fun ⟨one, fits⟩ => .of_oneRank one fits⟩

/-- Four experts on two ranks with dense arenas. -/
def twoRanks : MoeSetup where
  nRoutedExperts := 4
  tpWorld := 2
  world_pos := Nat.two_pos
  world_dvd := by decide
  mode := .dense

/-- A token routed to one expert of each rank. -/
def split : Routes twoRanks where
  ids := [0, 2]
  nodup := by decide
  lt := by decide

/-- A token routed to both ranks gets the wrong sum. -/
theorem not_routedSum_split : ¬ twoRanks.RoutedSum split := by
  intro sum
  exact absurd (sum.oneRank 0 (by decide) 2 (by decide)) (by decide)

end MoeSetup

end PocketMoE.Engine
