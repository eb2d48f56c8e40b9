import Mathlib.Algebra.BigOperators.Group.Finset.Piecewise
import Mathlib.Algebra.Order.Ring.Unbundled.Rat
import Mathlib.Data.List.GetD
import PocketMoE.Backend.Int8Kernels

/-!
# The int8 kernels and the sum over routes

Every path leaves the sum over the routes it has collected, whatever the threads do: a phase writes
each cell of its buffer once. The paths for several tokens collect all routes. Those for one token
stop at sixteen, and `topkParallel` computes no more routes than OpenMP has threads.
-/

namespace PocketMoE.Backend.Int8Kernels

open PocketMoE.Lib

section Orders

variable {m : Machine} {n phase : ℕ}

lemma Machine.order_perm (useTeam : Bool) : (m.order useTeam phase n).Perm (List.range n) := by
  refine (m.interleave_perm _ _).trans ?_
  cases useTeam with
  | true =>
    have cover := chunks_flatten m.teamThreads_pos n
    rw [List.flatMap_def] at cover
    exact List.Perm.of_eq cover
  | false => exact m.split_perm n

lemma Machine.mem_order {useTeam : Bool} {i : ℕ} : i ∈ m.order useTeam phase n ↔ i < n :=
  (m.order_perm useTeam).mem_iff.trans List.mem_range

lemma Machine.order_nodup {useTeam : Bool} : (m.order useTeam phase n).Nodup :=
  (m.order_perm useTeam).nodup_iff.mpr List.nodup_range

lemma mem_laneWork {threads routeCount dim tid lane o : ℕ} :
    (lane, o) ∈ laneWork threads routeCount dim tid ↔ tid % routeCount = lane ∧ o < dim ∧
      tid / routeCount ≤ o ∧ (o - tid / routeCount) % ((threads - 1 - lane) / routeCount + 1) = 0 := by
  simp only [laneWork, List.mem_map, List.mem_filter, List.mem_range, Prod.mk.injEq,
    decide_eq_true_eq]
  constructor
  · rintro ⟨o', ⟨inside, after, step⟩, rfl, rfl⟩
    exact ⟨rfl, inside, after, step⟩
  · rintro ⟨rfl, inside, after, step⟩
    exact ⟨o, ⟨inside, after, step⟩, rfl, rfl⟩

lemma Machine.mem_laneOrder {routeCount dim lane o : ℕ} (pos : 0 < routeCount) :
    (lane, o) ∈ m.laneOrder phase routeCount dim ↔
      lane < routeCount ∧ lane < m.threads ∧ o < dim := by
  rw [Machine.laneOrder, (m.interleave_perm _ _).mem_iff, ← List.flatMap_def, List.mem_flatMap]
  simp only [List.mem_range, mem_laneWork]
  constructor
  · rintro ⟨tid, running, rfl, inside, -, -⟩
    exact ⟨Nat.mod_lt _ pos, (Nat.mod_le _ _).trans_lt running, inside⟩
  · rintro ⟨isLane, running, inside⟩
    generalize steps : (m.threads - 1 - lane) / routeCount = lanes
    -- the thread of this lane whose first cell is the remainder
    have low : o % (lanes + 1) ≤ lanes := Nat.le_of_lt_succ (Nat.mod_lt o (Nat.succ_pos _))
    have fits : routeCount * (o % (lanes + 1)) ≤ m.threads - 1 - lane :=
      (Nat.mul_le_mul_left routeCount (low.trans_eq steps.symm)).trans (Nat.mul_div_le _ _)
    have first : (lane + routeCount * (o % (lanes + 1))) / routeCount = o % (lanes + 1) := by
      rw [Nat.add_mul_div_left _ _ pos, Nat.div_eq_of_lt isLane, Nat.zero_add]
    refine ⟨lane + routeCount * (o % (lanes + 1)), by omega, ?_, inside, ?_, ?_⟩
    · rw [Nat.add_mul_mod_self_left, Nat.mod_eq_of_lt isLane]
    · rw [first]
      exact Nat.mod_le _ _
    · rw [first]
      exact Nat.sub_mod_eq_zero_of_mod_eq (Nat.mod_mod _ _).symm

end Orders

variable {R : Type} [Field R] [LinearOrder R] {m : Machine} {call : Call} {data : Data R}

section Phases

variable {order : List ℕ} {routes : List (Route R)}

lemma row_computeHidden {xs : ℕ → Quantized R} {buffer : ℕ → R}
    (all : ∀ i, i ∈ order ↔ i < routes.length * call.interDim) {r : ℕ} (inside : r < routes.length) :
    row call.interDim (loop order (computeHidden call data xs routes) buffer) r = fun i =>
      hiddenAt call data (xs routes[r].token) (data.expert routes[r].expertId) routes[r].weight i.1 := by
  funext i
  have pos : 0 < call.interDim := Nat.zero_lt_of_lt i.isLt
  have div : (r * call.interDim + i) / call.interDim = r := by
    rw [Nat.add_comm, Nat.add_mul_div_right _ _ pos, Nat.div_eq_of_lt i.isLt, Nat.zero_add]
  have cell : r * call.interDim + i < routes.length * call.interDim :=
    calc r * call.interDim + i < r * call.interDim + call.interDim := Nat.add_lt_add_left i.isLt _
      _ = (r + 1) * call.interDim := (Nat.succ_mul ..).symm
      _ ≤ routes.length * call.interDim := Nat.mul_le_mul_right _ inside
  refine (loop_set order _ buffer _).trans ?_
  rw [if_pos ((all _).mpr cell), div, List.getD_eq_getElem _ _ inside, Nat.add_sub_cancel_left]

omit [Field R] [LinearOrder R] in
lemma loop_computeScales {hidden : ℕ → R} {buffer : ℕ → Quantized R}
    (all : ∀ i, i ∈ order ↔ i < routes.length) {r : ℕ} (inside : r < routes.length) :
    loop order (computeScales call data hidden) buffer r =
      data.quantizeRow call.interDim (row call.interDim hidden r) := by
  refine (loop_set order _ buffer r).trans ?_
  rw [if_pos ((all r).mpr inside)]

lemma quantized_eq {hiddenOrder : List ℕ} {xs : ℕ → Quantized R} {hidden : ℕ → R}
    {buffer : ℕ → Quantized R} (allHidden : ∀ i, i ∈ hiddenOrder ↔ i < routes.length * call.interDim)
    (all : ∀ i, i ∈ order ↔ i < routes.length) {r : ℕ} (inside : r < routes.length) :
    loop order (computeScales call data (loop hiddenOrder (computeHidden call data xs routes)
      hidden)) buffer r = data.quantizeRow call.interDim fun i =>
        hiddenAt call data (xs routes[r].token) (data.expert routes[r].expertId)
          routes[r].weight i := by
  rw [loop_computeScales all inside, row_computeHidden allHidden inside]

end Phases

/-- The output of a collected route. -/
def contribution (call : Call) (data : Data R) (x : Quantized R) (route : Route R) (o : ℕ) : R :=
  outputAt call (data.quantizeRow call.interDim fun i =>
    hiddenAt call data x (data.expert route.expertId) route.weight i) (data.expert route.expertId) o

lemma sum_zipIdx {α M : Type} [AddCommMonoid M] {l : List α} {f : α × ℕ → M} {g : α → M}
    (each : ∀ r (h : r < l.length), f (l[r], r) = g l[r]) :
    (l.zipIdx.map f).sum = (l.map g).sum := by
  congr 1
  refine List.ext_getElem (by simp) fun r h h' => ?_
  have inside : r < l.length := by simpa using h'
  simp only [List.getElem_map, List.getElem_zipIdx, Nat.zero_add]
  exact each r inside

omit [Field R] [LinearOrder R] in
lemma collect_eq (t room : ℕ) (ks : List ℕ) : collect call data t room ks =
    ((ks.filter fun k => call.accepts (call.expertIds t k)).take room).map
      (routeAt call data t) := by
  induction ks generalizing room with
  | nil => cases room <;> rfl
  | cons k ks ih =>
    cases room with
    | zero => rfl
    | succ room =>
      rw [collect, List.filter_cons]
      by_cases accepted : call.accepts (call.expertIds t k)
      · rw [if_pos accepted, if_pos accepted, List.take_succ_cons, List.map_cons, ih]
      · rw [if_neg accepted, if_neg accepted, ih]

lemma rowSum_eq (t o : ℕ) :
    rowSum call data t o = ((call.slots t).map fun k => routeOutput call data t k o).sum := by
  have filtered : ∀ ks : List ℕ, ((ks.filter fun k => call.accepts (call.expertIds t k)).map
      fun k => routeOutput call data t k o).sum = (ks.map fun k =>
        if call.accepts (call.expertIds t k) then routeOutput call data t k o else 0).sum := by
    intro ks
    induction ks with
    | nil => rfl
    | cons k ks ih =>
      rw [List.filter_cons]
      by_cases accepted : call.accepts (call.expertIds t k)
      · rw [if_pos accepted, List.map_cons, List.sum_cons, ih, List.map_cons, List.sum_cons,
          if_pos accepted]
      · rw [if_neg accepted, ih, List.map_cons, List.sum_cons, if_neg accepted, zero_add]
  rw [Call.slots, filtered, rowSum]
  rfl

/-- The sum over the first slots of the only token. -/
def firstSlots (call : Call) (data : Data R) (count o : ℕ) : R :=
  (((call.slots 0).take count).map fun k => routeOutput call data 0 k o).sum

section OneToken

omit [Field R] [LinearOrder R] in
lemma collect_first : collect call data 0 16 (List.range call.topk) =
    ((call.slots 0).take 16).map (routeAt call data 0) :=
  collect_eq 0 16 _

lemma sum_collected (count o : ℕ) : ((((call.slots 0).take count).map (routeAt call data 0)).map
    fun route => contribution call data (quantizeInput call data 0) route o).sum =
      firstSlots call data count o := by
  rw [List.map_map]
  rfl

lemma firstSlots_of_isEmpty (empty : (collect call data 0 16 (List.range call.topk)).isEmpty)
    (count o : ℕ) : firstSlots call data count o = 0 := by
  rw [List.isEmpty_iff, collect_first, List.map_eq_nil_iff, List.take_eq_nil_iff] at empty
  rw [firstSlots, empty.resolve_left (by decide), List.take_nil, List.map_nil, List.sum_nil]

omit [LinearOrder R] in
lemma loop_add {order : List ℕ} (nodup : order.Nodup) (term : ℕ → R) (output : ℕ → R) {o : ℕ}
    (member : o ∈ order) :
    loop order (fun o output => Function.update output o (output o + term o)) output o =
      output o + term o :=
  loop_part (fun output : ℕ → R => output o) (fun v => v + term o)
    (fun o output => Function.update output o (output o + term o))
    (fun _ => Function.update_self ..)
    (fun _ _ ne _ => Function.update_of_ne (Ne.symm ne) ..) nodup member output

theorem singleTokenAccumulateRoutes_eq (scratch : Scratch R) (useTeam : Bool) (output : ℕ → R)
    {o : ℕ} (inside : o < call.hiddenDim) :
    singleTokenAccumulateRoutes m call data scratch useTeam output o =
      output o + firstSlots call data 16 o := by
  rw [singleTokenAccumulateRoutes]
  dsimp only
  split
  · rename_i empty
    rw [firstSlots_of_isEmpty empty, add_zero]
  · rw [loop_add Machine.order_nodup _ output (Machine.mem_order.mpr inside), loop_sum, zero_add]
    congr 1
    rw [sum_zipIdx (g := fun route =>
      contribution call data (quantizeInput call data 0) route o) fun r h => ?_, collect_first,
      sum_collected]
    dsimp only
    rw [quantized_eq (fun _ => Machine.mem_order) (fun _ => Machine.mem_order) h]
    rfl

omit [LinearOrder R] in
lemma reduce_eq {useTeam : Bool} {phase count : ℕ} {partials : ℕ → R} {o : ℕ}
    (inside : o < call.hiddenDim) :
    loop (m.order useTeam phase call.hiddenDim) (fun o output =>
      Function.update output o (loop (List.range count) (fun r acc =>
        acc + partials (r * call.hiddenDim + o)) 0)) (fun _ => 0) o =
      ((List.range count).map fun r => partials (r * call.hiddenDim + o)).sum := by
  rw [loop_set, if_pos (Machine.mem_order.mpr inside), loop_sum, zero_add]

lemma sum_range_getElem {α M : Type} [AddCommMonoid M] {l : List α} {f : ℕ → M} {g : α → M}
    (each : ∀ r (h : r < l.length), f r = g l[r]) :
    ((List.range l.length).map f).sum = (l.map g).sum := by
  congr 1
  refine List.ext_getElem (by simp) fun r h h' => ?_
  have inside : r < l.length := by simpa using h'
  simp only [List.getElem_map, List.getElem_range]
  exact each r inside

theorem singleTokenTopkPersistent_eq {o : ℕ} (inside : o < call.hiddenDim) :
    singleTokenTopkPersistent m call data o = firstSlots call data 16 o := by
  rw [singleTokenTopkPersistent]
  dsimp only
  split
  · rename_i empty
    exact (firstSlots_of_isEmpty empty ..).symm
  · rw [reduce_eq inside, sum_range_getElem (g := fun route =>
      contribution call data (quantizeInput call data 0) route o) fun r h => ?_, collect_first,
      sum_collected]
    have pos : 0 < call.hiddenDim := Nat.zero_lt_of_lt inside
    have div : (r * call.hiddenDim + o) / call.hiddenDim = r := by
      rw [Nat.add_comm, Nat.add_mul_div_right _ _ pos, Nat.div_eq_of_lt inside, Nat.zero_add]
    have cell := calc r * call.hiddenDim + o < r * call.hiddenDim + call.hiddenDim :=
          Nat.add_lt_add_left inside _
      _ = (r + 1) * call.hiddenDim := (Nat.succ_mul ..).symm
      _ ≤ _ * call.hiddenDim := Nat.mul_le_mul_right _ h
    refine (loop_set _ _ _ _).trans ?_
    rw [if_pos (Machine.mem_order.mpr cell), div, Nat.add_sub_cancel_left,
      quantized_eq (fun _ => Machine.mem_order) (fun _ => Machine.mem_order) h,
      List.getD_eq_getElem _ _ h]
    rfl

omit [LinearOrder R] in
lemma loop_lanes {phase routeCount dim lane o : ℕ} (pos : 0 < routeCount) (f : ℕ × ℕ → R)
    (isLane : lane < routeCount) (inside : o < dim) :
    loop (m.laneOrder phase routeCount dim) (fun work (buffer : ℕ → R) =>
      Function.update buffer (work.1 * dim + work.2) (f work)) (fun _ => 0) (lane * dim + o) =
      if lane < m.threads then f (lane, o) else 0 := by
  have apart : ∀ work ∈ m.laneOrder phase routeCount dim,
      work.1 * dim + work.2 = lane * dim + o → work = (lane, o) := by
    rintro ⟨lane', o'⟩ member eq
    have inside' := ((Machine.mem_laneOrder pos).mp member).2.2
    have cells := congrArg (· % dim) eq
    simp only [Nat.mul_add_mod_self_right, Nat.mod_eq_of_lt inside,
      Nat.mod_eq_of_lt inside'] at cells
    subst cells
    obtain rfl := Nat.eq_of_mul_eq_mul_right (Nat.zero_lt_of_lt inside) (Nat.add_right_cancel eq)
    rfl
  by_cases running : lane < m.threads
  · rw [if_pos running]
    exact loop_store (i := (lane, o)) (fun work => work.1 * dim + work.2) f apart
      ((Machine.mem_laneOrder pos).mpr ⟨isLane, running, inside⟩) _
  · rw [if_neg running]
    refine loop_store_other (fun work : ℕ × ℕ => work.1 * dim + work.2) f (fun work member eq => ?_) _
    obtain rfl := apart work member eq
    exact running ((Machine.mem_laneOrder pos).mp member).2.1

lemma sum_range_take {α M : Type} [AddCommMonoid M] {l : List α} {f : ℕ → M} {g : α → M} {c : ℕ}
    (each : ∀ r (h : r < l.length), f r = if r < c then g l[r] else 0) :
    ((List.range l.length).map f).sum = ((l.take c).map g).sum := by
  induction l generalizing f c with
  | nil => simp
  | cons x l ih =>
    have later := fun r (h : r < l.length) => each (r + 1) (Nat.succ_lt_succ h)
    rw [List.length_cons, List.range_succ_eq_map, List.map_cons, List.sum_cons, List.map_map]
    cases c with
    | zero =>
      have none : ((List.range l.length).map (f ∘ Nat.succ)).sum = ((l.take 0).map g).sum :=
        ih fun r h => later r h
      rw [none, each 0 (Nat.succ_pos _)]
      simp
    | succ c =>
      have rest : ((List.range l.length).map (f ∘ Nat.succ)).sum = ((l.take c).map g).sum := by
        refine ih fun r h => (later r h).trans ?_
        simp
      rw [rest, each 0 (Nat.succ_pos _), if_pos (Nat.succ_pos c), List.take_succ_cons,
        List.map_cons, List.sum_cons]
      rfl

theorem singleTokenTopkParallel_eq {o : ℕ} (inside : o < call.hiddenDim) :
    singleTokenTopkParallel m call data o = firstSlots call data (min m.threads 16) o := by
  rw [singleTokenTopkParallel]
  dsimp only
  split
  · rename_i empty
    exact (firstSlots_of_isEmpty empty ..).symm
  · rename_i some_routes
    have pos : 0 < (collect call data 0 16 (List.range call.topk)).length :=
      List.length_pos_of_ne_nil (by simpa using some_routes)
    rw [reduce_eq inside, sum_range_take (c := m.threads) (g := fun route =>
      contribution call data (quantizeInput call data 0) route o) fun r h => ?_, collect_first,
      ← List.map_take, List.take_take, sum_collected]
    rw [loop_lanes pos _ h inside]
    by_cases running : r < m.threads
    · rw [if_pos running, if_pos running]
      dsimp only
      rw [loop_computeScales (fun _ => List.mem_range) h, List.getD_eq_getElem _ _ h]
      have hidden : row call.interDim (loop (m.laneOrder 0
          (collect call data 0 16 (List.range call.topk)).length call.interDim)
          (fun work (hidden : ℕ → R) =>
            let route := (collect call data 0 16 (List.range call.topk)).getD work.1 default
            Function.update hidden (work.1 * call.interDim + work.2)
              (hiddenAt call data (quantizeInput call data 0) (data.expert route.expertId)
                route.weight work.2)) fun _ => 0) r = fun i =>
          hiddenAt call data (quantizeInput call data 0)
            (data.expert (collect call data 0 16 (List.range call.topk))[r].expertId)
            (collect call data 0 16 (List.range call.topk))[r].weight i.1 := by
        funext i
        refine (loop_lanes pos _ h i.isLt).trans ?_
        rw [if_pos running, List.getD_eq_getElem _ _ h]
      rw [hidden]
      rfl
    · rw [if_neg running, if_neg running]

end OneToken

section Batches

omit [Field R] [LinearOrder R] in
lemma inputs_eq {order : List ℕ} (nodup : order.Nodup) {p : ℕ → Bool} {t : ℕ}
    (member : t ∈ order) (wanted : p t) {buffer : ℕ → Quantized R} :
    loop order (fun t xs => if p t then Function.update xs t (quantizeInput call data t) else xs)
      buffer t = quantizeInput call data t := by
  refine loop_part (fun xs : ℕ → Quantized R => xs t) (fun _ => quantizeInput call data t) _
    (fun xs => ?_) (fun i _ ne xs => ?_) nodup member buffer
  · rw [if_pos wanted]
    exact Function.update_self ..
  · split
    · exact Function.update_of_ne (Ne.symm ne) ..
    · rfl

lemma sum_token {t o : ℕ} (inside : t < call.tokens) :
    ((((List.range call.tokens).flatMap fun t => (call.slots t).map (routeAt call data t)).map
      fun route => if route.token = t then
        contribution call data (quantizeInput call data route.token) route o else 0).sum) =
      rowSum call data t o := by
  rw [sum_flatMap, rowSum_eq]
  refine Eq.trans ?_ (sum_range_pick inside fun t =>
    ((call.slots t).map fun k => routeOutput call data t k o).sum)
  congr 1
  refine List.map_congr_left fun t' _ => ?_
  rw [List.map_map]
  by_cases here : t' = t
  · subst here
    rw [if_pos rfl]
    congr 1
    exact List.map_congr_left fun k _ => if_pos rfl
  · rw [if_neg here]
    have none : (fun route : Route R => if route.token = t then contribution call data
        (quantizeInput call data route.token) route o else 0) ∘ routeAt call data t' =
          fun _ => 0 := funext fun k => if_neg here
    rw [none, List.map_const', List.sum_replicate, nsmul_zero]

theorem decodeAccumulateRoutes_eq (output : ℕ × ℕ → R) {t o : ℕ} (isToken : t < call.tokens)
    (inside : o < call.hiddenDim) :
    decodeAccumulateRoutes m call data output (t, o) = output (t, o) + rowSum call data t o := by
  rw [decodeAccumulateRoutes, ← sum_token isToken]
  generalize all : (List.range call.tokens).flatMap
    (fun t => (call.slots t).map (routeAt call data t)) = routes
  have tokens : ∀ route ∈ routes, route.token < call.tokens := by
    intro route member
    rw [← all] at member
    obtain ⟨t', isToken', member⟩ := List.mem_flatMap.mp member
    obtain ⟨k, -, rfl⟩ := List.mem_map.mp member
    exact List.mem_range.mp isToken'
  dsimp only
  split
  · rename_i empty
    rw [List.isEmpty_iff.mp empty, List.map_nil, List.sum_nil, add_zero]
  · refine (loop_columns Machine.order_nodup routes.zipIdx (fun x => x.1.token)
      (fun o x => outputAt call _ (data.expert x.1.expertId) o) output
      (Machine.mem_order.mpr inside)).trans ?_
    rw [sum_zipIdx (g := fun route => if route.token = t then
      contribution call data (quantizeInput call data route.token) route o else 0) fun r h => ?_]
    dsimp only
    rw [quantized_eq (fun _ => Machine.mem_order) (fun _ => Machine.mem_order) h,
      inputs_eq Machine.order_nodup (Machine.mem_order.mpr (tokens _ (List.getElem_mem h)))
        (List.any_eq_true.mpr ⟨routes[r], List.getElem_mem h, by simp⟩)]
    rfl

omit [LinearOrder R] in
lemma row_group {order : List ℕ} (all : ∀ i, i ∈ order ↔ i < call.interDim) (nodup : order.Nodup)
    (routes : List (Route R)) (value : Route R → ℕ → R) {r : ℕ} (h : r < routes.length) :
    row call.interDim (loop order (fun o hidden =>
      byFours (fun route hidden => Function.update hidden (route.2 * call.interDim + o)
        (value route.1 o)) routes.zipIdx hidden) fun _ => 0) r = fun i => value routes[r] i.1 := by
  funext i
  have pos : 0 < call.interDim := Nat.zero_lt_of_lt i.isLt
  refine loop_part (fun hidden : ℕ → R => hidden (r * call.interDim + i))
    (fun _ => value routes[r] i) _ (fun hidden => ?_) (fun o member ne hidden => ?_) nodup
    ((all i).mpr i.isLt) _
  · rw [byFours_eq]
    have apart : ∀ x ∈ routes.zipIdx, x.2 * call.interDim + i = r * call.interDim + i →
        x = (routes[r], r) := by
      rintro ⟨route, r'⟩ member eq
      obtain rfl : r' = r := Nat.eq_of_mul_eq_mul_right pos (Nat.add_right_cancel eq)
      obtain ⟨-, inside, same⟩ := List.mem_zipIdx member
      exact Prod.ext same rfl
    have listed : (routes[r], r) ∈ routes.zipIdx :=
      List.mem_zipIdx_iff_getElem?.mpr (List.getElem?_eq_getElem h)
    exact loop_store (i := (routes[r], r)) (fun x => x.2 * call.interDim + i)
      (fun x => value x.1 i) apart listed hidden
  · rw [byFours_eq]
    refine loop_store_other (fun x : Route R × ℕ => x.2 * call.interDim + o) _
      (fun x _ eq => ne ?_) hidden
    have cells := congrArg (· % call.interDim) eq
    simpa only [Nat.mul_add_mod_self_right, Nat.mod_eq_of_lt i.isLt,
      Nat.mod_eq_of_lt ((all o).mp member)] using cells

lemma expertAccumulateGroup_eq {phase : ℕ} {xs : ℕ → Quantized R} {routes : List (Route R)}
    {expert : Expert R} {output : ℕ × ℕ → R} {t o : ℕ} (inside : o < call.hiddenDim) :
    expertAccumulateGroup m phase call data xs routes expert output (t, o) = output (t, o) +
      (routes.map fun route => if route.token = t then
        outputAt call (data.quantizeRow call.interDim fun i =>
          hiddenAt call data (xs route.token) expert route.weight i) expert o else 0).sum := by
  rw [expertAccumulateGroup]
  simp only [byFours_eq _ routes.zipIdx (_ : ℕ × ℕ → R)]
  refine (loop_columns Machine.order_nodup routes.zipIdx (fun x => x.1.token)
    (fun o x => outputAt call _ expert o) output (Machine.mem_order.mpr inside)).trans ?_
  rw [sum_zipIdx (g := fun route => if route.token = t then
    outputAt call (data.quantizeRow call.interDim fun i =>
      hiddenAt call data (xs route.token) expert route.weight i) expert o else 0) fun r h => ?_]
  rw [loop_computeScales (fun _ => List.mem_range) h, row_group (fun _ => Machine.mem_order)
    Machine.order_nodup routes (fun route o => hiddenAt call data (xs route.token) expert
      route.weight o) h]

omit [Field R] [LinearOrder R] in
lemma groupKey_eq {route : Route R} {e : ℕ} (key : groupKey call route = some e) :
    route.expertId = call.expertsStartIdx + e ∧ call.isLocal route.expertId := by
  rw [groupKey] at key
  split at key
  · rename_i isLocal
    have bounds := isLocal
    simp only [Call.isLocal, Bool.and_eq_true, decide_eq_true_eq] at bounds
    have place := Option.some_inj.mp key
    exact ⟨by omega, isLocal⟩
  · cases key

omit [Field R] [LinearOrder R] in
lemma groupKey_local {route : Route R} :
    (∃ e < (call.expertsEndIdx - call.expertsStartIdx).toNat, groupKey call route = some e) ↔
      call.isLocal route.expertId := by
  constructor
  · rintro ⟨e, -, key⟩
    exact (groupKey_eq key).2
  · intro isLocal
    have bounds := isLocal
    simp only [Call.isLocal, Bool.and_eq_true, decide_eq_true_eq] at bounds
    exact ⟨_, by omega, if_pos isLocal⟩

theorem groupedForward_eq (output : ℕ × ℕ → R) {t o : ℕ} (isToken : t < call.tokens)
    (inside : o < call.hiddenDim) :
    groupedForward m call data output (t, o) = output (t, o) + rowSum call data t o := by
  rw [groupedForward]
  dsimp only
  generalize inputs : loop (m.order false 0 call.tokens) (fun t xs =>
    Function.update xs t (quantizeInput call data t)) (fun _ => (fun _ => 0, 0)) = xs
  have input : xs t = quantizeInput call data t := by
    rw [← inputs, loop_set, if_pos (Machine.mem_order.mpr isToken)]
  -- what the route adds to the row of the token
  let term (route : Route R) : R := if call.hasWeights route.expertId ∧ route.token = t then
    contribution call data (quantizeInput call data t) route o else 0
  refine (loop_part_sum (fun output : ℕ × ℕ → R => output (t, o)) (fun e =>
    ((bucket (groupKey call) e ((List.range call.tokens).flatMap fun t =>
      (List.range call.topk).map (routeAt call data t))).map term).sum) _
    (fun e _ output => ?_) output).trans ?_
  · rw [group_eq]
    have own : ∀ route ∈ bucket (groupKey call) e ((List.range call.tokens).flatMap fun t =>
        (List.range call.topk).map (routeAt call data t)),
        route.expertId = call.expertsStartIdx + e := by
      intro route member
      exact (groupKey_eq (by simpa using (List.mem_filter.mp member).2)).1
    generalize bucket (groupKey call) e ((List.range call.tokens).flatMap fun t =>
      (List.range call.topk).map (routeAt call data t)) = routes at own ⊢
    split
    · rename_i empty
      rw [List.isEmpty_iff.mp empty, List.map_nil, List.sum_nil, add_zero]
    · split
      · rename_i missing
        have none : ∀ route ∈ routes, term route = 0 := by
          intro route member
          have away : ¬ call.hasWeights route.expertId := by
            rw [own route member]
            simpa using missing
          exact if_neg fun both => away both.1
        rw [List.map_congr_left none, List.map_const', List.sum_replicate, nsmul_zero, add_zero]
      · rename_i there
        rw [expertAccumulateGroup_eq inside]
        congr 2
        refine List.map_congr_left fun route member => ?_
        have loaded : call.hasWeights route.expertId := by
          rw [own route member]
          simpa using there
        by_cases here : route.token = t
        · rw [if_pos here, here, input, ← own route member]
          exact (if_pos ⟨loaded, here⟩).symm
        · rw [if_neg here]
          exact (if_neg fun both => here both.2).symm
  · congr 1
    rw [sum_buckets, sum_flatMap]
    refine Eq.trans ?_ (sum_range_pick isToken fun t => rowSum call data t o)
    congr 1
    refine List.map_congr_left fun t' _ => ?_
    rw [List.map_map]
    by_cases here : t' = t
    · subst here
      rw [if_pos rfl]
      change ∑ k ∈ Finset.range call.topk, _ = _
      rw [rowSum]
      refine Finset.sum_congr rfl fun k _ => ?_
      simp only [Function.comp_apply, groupKey_local, term, Call.accepts, Bool.and_eq_true]
      by_cases isLocal : call.isLocal (routeAt call data t' k).expertId
      · rw [if_pos isLocal]
        by_cases loaded : call.hasWeights (routeAt call data t' k).expertId
        · rw [if_pos ⟨loaded, rfl⟩]
          exact (if_pos ⟨isLocal, loaded⟩).symm
        · rw [if_neg fun both => loaded both.1]
          exact (if_neg fun both => loaded both.2).symm
      · rw [if_neg isLocal]
        exact (if_neg fun both => isLocal both.1).symm
    · rw [if_neg here]
      have none : ∀ k ∈ List.range call.topk, ((fun route => if ∃ e <
          (call.expertsEndIdx - call.expertsStartIdx).toNat, groupKey call route = some e
          then term route else 0) ∘ routeAt call data t') k = 0 := by
        intro k _
        have away : term (routeAt call data t' k) = 0 := if_neg fun both => here both.2
        simp only [Function.comp_apply, away, ite_self]
      rw [List.map_congr_left none, List.map_const', List.sum_replicate, nsmul_zero]

end Batches

section Agreement

variable (m call) in
/-- Every kernel leaves the sum over all accepted routes: the batched entry for each token, the
variants for a call of one token. -/
def Agrees (R : Type) [Field R] [LinearOrder R] : Prop :=
  ∀ data : Data R, (∀ t < call.tokens, ∀ o < call.hiddenDim,
      routedForward m call data t o = rowSum call data t o) ∧
    (call.tokens = 1 → ∀ v, ∀ o < call.hiddenDim,
      oneTokenForward m call data v o = rowSum call data 0 o)

/-- The number of routes a variant has room for. -/
def Variant.room (m : Machine) : Variant → ℕ
  | .topkParallel => min m.threads 16
  | _ => 16

lemma oneTokenForward_eq (v : Variant) {o : ℕ} (inside : o < call.hiddenDim) :
    oneTokenForward m call data v o = firstSlots call data (v.room m) o := by
  cases v with
  | topkParallel => exact singleTokenTopkParallel_eq inside
  | topkPersistent => exact singleTokenTopkPersistent_eq inside
  | persistent => exact (singleTokenAccumulateRoutes_eq _ _ _ inside).trans (zero_add _)
  | preallocPersistent => exact (singleTokenAccumulateRoutes_eq _ _ _ inside).trans (zero_add _)

lemma routedForward_one (one : call.tokens = 1) (t : ℕ) {o : ℕ} (inside : o < call.hiddenDim) :
    routedForward m call data t o = firstSlots call data 16 o := by
  rw [routedForward, if_pos one, singleTokenAccumulateRoutes_eq _ _ _ inside, zero_add]

lemma routedForward_many (more : call.tokens ≠ 1) {t o : ℕ} (isToken : t < call.tokens)
    (inside : o < call.hiddenDim) : routedForward m call data t o = rowSum call data t o := by
  rw [routedForward, if_neg more]
  split
  · exact (decodeAccumulateRoutes_eq _ isToken inside).trans (zero_add _)
  · exact (groupedForward_eq _ isToken inside).trans (zero_add _)

lemma firstSlots_all {count : ℕ} (room : (call.slots 0).length ≤ count) (o : ℕ) :
    firstSlots call data count o = rowSum call data 0 o := by
  rw [firstSlots, List.take_of_length_le room, rowSum_eq]

lemma routeOutput_of_interDim (none : call.interDim = 0) (t k o : ℕ) :
    routeOutput call data t k o = 0 := by
  simp [routeOutput, outputAt, dot, none]

lemma firstSlots_of_interDim (none : call.interDim = 0) (count o : ℕ) :
    firstSlots call data count o = rowSum call data 0 o := by
  have zero : ∀ ks : List ℕ, (ks.map fun k => routeOutput call data 0 k o).sum = 0 := by
    intro ks
    simp [routeOutput_of_interDim none]
  rw [firstSlots, rowSum_eq, zero, zero]

/-- Data for which a route adds its weight, which is one in a single slot. -/
def picking (R : Type) [Field R] (slot : ℕ) : Data R where
  input _ _ := 1
  weights _ k := if k = slot then 1 else 0
  expert _ := ⟨fun _ _ => 1, fun _ _ => 1, fun _ _ => 1, fun _ => 1, fun _ => 1, fun _ => 1⟩
  quantizeRow n row := (fun i => if i = 0 then 1 else 0, if h : 0 < n then row ⟨0, h⟩ else 0)
  silu _ := 1
  swigluLimit := 0
  scratch := zeroed

lemma routeOutput_picking {slot : ℕ} (wide : 0 < call.hiddenDim) (deep : 0 < call.interDim)
    (k o : ℕ) : routeOutput call (picking R slot) 0 k o = if k = slot then 1 else 0 := by
  have one : ∀ n, 0 < n → dot n (fun i => if i = 0 then 1 else 0) (fun _ => 1) = 1 := by
    intro n pos
    simp [dot, pos]
  simp [routeOutput, outputAt, hiddenAt, quantizeInput, picking, one, wide, deep]

variable (R call) in
lemma not_agrees {count : ℕ} (wide : 0 < call.hiddenDim) (deep : 0 < call.interDim)
    (beyond : count < (call.slots 0).length) :
    ∃ data : Data R, firstSlots call data count 0 ≠ rowSum call data 0 0 := by
  have nodup : (call.slots 0).Nodup := List.nodup_range.filter _
  refine ⟨picking R (call.slots 0)[count], ?_⟩
  have unit : ∀ ks : List ℕ, ks.Nodup → ((ks.map fun k => routeOutput call
      (picking R (call.slots 0)[count]) 0 k 0).sum = if (call.slots 0)[count] ∈ ks then 1 else 0) := by
    intro ks nodup
    induction ks with
    | nil => simp
    | cons k ks ih =>
      obtain ⟨fresh, nodup⟩ := List.nodup_cons.mp nodup
      rw [List.map_cons, List.sum_cons, ih nodup, routeOutput_picking wide deep]
      by_cases here : k = (call.slots 0)[count]
      · rw [if_pos here, if_neg (here ▸ fresh), add_zero, if_pos (by simp [here])]
      · rw [if_neg here, zero_add]
        simp [Ne.symm here]
  have late : (call.slots 0)[count] ∉ (call.slots 0).take count := by
    intro member
    obtain ⟨i, h, eq⟩ := List.mem_take_iff_getElem.mp member
    have same := (nodup.getElem_inj_iff).mp eq
    omega
  rw [firstSlots, rowSum_eq, unit _ (nodup.sublist (List.take_sublist ..)), unit _ nodup,
    if_neg late, if_pos (List.getElem_mem beyond)]
  exact zero_ne_one

/-- The kernels agree exactly if a call of one token has no more accepted routes than the route
array has room and OpenMP has threads. -/
theorem kernels_agree_iff : Agrees m call R ↔ (call.tokens = 1 →
    call.hiddenDim = 0 ∨ call.interDim = 0 ∨
      (call.slots 0).length ≤ 16 ∧ (call.slots 0).length ≤ m.threads) := by
  constructor
  · intro agrees one
    by_contra large
    push Not at large
    obtain ⟨wide, deep, many⟩ := large
    have beyond : Variant.topkParallel.room m < (call.slots 0).length := by
      rcases Nat.lt_or_ge 16 (call.slots 0).length with beyond | fits
      · exact (Nat.min_le_right ..).trans_lt beyond
      · exact (Nat.min_le_left ..).trans_lt (many fits)
    obtain ⟨data, differs⟩ := not_agrees R call (Nat.pos_of_ne_zero wide)
      (Nat.pos_of_ne_zero deep) beyond
    have row := (agrees data).2 one .topkParallel 0 (Nat.pos_of_ne_zero wide)
    rw [oneTokenForward_eq _ (Nat.pos_of_ne_zero wide)] at row
    exact differs row
  · intro fits data
    have variants : call.tokens = 1 → ∀ v : Variant, ∀ o < call.hiddenDim,
        firstSlots call data (v.room m) o = rowSum call data 0 o := by
      intro one v o inside
      rcases fits one with none | none | ⟨rooms, running⟩
      · omega
      · exact firstSlots_of_interDim none ..
      · refine firstSlots_all ?_ o
        cases v with
        | topkParallel => exact le_min running rooms
        | _ => exact rooms
    refine ⟨fun t isToken o inside => ?_, fun one v o inside => ?_⟩
    · by_cases one : call.tokens = 1
      · obtain rfl : t = 0 := by omega
        rw [routedForward_one one _ inside]
        exact variants one .persistent o inside
      · exact routedForward_many one isToken inside
    · rw [oneTokenForward_eq v inside]
      exact variants one v o inside

/-- One OpenMP thread. -/
def serial : Machine where
  threads := 1
  threads_pos := Nat.one_pos
  teamThreads := 1
  teamThreads_pos := Nat.one_pos
  split n := [List.range n]
  split_perm n := by simp
  interleave _ work := work.flatten
  interleave_perm _ _ := List.Perm.refl _

/-- A token with two routes to local experts that have their weights. -/
def twoRoutes : Call where
  tokens := 1
  hiddenDim := 1
  topk := 2
  interDim := 1
  expertIds _ k := k
  expertsStartIdx := 0
  expertsEndIdx := 2
  w1Ptrs _ := true
  w2Ptrs _ := true
  w3Ptrs _ := true
  s1Ptrs _ := true
  s2Ptrs _ := true
  s3Ptrs _ := true

/-- With one thread the lanes of the second route are nobody's. -/
theorem lane_dropped : ¬ Agrees serial twoRoutes ℚ := by
  intro agrees
  have beyond : Variant.topkParallel.room serial < (twoRoutes.slots 0).length := by decide
  obtain ⟨data, differs⟩ := not_agrees ℚ twoRoutes (by decide) (by decide) beyond
  have row := (agrees data).2 rfl .topkParallel 0 (by decide)
  rw [oneTokenForward_eq _ (by decide)] at row
  exact differs row

end Agreement

end PocketMoE.Backend.Int8Kernels
