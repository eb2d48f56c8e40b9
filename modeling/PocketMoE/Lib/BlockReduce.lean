import Mathlib.Algebra.BigOperators.Intervals
import Mathlib.Data.List.Nodup
import Mathlib.Data.List.Range
import Mathlib.Order.Bounds.Basic
import Mathlib.Tactic.Lemma

/-!
# Reductions by a block of threads

Each thread of a block goes over the places of a row that are a block apart (`strided`) and keeps
the best it has seen (`scan`); then the block combines what its threads have in rounds, in each of which
the lower half takes in the upper half (`treeReduce`). A round reads above its stride and writes
below it, so its threads do not meet.

If the operation is a supremum of keys and the number of threads a power of two, thread 0 has in the
end the least upper bound of all that was scanned (`blockReduce_isLUB`), whatever the number of
places.
-/

namespace PocketMoE.Lib

variable {C K : Type*}

/-- The places of a thread: `for (i = tid; i < count; i += threads)`. -/
def strided (threads count i : Nat) : List Nat :=
  if i < count ∧ 0 < threads then i :: strided threads count (i + threads) else []
termination_by count - i

/-- The best of a first candidate and those of some places, in order. -/
def scan (combine : C → C → C) (init : C) (candidate : Nat → C) (places : List Nat) : C :=
  places.foldl (fun best i => combine best (candidate i)) init

/-- One round: a thread below the stride takes in what the thread a stride above has. -/
def reduceRound (combine : C → C → C) (stride : Nat) (shared : Nat → C) : Nat → C := fun tid =>
  if tid < stride then combine (shared tid) (shared (tid + stride)) else shared tid

/-- The rounds, from a first stride down: `for (; stride > 0; stride >>= 1)`. -/
def treeReduce (combine : C → C → C) (stride : Nat) (shared : Nat → C) : Nat → C :=
  if stride = 0 then shared
  else treeReduce combine (stride / 2) (reduceRound combine stride shared)
termination_by stride

/-- What thread 0 of a block has after its threads went over the places with `p`. -/
def blockReduce (combine : C → C → C) (threads count : Nat) (p : Nat → Bool) (init : C)
    (candidate : Nat → C) : C :=
  treeReduce combine (threads / 2)
    (fun tid => scan combine init candidate ((strided threads count tid).filter p)) 0

lemma mem_strided {threads count i j : Nat} (lt : i < threads) :
    j ∈ strided threads count i ↔ j < count ∧ j % threads = i := by
  have later (i : Nat) (pos : 0 < threads) :
      j ∈ strided threads count i ↔ i ≤ j ∧ j < count ∧ j % threads = i % threads := by
    induction i using strided.induct threads count with
    | case1 i inside ih =>
      rw [strided, if_pos inside, List.mem_cons, ih, Nat.add_mod_right]
      constructor
      · rintro (rfl | ⟨le, rest⟩)
        · exact ⟨Nat.le_refl j, inside.1, rfl⟩
        · exact ⟨by omega, rest⟩
      · rintro ⟨le, lt, same⟩
        -- a later place of the same thread is a whole block away
        rcases Nat.eq_or_lt_of_le le with eq | lt'
        · exact .inl eq.symm
        · refine .inr ⟨?_, lt, same⟩
          have apart := Nat.sub_mod_eq_zero_of_mod_eq same
          have := Nat.le_of_dvd (by omega) (Nat.dvd_of_mod_eq_zero apart)
          omega
    | case2 i outside =>
      have : ¬ i < count := fun inside => outside ⟨inside, pos⟩
      rw [strided, if_neg outside]
      constructor
      · exact fun member => absurd member List.not_mem_nil
      · omega
  rw [later i (Nat.zero_lt_of_lt lt), Nat.mod_eq_of_lt lt]
  constructor
  · exact fun ⟨_, rest⟩ => rest
  · rintro ⟨inside, rfl⟩
    exact ⟨Nat.mod_le j threads, inside, rfl⟩

lemma strided_ge {threads count i j : Nat} (member : j ∈ strided threads count i) : i ≤ j := by
  induction i using strided.induct threads count with
  | case1 i inside ih =>
    rw [strided, if_pos inside] at member
    rcases List.mem_cons.mp member with rfl | later
    · exact Nat.le_refl j
    · exact (Nat.le_add_right i threads).trans (ih later)
  | case2 i outside =>
    rw [strided, if_neg outside] at member
    cases member

lemma strided_nodup (threads count i : Nat) : (strided threads count i).Nodup := by
  induction i using strided.induct threads count with
  | case1 i inside ih =>
    rw [strided, if_pos inside, List.nodup_cons]
    refine ⟨fun later => ?_, ih⟩
    have := strided_ge later
    omega
  | case2 i outside =>
    rw [strided, if_neg outside]
    exact List.nodup_nil

lemma strided_perm {threads : Nat} (pos : 0 < threads) (count : Nat) :
    ((List.range threads).flatMap (strided threads count)).Perm (List.range count) := by
  rw [List.perm_ext_iff_of_nodup]
  · intro j
    rw [List.mem_flatMap, List.mem_range]
    constructor
    · rintro ⟨tid, lt, member⟩
      exact ((mem_strided (List.mem_range.mp lt)).mp member).1
    · intro inside
      have lt := Nat.mod_lt j pos
      exact ⟨j % threads, List.mem_range.mpr lt, (mem_strided lt).mpr ⟨inside, rfl⟩⟩
  · rw [List.nodup_flatMap]
    refine ⟨fun tid _ => strided_nodup threads count tid, ?_⟩
    refine List.nodup_range.imp_of_mem fun {tid tid'} here here' ne => ?_
    intro j member member'
    rw [List.mem_range] at here here'
    exact ne (((mem_strided here).mp member).2.symm.trans ((mem_strided here').mp member').2)
  · exact List.nodup_range

variable [SemilatticeSup K] {key : C → K} {combine : C → C → C}

lemma scan_isLUB (sup : ∀ a b, key (combine a b) = key a ⊔ key b) (init : C) (candidate : Nat → C)
    (places : List Nat) :
    IsLUB (insert (key init) {k | ∃ i ∈ places, key (candidate i) = k})
      (key (scan combine init candidate places)) := by
  induction places generalizing init with
  | nil => simp [scan]
  | cons i places ih =>
    have rest := ih (combine init (candidate i))
    rw [sup] at rest
    refine ⟨?_, fun bound above => ?_⟩
    · have first := rest.1 (Set.mem_insert _ _)
      rintro k (rfl | ⟨j, member, rfl⟩)
      · exact le_sup_left.trans first
      · rcases List.mem_cons.mp member with rfl | member
        · exact le_sup_right.trans first
        · exact rest.1 (.inr ⟨j, member, rfl⟩)
    · refine rest.2 ?_
      rintro k (rfl | ⟨j, member, rfl⟩)
      · exact sup_le (above (.inl rfl)) (above (.inr ⟨i, List.mem_cons_self, rfl⟩))
      · exact above (.inr ⟨j, List.mem_cons_of_mem i member, rfl⟩)

lemma treeReduce_isLUB (sup : ∀ a b, key (combine a b) = key a ⊔ key b) {p : Nat}
    {shared : Nat → C} {seen : Nat → Set K}
    (lub : ∀ tid < 2 ^ p, IsLUB (seen tid) (key (shared tid))) :
    IsLUB {k | ∃ tid < 2 ^ p, k ∈ seen tid} (key (treeReduce combine (2 ^ p / 2) shared 0)) := by
  induction p generalizing shared seen with
  | zero =>
    have only : {k | ∃ tid < 2 ^ 0, k ∈ seen tid} = seen 0 := by
      ext k
      simp
    rw [treeReduce, if_pos (by decide), only]
    exact lub 0 (Nat.two_pow_pos 0)
  | succ p ih =>
    have double : 2 ^ (p + 1) = 2 ^ p + 2 ^ p := by rw [Nat.pow_succ, Nat.mul_two]
    have half : 2 ^ (p + 1) / 2 = 2 ^ p := by rw [Nat.pow_succ, Nat.mul_div_cancel _ (by decide)]
    -- after the round a thread of the lower half has seen what two threads had
    have round (tid : Nat) (lt : tid < 2 ^ p) :
        IsLUB (seen tid ∪ seen (tid + 2 ^ p)) (key (reduceRound combine (2 ^ p) shared tid)) := by
      rw [reduceRound, if_pos lt, sup]
      exact (lub tid (by omega)).union (lub (tid + 2 ^ p) (by omega))
    have all : {k | ∃ tid < 2 ^ (p + 1), k ∈ seen tid} =
        {k | ∃ tid < 2 ^ p, k ∈ seen tid ∪ seen (tid + 2 ^ p)} := by
      ext k
      constructor
      · rintro ⟨tid, lt, member⟩
        rcases Nat.lt_or_ge tid (2 ^ p) with low | high
        · exact ⟨tid, low, .inl member⟩
        · refine ⟨tid - 2 ^ p, by omega, .inr ?_⟩
          rwa [Nat.sub_add_cancel high]
      · rintro ⟨tid, lt, member | member⟩
        · exact ⟨tid, by omega, member⟩
        · exact ⟨tid + 2 ^ p, by omega, member⟩
    rw [treeReduce, half, if_neg (Nat.two_pow_pos p).ne', all]
    exact ih round

/-- The block finds the least upper bound of its first candidate and of the places with `q`. -/
theorem blockReduce_isLUB (sup : ∀ a b, key (combine a b) = key a ⊔ key b) (p count : Nat)
    (q : Nat → Bool) (init : C) (candidate : Nat → C) :
    IsLUB (insert (key init) {k | ∃ i < count, q i ∧ key (candidate i) = k})
      (key (blockReduce combine (2 ^ p) count q init candidate)) := by
  have lub (tid : Nat) (_ : tid < 2 ^ p) :=
    scan_isLUB sup init candidate ((strided (2 ^ p) count tid).filter q)
  have all : insert (key init) {k | ∃ i < count, q i ∧ key (candidate i) = k} =
      {k | ∃ tid < 2 ^ p, k ∈ insert (key init)
        {k | ∃ i ∈ (strided (2 ^ p) count tid).filter q, key (candidate i) = k}} := by
    ext k
    constructor
    · rintro (rfl | ⟨i, inside, here, rfl⟩)
      · exact ⟨0, Nat.two_pow_pos p, .inl rfl⟩
      · have lt := Nat.mod_lt i (Nat.two_pow_pos p)
        have member := List.mem_filter.mpr ⟨(mem_strided lt).mpr ⟨inside, rfl⟩, here⟩
        exact ⟨i % 2 ^ p, lt, .inr ⟨i, member, rfl⟩⟩
    · rintro ⟨tid, lt, rfl | ⟨i, member, rfl⟩⟩
      · exact .inl rfl
      · obtain ⟨place, here⟩ := List.mem_filter.mp member
        exact .inr ⟨i, ((mem_strided lt).mp place).1, here, rfl⟩
  rw [all]
  exact treeReduce_isLUB sup lub

lemma blockReduce_eq (sup : ∀ a b, key (combine a b) = key a ⊔ key b) {p count i : Nat}
    {q : Nat → Bool} {init : C} {candidate : Nat → C} (inside : i < count) (here : q i)
    (first : key init ≤ key (candidate i))
    (best : ∀ j < count, q j → key (candidate j) ≤ key (candidate i)) :
    key (blockReduce combine (2 ^ p) count q init candidate) = key (candidate i) := by
  refine (blockReduce_isLUB sup p count q init candidate).unique (IsGreatest.isLUB ⟨?_, ?_⟩)
  · exact .inr ⟨i, inside, here, rfl⟩
  · rintro k (rfl | ⟨j, inside, here, rfl⟩)
    · exact first
    · exact best j inside here

section Warps

/-- `__shfl_down_sync` in parts of `width` lanes: a lane takes in what the one `off` further has, or
its own value at the end of its part. -/
def shflDown (combine : C → C → C) (width off : Nat) (v : Nat → C) : Nat → C := fun lane =>
  combine (v lane) (if lane % width + off < width then v (lane + off) else v lane)

/-- The rounds of a warp: `for (; off > 0; off >>= 1)`. -/
def warpDown (combine : C → C → C) (width off : Nat) (v : Nat → C) : Nat → C :=
  if off = 0 then v else warpDown combine width (off / 2) (shflDown combine width off v)
termination_by off

lemma warpDown_eq (combine : C → C → C) {width p : Nat} (fits : 2 ^ p ≤ width) {v w : Nat → C}
    (same : ∀ lane < 2 ^ p, v lane = w lane) :
    warpDown combine width (2 ^ p / 2) v 0 = treeReduce combine (2 ^ p / 2) w 0 := by
  induction p generalizing v w with
  | zero =>
    rw [warpDown, treeReduce, if_pos (by decide), if_pos (by decide)]
    exact same 0 (Nat.two_pow_pos 0)
  | succ p ih =>
    have double : 2 ^ (p + 1) = 2 ^ p + 2 ^ p := by rw [Nat.pow_succ, Nat.mul_two]
    have half : 2 ^ (p + 1) / 2 = 2 ^ p := by rw [Nat.pow_succ, Nat.mul_div_cancel _ (by decide)]
    have some : 2 ^ p ≠ 0 := (Nat.two_pow_pos p).ne'
    rw [warpDown, treeReduce, half, if_neg some, if_neg some]
    refine ih (by omega) fun lane lt => ?_
    rw [shflDown, reduceRound, if_pos lt, Nat.mod_eq_of_lt (by omega), if_pos (by omega),
      same lane (by omega), same (lane + 2 ^ p) (by omega)]

lemma warpDown_map {D : Type*} {combine : C → C → C} {combine' : D → D → D} {f : C → D}
    (hom : ∀ a b, f (combine a b) = combine' (f a) (f b)) (width off : Nat) (v : Nat → C)
    (lane : Nat) : f (warpDown combine width off v lane) =
      warpDown combine' width off (fun l => f (v l)) lane := by
  fun_induction warpDown combine width off v with
  | case1 v => rw [warpDown, if_pos rfl]
  | case2 off v some ih =>
    rw [ih, warpDown.eq_def combine' width off, if_neg some]
    refine congrArg (fun w => warpDown combine' width (off / 2) w lane) (funext fun l => ?_)
    unfold shflDown
    rw [hom, apply_ite f]

end Warps

section Sums

variable {M : Type*} [AddCommMonoid M]

lemma sum_strided {threads : Nat} (pos : 0 < threads) (count : Nat) (f : Nat → M) :
    ∑ tid ∈ Finset.range threads, ((strided threads count tid).map f).sum =
      ∑ i ∈ Finset.range count, f i := by
  have flat : (((List.range threads).flatMap (strided threads count)).map f).sum =
      ((List.range threads).map fun tid => ((strided threads count tid).map f).sum).sum := by
    rw [List.map_flatMap, List.flatMap_def, List.sum_flatten, List.map_map]
    rfl
  have places := ((strided_perm pos count).map f).sum_eq
  exact flat.symm.trans places

lemma sum_halves (p : Nat) (v : Nat → M) :
    ∑ tid ∈ Finset.range (2 ^ p), (v tid + v (tid + 2 ^ p)) =
      ∑ tid ∈ Finset.range (2 ^ (p + 1)), v tid := by
  have double : 2 ^ (p + 1) = 2 ^ p + 2 ^ p := by rw [Nat.pow_succ, Nat.mul_two]
  rw [double, Finset.sum_range_add, Finset.sum_add_distrib]
  simp only [Nat.add_comm]

lemma treeReduce_sum (p : Nat) (shared : Nat → M) :
    treeReduce (· + ·) (2 ^ p / 2) shared 0 = ∑ tid ∈ Finset.range (2 ^ p), shared tid := by
  induction p generalizing shared with
  | zero =>
    rw [treeReduce, if_pos (by decide)]
    simp
  | succ p ih =>
    have half : 2 ^ (p + 1) / 2 = 2 ^ p := by rw [Nat.pow_succ, Nat.mul_div_cancel _ (by decide)]
    rw [treeReduce, half, if_neg (Nat.two_pow_pos p).ne', ih, ← sum_halves]
    refine Finset.sum_congr rfl fun tid lt => ?_
    rw [reduceRound, if_pos (Finset.mem_range.mp lt)]

lemma warpDown_sum {width : Nat} (p : Nat) (fits : 2 ^ p ≤ width) (v : Nat → M) :
    warpDown (· + ·) width (2 ^ p / 2) v 0 = ∑ lane ∈ Finset.range (2 ^ p), v lane :=
  (warpDown_eq (· + ·) fits fun _ _ => rfl).trans (treeReduce_sum p v)

/-- `v += __shfl_xor_sync(mask, v, off)` on the lanes of a warp. -/
def shflXor (off : Nat) (v : Nat → M) : Nat → M := fun lane => v lane + v (lane ^^^ off)

/-- The rounds of a warp: `for (; off > 0; off >>= 1)`. -/
def warpSum (off : Nat) (v : Nat → M) : Nat → M :=
  if off = 0 then v else warpSum (off / 2) (shflXor off v)
termination_by off

lemma xor_two_pow {lane p : Nat} (lt : lane < 2 ^ p) : lane ^^^ 2 ^ p = lane + 2 ^ p := by
  have parts := Nat.two_pow_add_eq_or_of_lt lt 1
  rw [Nat.mul_one] at parts
  rw [Nat.add_comm, parts]
  apply Nat.eq_of_testBit_eq
  intro j
  rw [Nat.testBit_xor, Nat.testBit_or, Nat.testBit_two_pow]
  by_cases same : p = j
  · subst same
    simp [Nat.testBit_lt_two_pow lt]
  · simp [same]

lemma warpSum_eq (p : Nat) (v : Nat → M) :
    warpSum (2 ^ p / 2) v 0 = ∑ lane ∈ Finset.range (2 ^ p), v lane := by
  induction p generalizing v with
  | zero =>
    rw [warpSum, if_pos (by decide)]
    simp
  | succ p ih =>
    have half : 2 ^ (p + 1) / 2 = 2 ^ p := by rw [Nat.pow_succ, Nat.mul_div_cancel _ (by decide)]
    rw [warpSum, half, if_neg (Nat.two_pow_pos p).ne', ih, ← sum_halves]
    refine Finset.sum_congr rfl fun lane lt => ?_
    rw [shflXor, xor_two_pow (Finset.mem_range.mp lt)]

end Sums

end PocketMoE.Lib
