import Mathlib.Analysis.SpecialFunctions.Exp
import PocketMoE.Lib.Numerals
import PocketMoE.Runtime.Incremental

/-!
# Replaying a position after a rejected draft

Speculative decoding feeds a draft token at a position and, when the draft is rejected, feeds the
accepted token at the same position again (`generate`, reject branch). `Replayable` says that the
second feed leaves the compressor as if the draft had never been fed.

Within a group this holds, since a feed only overwrites its own slot. At the end of a group of an
overlapping compressor it does not: the draft's feed has already handed the group over, and the
second feed pools the group twice instead of the one before it (`replayable_iff`).
-/

namespace PocketMoE.Runtime
open PocketMoE.Tensor PocketMoE.Softmax

variable {X K : Type} [Field K]

namespace Compressor

/-- Feeding a rejected draft at position `p` and then the accepted token there leaves the buffers
that feeding only the accepted token leaves. -/
def Replayable (c : Compressor X K) (p : Nat) : Prop :=
  ∀ (s : State c) (draft accepted : X),
    ((c.forward s [draft] p).bind fun fed => c.forward fed.1 [accepted] p).map (·.1) =
      (c.forward s [accepted] p).map (·.1)

variable {c : Compressor X K}

lemma prefill_replay (s : State c) (draft accepted : X) :
    (c.prefill (c.prefill s [draft]).1 [accepted]).1 = (c.prefill s [accepted]).1 := by
  have one (s : State c) (x : X) := prefill_eq s (fun _ => x) 1
  simp only [List.range_one, List.map_cons, List.map_nil] at one
  have short : ¬ (c.overlap ∧ c.compressRatio ≤ 1) := by
    rintro ⟨ov, le⟩
    rw [ov] at le
    omega
  simp only [one, seeded, handed, if_neg short]
  rw [storeRows_again _ _ (by simp), storeRows_again _ _ (by simp), storeRows_again _ _ (by simp)]

lemma step_replay_open (s : State c) (draft accepted : X) {p : Nat}
    (opn : (p + 1) % c.compressRatio ≠ 0) :
    (c.step (c.step s draft p).1 accepted p).1 = (c.step s accepted p).1 := by
  simp [step, if_neg opn]

lemma step_replay_plain (s : State c) (draft accepted : X) {p : Nat} (plain : ¬ c.overlap) :
    (c.step (c.step s draft p).1 accepted p).1 = (c.step s accepted p).1 := by
  by_cases full : (p + 1) % c.compressRatio = 0
  · simp [step, if_pos full, if_neg plain]
  · exact step_replay_open s draft accepted full

lemma Replayable.of_safe {p : Nat} (safe : ¬ (c.overlap ∧ (p + 1) % c.compressRatio = 0)) :
    c.Replayable p := by
  intro s draft accepted
  rcases Nat.eq_zero_or_pos p with rfl | pos
  · simp [forward, prefill_replay]
  · have same : (c.step (c.step s draft p).1 accepted p).1 = (c.step s accepted p).1 := by
      by_cases ov : c.overlap
      · exact step_replay_open s draft accepted fun full => safe ⟨ov, full⟩
      · exact step_replay_plain s draft accepted ov
    simp [forward, if_neg (Nat.pos_iff_ne_zero.mp pos), same]

/-- An overlapping compressor of one feature whose pooling is a plain mean: the token is its own key
and all scores are equal. -/
noncomputable def mean : Compressor ℝ ℝ where
  compressRatio := 4
  ratio_pos := Compressor.ratio_four_pos
  headDim := 1
  ape := fun _ _ => 0
  wkv := fun x _ => x
  wgate := fun _ _ => 0
  expo := Real.exp
  finish := fun _ cell => cell

/-- A running window of zero keys with equal scores. -/
noncomputable def blank : State mean where
  kvState := fun _ _ => 0
  scoreState := fun _ _ => ((0 : ℝ) : WithBot ℝ)
  kvCache := fun _ _ => 0

/-- The only feature of a cell. -/
def feature : Fin mean.headDim := ⟨0, Nat.one_pos⟩

@[simp] lemma mean_compressRatio : mean.compressRatio = 4 := rfl

@[simp] lemma mean_handover {α : Type} (state : Nat → Nat → α) :
    (if mean.overlap then mean.shift state else state) = mean.shift state := if_pos rfl

@[simp] lemma mean_offset : mean.offset = 4 := rfl

@[simp] lemma mean_wkv (x : ℝ) : mean.wkv x = fun _ => x := rfl

@[simp] lemma mean_finish (start : Nat) (cell : Fin mean.headDim → ℝ) :
    mean.finish start cell = cell := rfl

lemma mean_pool (kv : Nat → Nat → ℝ) :
    mean.pool (mean.stateWindow kv) (mean.stateWindow blank.scoreState) feature =
      (kv 0 0 + kv 1 0 + kv 2 0 + kv 3 0 + kv 4 1 + kv 5 1 + kv 6 1 + kv 7 1) / 8 := by
  have equal := softmaxSum_replicate Real.exp ((mean.stateWindow kv).map (· feature)) 0 (by simp)
  have values : (mean.stateWindow kv).map (· feature) =
      [kv 0 0, kv 1 0, kv 2 0, kv 3 0, kv 4 1, kv 5 1, kv 6 1, kv 7 1] := rfl
  have scores : (mean.stateWindow blank.scoreState).map (· feature) =
      List.replicate 8 ((0 : ℝ) : WithBot ℝ) := rfl
  rw [values] at equal
  simp only [pool, values, scores]
  refine equal.trans ?_
  simp [add_assoc]

@[simp] lemma mean_score (i : Nat) (x : ℝ) (slot : Nat) :
    Function.update blank.scoreState i (mean.scoreRow slot x) = blank.scoreState := by
  have row : mean.scoreRow slot x = blank.scoreState i := by
    funext j
    simp [scoreRow, mean, blank]
  rw [row, Function.update_eq_self]

@[simp] lemma mean_shift : mean.shift blank.scoreState = blank.scoreState := by
  funext i
  simp only [shift, blank, ite_self]

/-- Feeding a draft of one at the end of a group leaves it in the window of the zero token that
replaces it; without the draft the window is zero. -/
lemma mean_not_replayable {p : Nat} (full : (p + 1) % 4 = 0) : ¬ mean.Replayable p := by
  intro replay
  have slot : p % 4 = 3 := by omega
  have pos : p ≠ 0 := by omega
  have same := replay blank 1 0
  simp only [forward, if_neg pos, Option.bind_some, Option.map_some, Option.some.injEq] at same
  have cell := congrArg (fun s : State mean => s.kvCache (p / 4) feature) same
  simp only [step, mean_compressRatio, full, if_true, slot, mean_offset, mean_handover, mean_wkv,
    mean_finish, mean_score, mean_shift, ite_self, Function.update_self, mean_pool] at cell
  simp [shift, blank] at cell

/-- A position can be fed again after a rejected draft, by every compressor of the given ratio, iff
it does not end a group of overlapping windows. -/
theorem replayable_iff {ratio p : Nat} (hr : 0 < ratio) :
    (∀ (X : Type) (c : Compressor X ℝ), c.compressRatio = ratio → c.expo = Real.exp →
      c.Replayable p) ↔ ¬ (ratio = 4 ∧ (p + 1) % ratio = 0) := by
  constructor
  · rintro replay ⟨rfl, full⟩
    exact mean_not_replayable full (replay ℝ mean rfl rfl)
  · rintro safe X c rfl -
    exact .of_safe safe

/-- The second position of a group of overlapping windows. -/
theorem replayable_iff_inside :
    (∀ (X : Type) (c : Compressor X ℝ), c.compressRatio = 4 → c.expo = Real.exp →
      c.Replayable 5) ↔ ¬ (4 = 4 ∧ (5 + 1) % 4 = 0) :=
  replayable_iff (by decide)

/-- A rejected draft at the fourth position of a request stays in the compressed cell. -/
theorem mean_not_replayable_three : ¬ mean.Replayable 3 :=
  mean_not_replayable (by decide)

end Compressor

end PocketMoE.Runtime
