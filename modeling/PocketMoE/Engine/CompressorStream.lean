import PocketMoE.Engine.Layer
import PocketMoE.Runtime.Incremental

/-!
# The compressor kernels follow the Python compressor

`device` is a Python compressor as the C++ engines load it: the same projections and bias, with
overlapping windows when these have `2 * head_dim` columns, and what the engine does with a pooled
row.

The kernels write, pool and shift the state that `Compressor.step` writes, pools and shifts, with two
differences. The shift clears the second half of the state (`Cleared`), where Python keeps the rows
of the group that is complete. Python takes position 0 as a prefill; with ratio 1 that completes a
group and leaves no row (`Unsaved`). The pooling reads neither.

`Agrees` says this of one buffer, `Matches` of the state. A state that misses the rows of earlier
positions agrees from some slot `lo` on, and a shift brings the rows behind it to the front
(`Agrees.step_full`): two groups later it agrees everywhere.
-/

namespace PocketMoE.Runtime.Compressor
open PocketMoE.Engine PocketMoE.Softmax PocketMoE.Tensor

variable {X K α : Type}

/-- The compressor as the engines load it. -/
def device (c : Compressor X K) (finish : Nat → (Fin c.headDim → K) → Row K) :
    DeviceCompressor X K where
  overlap := decide c.overlap
  headDim := c.headDim
  wkv := c.wkv
  wgate := c.wgate
  ape := c.ape
  finish := fun position row => finish position fun j => row j

variable (c : Compressor X K)

/-- The number of state rows. -/
def slots : Nat := c.offset + c.compressRatio

/-- A slot of the second half that the group of position `n` has not written. -/
def Cleared (n i : Nat) : Prop :=
  c.overlap ∧ c.compressRatio + n % c.compressRatio ≤ i

/-- The row of position 0 is not in Python's state. -/
def Unsaved (n : Nat) : Prop := c.compressRatio = 1 ∧ n = 1

/-- A device buffer holds what Python's does after `n` positions, in the slots from `lo` on. -/
structure Agrees (value : α) (lo n : Nat) (device state : Nat → Nat → α) : Prop where
  cleared : ∀ i, i < c.slots → c.Cleared n i → device i = fun _ => value
  same : ∀ i, i < c.slots → lo ≤ i → ¬ c.Cleared n i → ¬ c.Unsaved n → device i = state i

/-- A device state holds what Python's does after `n` positions, in the slots from `lo` on. -/
structure Matches [Zero K] (lo n : Nat) (s : State c) (dev : CompressorState K) : Prop where
  kv : c.Agrees 0 lo n dev.kv s.kvState
  score : c.Agrees ⊥ lo n dev.score s.scoreState

/-- The pooled value of a group. -/
def pooled [Field K] (tok : Nat → X) (g : Nat) : Fin c.headDim → K :=
  c.pool (c.window 0 (c.kvRow tok) g) (c.window ⊥ (c.scoreAt tok) g)

/-- After `n` positions a device compressor is where Python's is: it has the state, and in the cells
that it stores the groups are pooled to the same values. -/
structure Streams [Field K] (finish : Nat → (Fin c.headDim → K) → Row K) (tok : Nat → X) (n : Nat)
    (s : State c) (dev : CompressorState K) (cells : Nat → Row K) (stored : Nat → Prop) : Prop where
  state : c.Matches 0 n s dev
  cells : ∀ g, g < n / c.compressRatio → stored g →
    cells g = finish (g * c.compressRatio) (c.pooled tok g)

/-- `compressor_shift_overlap_state_kernel` on one buffer. -/
def shiftCleared (value : α) (state : Nat → Nat → α) : Nat → Nat → α := fun t =>
  if t < c.compressRatio then state (c.compressRatio + t)
  else if t < c.compressRatio * 2 then fun _ => value
  else state t

variable {c}

/-! ## One buffer -/

variable {value : α} {device state : Nat → Nat → α} {lo lo' n : Nat}

lemma slots_overlap (ov : c.overlap) : c.slots = c.compressRatio * 2 := by
  rw [slots, offset, if_pos ov, Nat.mul_two]

lemma offset_overlap (ov : c.overlap) : c.offset = c.compressRatio := if_pos ov

lemma slot_lt (n : Nat) : c.offset + n % c.compressRatio < c.slots :=
  Nat.add_lt_add_left (Nat.mod_lt n c.ratio_pos) _

lemma succ_mod_of_open (opn : (n + 1) % c.compressRatio ≠ 0) :
    (n + 1) % c.compressRatio = n % c.compressRatio + 1 := by
  have here := Nat.div_add_mod' n c.compressRatio
  have next := Nat.div_add_mod' (n + 1) c.compressRatio
  rw [succ_div_of_open opn] at next
  omega

lemma mod_of_full (full : (n + 1) % c.compressRatio = 0) :
    n % c.compressRatio + 1 = c.compressRatio := by
  have here := Nat.div_add_mod' n c.compressRatio
  have last := full_iff full
  rw [Nat.add_mul] at last
  omega

lemma Agrees.start (same : ∀ i, i < c.slots → lo ≤ i → state i = fun _ => value) :
    c.Agrees value lo n (fun _ _ => value) state :=
  ⟨fun _ _ _ => rfl, fun i lt le _ _ => (same i lt le).symm⟩

lemma Agrees.mono (agr : c.Agrees value lo n device state) (le : lo ≤ lo') :
    c.Agrees value lo' n device state :=
  ⟨agr.cleared, fun i lt after => agr.same i lt (le.trans after)⟩

lemma Agrees.step_open (agr : c.Agrees value lo n device state)
    (opn : (n + 1) % c.compressRatio ≠ 0) (r : Nat → α) :
    c.Agrees value lo (n + 1)
      (Function.update device (c.offset + n % c.compressRatio) r)
      (Function.update state (c.offset + n % c.compressRatio) r) := by
  have next := succ_mod_of_open opn
  constructor
  · intro i lt cleared
    obtain ⟨ov, ge⟩ := cleared
    rw [next] at ge
    rw [Function.update_of_ne (by rw [offset_overlap ov]; omega)]
    exact agr.cleared i lt ⟨ov, by omega⟩
  · intro i lt le kept _
    by_cases here : i = c.offset + n % c.compressRatio
    · rw [here, Function.update_self, Function.update_self]
    · rw [Function.update_of_ne here, Function.update_of_ne here]
      refine agr.same i lt le (fun cleared => kept ⟨cleared.1, ?_⟩) fun unsaved => ?_
      · obtain ⟨ov, ge⟩ := cleared
        rw [offset_overlap ov] at here
        rw [next]
        omega
      · obtain ⟨one, _⟩ := unsaved
        rw [one, Nat.mod_one] at opn
        exact opn rfl

lemma Agrees.complete (agr : c.Agrees value lo n device state)
    (full : (n + 1) % c.compressRatio = 0) (r : Nat → α) {i : Nat} (lt : i < c.slots) (le : lo ≤ i) :
    Function.update device (c.offset + n % c.compressRatio) r i =
      Function.update state (c.offset + n % c.compressRatio) r i := by
  have last := mod_of_full full
  by_cases here : i = c.offset + n % c.compressRatio
  · rw [here, Function.update_self, Function.update_self]
  · rw [Function.update_of_ne here, Function.update_of_ne here]
    refine agr.same i lt le (fun cleared => here ?_) fun unsaved => here ?_
    · obtain ⟨ov, ge⟩ := cleared
      rw [slots_overlap ov] at lt
      rw [offset_overlap ov]
      omega
    · obtain ⟨one, _⟩ := unsaved
      have flat : ¬ c.overlap := by
        intro ov
        rw [overlap, one] at ov
        exact absurd ov (by decide)
      rw [slots, offset, if_neg flat] at lt
      rw [offset, if_neg flat]
      omega

lemma Agrees.step_full (agr : c.Agrees value lo n device state)
    (full : (n + 1) % c.compressRatio = 0) (r : Nat → α) (reach : lo ≤ lo' + c.offset) :
    c.Agrees value lo' (n + 1)
      (if c.overlap then
        c.shiftCleared value (Function.update device (c.offset + n % c.compressRatio) r)
        else Function.update device (c.offset + n % c.compressRatio) r)
      (if c.overlap then c.shift (Function.update state (c.offset + n % c.compressRatio) r)
        else Function.update state (c.offset + n % c.compressRatio) r) := by
  by_cases ov : c.overlap
  · rw [if_pos ov, if_pos ov]
    have off := offset_overlap ov
    have size := slots_overlap ov
    constructor
    · intro i lt cleared
      have ge := cleared.2
      rw [full] at ge
      rw [shiftCleared, if_neg (by omega), if_pos (by omega)]
    · intro i lt le kept _
      have front : i < c.compressRatio := by
        by_contra behind
        exact kept ⟨ov, by rw [full]; omega⟩
      rw [shiftCleared, if_pos front, shift, if_pos front]
      exact agr.complete full r (by omega) (by omega)
  · rw [if_neg ov, if_neg ov]
    have off : c.offset = 0 := if_neg ov
    exact ⟨fun _ _ cleared => absurd cleared.1 ov,
      fun i lt le _ _ => agr.complete full r lt (by omega)⟩

lemma seeded_one (more : c.compressRatio ≠ 1) (row state : Nat → Nat → α) :
    c.seeded row state 1 = Function.update state (c.offset + 0 % c.compressRatio) (row 0) := by
  have pos := c.ratio_pos
  have small : 1 % c.compressRatio = 1 := Nat.mod_eq_of_lt (by omega)
  have first : 1 / c.compressRatio = 0 := Nat.div_eq_of_lt (by omega)
  have short : ¬ (c.overlap ∧ c.compressRatio ≤ 1) := by omega
  have slot : c.offset + 0 % c.compressRatio = c.offset := by rw [Nat.zero_mod, Nat.add_zero]
  funext i
  rw [seeded, handed, if_neg short, small, first, storeRows_range, slot]
  by_cases here : i = c.offset
  · rw [here, Function.update_self, if_pos (by omega), Nat.zero_mul, Nat.zero_add, Nat.sub_self]
  · rw [Function.update_of_ne here, if_neg (by omega)]

/-! ## The pooling -/

lemma stateWindow_congr (same : ∀ i, i < c.slots → device i = state i) :
    c.stateWindow device = c.stateWindow state := by
  rw [slots] at same
  by_cases ov : c.overlap
  · rw [offset_overlap ov] at same
    simp only [stateWindow, if_pos ov]
    congr 1
    · apply List.map_congr_left
      intro i member
      have := List.mem_range.mp member
      rw [same i (by omega)]
    · apply List.map_congr_left
      intro i member
      have := List.mem_range.mp member
      rw [same _ (by omega)]
  · rw [offset, if_neg ov] at same
    simp only [stateWindow, if_neg ov]
    apply List.map_congr_left
    intro i member
    have := List.mem_range.mp member
    rw [same i (by omega)]

lemma stateWindow_columns (finish : Nat → (Fin c.headDim → K) → Row K) (state : Nat → Nat → α)
    (j : Fin c.headDim) :
    ((List.range (if (c.device finish).overlap then c.compressRatio * 2 else c.compressRatio)).map
      fun t => state t
        (if (c.device finish).overlap && decide (c.compressRatio ≤ t) then
          (c.device finish).headDim + j else j)) = (c.stateWindow state).map (· j) := by
  by_cases ov : c.overlap
  · have isOver : (c.device finish).overlap = true := decide_eq_true ov
    simp only [isOver, if_true, Bool.true_and, decide_eq_true_eq, stateWindow, if_pos ov,
      List.map_append, List.map_map]
    rw [Nat.mul_two, List.range_add, List.map_append, List.map_map]
    congr 1
    · apply List.map_congr_left
      intro t member
      rw [if_neg (Nat.not_le.mpr (List.mem_range.mp member))]
      rfl
    · apply List.map_congr_left
      intro t _
      simp only [Function.comp_apply]
      rw [if_pos (Nat.le_add_right _ _)]
      rfl
  · have flat : (c.device finish).overlap = false := decide_eq_false ov
    simp only [flat, Bool.false_and, Bool.false_eq_true, if_false, stateWindow, if_neg ov,
      List.map_map]
    rfl

variable [Field K] {finish : Nat → (Fin c.headDim → K) → Row K} {dev : CompressorState K}

lemma device_pool (kv : Nat → Nat → K) (score : Nat → Nat → WithBot K) (j : Fin c.headDim) :
    (c.device finish).pool c.compressRatio c.expo ⟨kv, score⟩ j =
      c.pool (c.stateWindow kv) (c.stateWindow score) j := by
  simp only [DeviceCompressor.pool, pool]
  rw [stateWindow_columns finish kv j, stateWindow_columns finish score j]

/-! ## The state -/

variable {s : State c}

lemma device_updateState (x : X) (n : Nat) :
    (c.device finish).updateState c.compressRatio dev x n =
      ⟨Function.update dev.kv (c.offset + n % c.compressRatio) (c.wkv x),
        Function.update dev.score (c.offset + n % c.compressRatio)
          (c.scoreRow (n % c.compressRatio) x)⟩ := by
  have slot : (c.device finish).writeSlot c.compressRatio n = c.offset + n % c.compressRatio := by
    by_cases ov : c.overlap
    · have isOver : (c.device finish).overlap = true := decide_eq_true ov
      rw [DeviceCompressor.writeSlot, if_pos isOver, offset_overlap ov]
    · have flat : ¬ (c.device finish).overlap = true := by simpa [device] using ov
      rw [DeviceCompressor.writeSlot, if_neg flat, offset, if_neg ov, Nat.zero_add]
  rw [DeviceCompressor.updateState, slot]
  rfl

lemma Matches.reset (kv : ∀ i, i < c.slots → lo ≤ i → s.kvState i = fun _ => 0)
    (score : ∀ i, i < c.slots → lo ≤ i → s.scoreState i = fun _ => ⊥) :
    c.Matches lo n s CompressorState.reset :=
  ⟨.start kv, .start score⟩

lemma Matches.feed_open (same : c.Matches lo n s dev) (opn : (n + 1) % c.compressRatio ≠ 0) (x : X) :
    c.Matches lo (n + 1) (c.step s x n).1
      ((c.device finish).feed c.compressRatio c.expo dev x n).1 := by
  simp only [DeviceCompressor.feed, step, if_neg opn, device_updateState]
  exact ⟨same.kv.step_open opn _, same.score.step_open opn _⟩

lemma Matches.feed_full (same : c.Matches lo n s dev) (full : (n + 1) % c.compressRatio = 0)
    (reach : lo ≤ lo' + c.offset) (x : X) :
    c.Matches lo' (n + 1) (c.step s x n).1
      ((c.device finish).feed c.compressRatio c.expo dev x n).1 := by
  have kv := same.kv.step_full full (c.wkv x) reach
  have score := same.score.step_full full (c.scoreRow (n % c.compressRatio) x) reach
  simp only [DeviceCompressor.feed, step, if_pos full, device_updateState]
  by_cases ov : c.overlap
  · have isOver : (c.device finish).overlap = true := decide_eq_true ov
    rw [if_pos ov, if_pos ov] at kv score
    simp only [if_pos isOver, if_pos ov]
    exact ⟨kv, score⟩
  · have flat : ¬ (c.device finish).overlap = true := by simpa [device] using ov
    rw [if_neg ov, if_neg ov] at kv score
    simp only [if_neg flat, if_neg ov]
    exact ⟨kv, score⟩

/-! ## The one-token path -/

variable {kvCache : Nat → Fin c.headDim → K} {tok : Nat → X}

lemma prefill_one (more : c.compressRatio ≠ 1) (s : State c) (x : X) :
    (c.prefill s [x]).1 = (c.step s x 0).1 := by
  have pos := c.ratio_pos
  have opn : ¬ (0 + 1) % c.compressRatio = 0 := by
    rw [Nat.zero_add, Nat.mod_eq_of_lt (by omega)]
    decide
  have run := prefill_eq s (fun _ => x) 1
  rw [seeded_one more, seeded_one more, Nat.div_eq_of_lt (by omega)] at run
  refine run.trans ?_
  simp only [step, if_neg opn, List.range_zero, List.map_nil]
  rw [State.mk.injEq]
  refine ⟨rfl, ?_, rfl⟩
  rw [scoreAt, Nat.zero_mod]

lemma Matches.next (same : c.Matches lo n (c.oneToken kvCache tok n) dev)
    (reach : lo ≤ lo' ∨ (n + 1) % c.compressRatio = 0 ∧ lo ≤ lo' + c.offset) :
    c.Matches lo' (n + 1) (c.oneToken kvCache tok (n + 1))
      ((c.device finish).feed c.compressRatio c.expo dev (tok n) n).1 := by
  have stepped : c.Matches lo' (n + 1) (c.step (c.oneToken kvCache tok n) (tok n) n).1
      ((c.device finish).feed c.compressRatio c.expo dev (tok n) n).1 := by
    by_cases full : (n + 1) % c.compressRatio = 0
    · exact same.feed_full full (by omega) (tok n)
    · have le : lo ≤ lo' := reach.resolve_right fun h => full h.1
      have later : c.Matches lo' n (c.oneToken kvCache tok n) dev :=
        ⟨same.kv.mono le, same.score.mono le⟩
      exact later.feed_open full (tok n)
  rcases Nat.eq_zero_or_pos n with rfl | pos
  · by_cases one : c.compressRatio = 1
    · have flat : ¬ c.overlap := by
        intro ov
        rw [overlap, one] at ov
        exact absurd ov (by decide)
      exact ⟨⟨fun _ _ cleared => absurd cleared.1 flat,
          fun _ _ _ _ saved => absurd ⟨one, rfl⟩ saved⟩,
        ⟨fun _ _ cleared => absurd cleared.1 flat,
          fun _ _ _ _ saved => absurd ⟨one, rfl⟩ saved⟩⟩
    · rw [oneToken, if_pos rfl, prefill_one one]
      exact stepped
  · rw [oneToken_succ pos]
    exact stepped

lemma Matches.feed_cell (same : c.Matches 0 n (c.oneToken kvCache tok n) dev) :
    ((c.device finish).feed c.compressRatio c.expo dev (tok n) n).2 =
      if (n + 1) % c.compressRatio = 0 then
        some (finish (n / c.compressRatio * c.compressRatio) (c.pooled tok (n / c.compressRatio)))
      else none := by
  by_cases full : (n + 1) % c.compressRatio = 0
  · have start : n + 1 - c.compressRatio = n / c.compressRatio * c.compressRatio := by
      rw [full_iff full, Nat.add_mul, Nat.one_mul, Nat.add_sub_cancel]
    have tracks := c.oneToken_follows kvCache tok n
    have kv : c.stateWindow (Function.update dev.kv (c.offset + n % c.compressRatio)
        (c.wkv (tok n))) = c.window 0 (c.kvRow tok) (n / c.compressRatio) :=
      (stateWindow_congr fun i lt => same.kv.complete full _ lt (Nat.zero_le i)).trans
        (tracks.kv.stateWindow_eq full)
    have score : c.stateWindow (Function.update dev.score (c.offset + n % c.compressRatio)
        (c.scoreRow (n % c.compressRatio) (tok n))) =
        c.window ⊥ (c.scoreAt tok) (n / c.compressRatio) :=
      (stateWindow_congr fun i lt => same.score.complete full _ lt (Nat.zero_le i)).trans
        (tracks.score.stateWindow_eq full)
    have alike : (fun j : Fin c.headDim => (c.device finish).pool c.compressRatio c.expo
        ((c.device finish).updateState c.compressRatio dev (tok n) n) j) =
        c.pooled tok (n / c.compressRatio) := by
      funext j
      rw [device_updateState, device_pool, kv, score]
      rfl
    simp only [DeviceCompressor.feed, if_pos full, start]
    exact congrArg (fun cell => some (finish (n / c.compressRatio * c.compressRatio) cell)) alike
  · simp only [DeviceCompressor.feed, if_neg full]

lemma Streams.next {cells cells' : Nat → Row K} {stored : Nat → Prop}
    (same : c.Streams finish tok n (c.oneToken kvCache tok n) dev cells stored)
    (kept : ∀ g, stored g → ((n + 1) % c.compressRatio = 0 → g ≠ n / c.compressRatio) →
      cells' g = cells g)
    (new : ∀ row, ((c.device finish).feed c.compressRatio c.expo dev (tok n) n).2 = some row →
      stored (n / c.compressRatio) → cells' (n / c.compressRatio) = row) :
    c.Streams finish tok (n + 1) (c.oneToken kvCache tok (n + 1))
      ((c.device finish).feed c.compressRatio c.expo dev (tok n) n).1 cells' stored := by
  refine ⟨same.state.next (.inl le_rfl), fun g lt held => ?_⟩
  by_cases full : (n + 1) % c.compressRatio = 0
  · rw [succ_div_of_full full] at lt
    rcases Nat.lt_succ_iff_lt_or_eq.mp lt with older | rfl
    · rw [kept g held fun _ => older.ne]
      exact same.cells g older held
    · refine new _ ?_ held
      rw [same.state.feed_cell, if_pos full]
  · rw [succ_div_of_open full] at lt
    rw [kept g held fun h => absurd h full]
    exact same.cells g lt held

end PocketMoE.Runtime.Compressor
