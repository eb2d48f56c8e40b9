import PocketMoE.Runtime.Compressor
import Mathlib.Data.List.GetD
import Mathlib.Algebra.Order.Group.Nat

/-!
# Incremental compression equals batch compression

The tokens of a request are a function `tok` from positions. `window` is what a group's pooling
should see, and `Tracks` what a state should hold after `n` positions: the rows of the current group
and, for overlapping windows, those of the group before. `Follows` puts both state buffers and the
compressed cells together.

`prefill_follows` establishes it from a fresh state and `step_follows` preserves it over one token;
`calls_follows` is the run. Since `Follows` determines every compressed cell of the request, how the
tokens were split over calls does not matter (`incremental_eq_batch`). `oneToken` is the run in which
every token is a call of its own.
-/

namespace PocketMoE.Runtime
open PocketMoE.Tensor PocketMoE.Ring PocketMoE.Softmax

variable {X K α : Type}

namespace Compressor

variable (c : Compressor X K)

/-! ## What should be held -/

/-- The rows that the pooling of group `g` should see. -/
def window (value : α) (row : Nat → Nat → α) (g : Nat) : List (Fin c.headDim → α) :=
  let ratio := c.compressRatio
  if c.overlap then
    ((List.range ratio).map fun i =>
      if g = 0 then fun _ => value else c.overlapHalf (row ((g - 1) * ratio + i))) ++
      (List.range ratio).map fun i => c.currentHalf (row (g * ratio + i))
  else
    (List.range ratio).map fun i => c.overlapHalf (row (g * ratio + i))

/-- What a state buffer holds after `n` positions. -/
structure Tracks (value : α) (row : Nat → Nat → α) (state : Nat → Nat → α) (n : Nat) : Prop where
  current : Ring.Holds c.compressRatio row (fun i => state (c.offset + i))
    (n / c.compressRatio * c.compressRatio) n
  previous : c.overlap → ∀ i, i < c.compressRatio → state i =
    if n < c.compressRatio then fun _ => value
    else row ((n / c.compressRatio - 1) * c.compressRatio + i)

/-- The `kv` row of a position. -/
def kvRow (tok : Nat → X) (p : Nat) : Nat → K := c.wkv (tok p)

/-- The score row of a position. -/
def scoreAt [Add K] (tok : Nat → X) (p : Nat) : Nat → WithBot K :=
  c.scoreRow (p % c.compressRatio) (tok p)

/-- The compressed cell of group `g`. -/
def cell [Field K] (tok : Nat → X) (g : Nat) : Fin c.headDim → K :=
  c.finish (g * c.compressRatio)
    (c.pool (c.window 0 (c.kvRow tok) g) (c.window ⊥ (c.scoreAt tok) g))

/-- The buffers after `n` positions, over cells that held `kvCache` before. -/
structure Follows [Field K] (tok : Nat → X) (kvCache : Nat → Fin c.headDim → K) (s : State c)
    (n : Nat) : Prop where
  kv : c.Tracks 0 (c.kvRow tok) s.kvState n
  score : c.Tracks ⊥ (c.scoreAt tok) s.scoreState n
  cells : ∀ g, s.kvCache g = if g < n / c.compressRatio then c.cell tok g else kvCache g

variable {c}

/-! ## Groups -/

lemma succ_div_of_open {n : Nat} (opn : (n + 1) % c.compressRatio ≠ 0) :
    (n + 1) / c.compressRatio = n / c.compressRatio := by
  rw [Nat.succ_div, if_neg (fun dvd => opn (Nat.mod_eq_zero_of_dvd dvd)), Nat.add_zero]

lemma succ_div_of_full {n : Nat} (full : (n + 1) % c.compressRatio = 0) :
    (n + 1) / c.compressRatio = n / c.compressRatio + 1 := by
  rw [Nat.succ_div, if_pos (Nat.dvd_of_mod_eq_zero full)]

lemma full_iff {n : Nat} (full : (n + 1) % c.compressRatio = 0) :
    n + 1 = (n / c.compressRatio + 1) * c.compressRatio := by
  rw [← succ_div_of_full full, Nat.div_mul_cancel (Nat.dvd_of_mod_eq_zero full)]

@[simp] lemma mul_add_mod_ratio {g i : Nat} (lt : i < c.compressRatio) :
    (g * c.compressRatio + i) % c.compressRatio = i := by
  rw [Nat.mul_add_mod_self_right, Nat.mod_eq_of_lt lt]

/-! ## A state buffer over a step -/

variable {value : α} {row : Nat → Nat → α} {state : Nat → Nat → α} {n : Nat}

lemma update_previous {slot i : Nat} {r : Nat → α} (ov : c.overlap) (lt : i < c.compressRatio) :
    Function.update state (c.offset + slot) r i = state i := by
  have : i ≠ c.offset + slot := by
    rw [offset, if_pos ov]
    omega
  rw [Function.update_of_ne this]

lemma Tracks.write (tr : c.Tracks value row state n) :
    Ring.Holds c.compressRatio row
      (fun i => Function.update state (c.offset + n % c.compressRatio) (row n) (c.offset + i))
      (n / c.compressRatio * c.compressRatio) (n + 1) := by
  have next := tr.current.write
  have e : (fun i => Function.update state (c.offset + n % c.compressRatio) (row n) (c.offset + i)) =
      Function.update (fun i => state (c.offset + i)) (n % c.compressRatio) (row n) := by
    funext i
    simp [Function.update_apply]
  rwa [e]

lemma Tracks.full_rows (tr : c.Tracks value row state n) (full : (n + 1) % c.compressRatio = 0)
    {i : Nat} (lt : i < c.compressRatio) :
    Function.update state (c.offset + n % c.compressRatio) (row n) (c.offset + i) =
      row (n / c.compressRatio * c.compressRatio + i) := by
  have last := full_iff full
  rw [Nat.add_mul, Nat.one_mul] at last
  have := tr.write (n / c.compressRatio * c.compressRatio + i) (by omega) (by omega) (by omega)
  rwa [mul_add_mod_ratio lt] at this

lemma Tracks.stateWindow_eq (tr : c.Tracks value row state n)
    (full : (n + 1) % c.compressRatio = 0) :
    c.stateWindow (Function.update state (c.offset + n % c.compressRatio) (row n)) =
      c.window value row (n / c.compressRatio) := by
  by_cases ov : c.overlap
  · have off : c.offset = c.compressRatio := if_pos ov
    simp only [stateWindow, window, if_pos ov]
    congr 1
    · apply List.map_congr_left
      intro i member
      have lt := List.mem_range.mp member
      rw [update_previous ov lt, tr.previous ov i lt]
      by_cases first : n < c.compressRatio
      · rw [if_pos first, if_pos (Nat.div_eq_of_lt first)]
        rfl
      · have := Nat.div_pos (Nat.not_lt.mp first) c.ratio_pos
        rw [if_neg first, if_neg (by omega)]
    · apply List.map_congr_left
      intro i member
      have rows := tr.full_rows full (List.mem_range.mp member)
      rw [off] at rows ⊢
      rw [rows]
  · have off : c.offset = 0 := if_neg ov
    simp only [stateWindow, window, if_neg ov]
    apply List.map_congr_left
    intro i member
    have rows := tr.full_rows full (List.mem_range.mp member)
    rw [off, Nat.zero_add, Nat.zero_add] at rows
    rw [off, Nat.zero_add, rows]

lemma Tracks.step_open (tr : c.Tracks value row state n) (opn : (n + 1) % c.compressRatio ≠ 0) :
    c.Tracks value row (Function.update state (c.offset + n % c.compressRatio) (row n)) (n + 1) := by
  have same := succ_div_of_open opn
  constructor
  · rw [same]
    exact tr.write
  · intro ov i lt
    rw [update_previous ov lt, tr.previous ov i lt, same]
    by_cases first : n < c.compressRatio
    · have : n + 1 < c.compressRatio := by
        rcases Nat.lt_or_eq_of_le first with lt | e
        · exact lt
        · rw [Nat.succ_eq_add_one] at e
          rw [e, Nat.mod_self] at opn
          exact absurd rfl opn
      rw [if_pos first, if_pos this]
    · rw [if_neg first, if_neg (by omega)]

lemma Tracks.step_full (tr : c.Tracks value row state n) (full : (n + 1) % c.compressRatio = 0) :
    c.Tracks value row
      (if c.overlap then c.shift (Function.update state (c.offset + n % c.compressRatio) (row n))
        else Function.update state (c.offset + n % c.compressRatio) (row n)) (n + 1) := by
  have last := full_iff full
  constructor
  · rw [succ_div_of_full full, ← last]
    exact .start
  · intro ov i lt
    have rows := tr.full_rows full lt
    rw [show c.offset = c.compressRatio from if_pos ov] at rows ⊢
    rw [if_pos ov, shift, if_pos lt, rows, succ_div_of_full full, Nat.add_sub_cancel, if_neg]
    have := Nat.le_mul_of_pos_left c.compressRatio (Nat.add_pos_right (n / c.compressRatio) Nat.one_pos)
    omega

/-! ## A state buffer over a prefill -/

lemma cutoff_eq (n : Nat) : n - n % c.compressRatio = n / c.compressRatio * c.compressRatio := by
  have := Nat.div_add_mod' n c.compressRatio
  omega

lemma ratio_le_cutoff {n : Nat} :
    c.compressRatio ≤ n / c.compressRatio * c.compressRatio ↔ c.compressRatio ≤ n := by
  constructor
  · exact fun le => le.trans (Nat.div_mul_le_self n _)
  · exact fun le => Nat.le_mul_of_pos_left _ (Nat.div_pos le c.ratio_pos)

lemma slice_last (row : Nat → α) {n : Nat} (le : c.compressRatio ≤ n) :
    slice ((List.range n).map row) (n - n % c.compressRatio - c.compressRatio)
      (n - n % c.compressRatio) =
      (List.range c.compressRatio).map fun i =>
        row ((n / c.compressRatio - 1) * c.compressRatio + i) := by
  have full : c.compressRatio ≤ n / c.compressRatio * c.compressRatio := ratio_le_cutoff.mpr le
  rw [cutoff_eq, slice_map_range _ (Nat.div_mul_le_self n _), Nat.sub_sub_self full, Nat.sub_mul,
    Nat.one_mul]

lemma slice_rest (row : Nat → α) (n : Nat) :
    slice ((List.range n).map row) (n - n % c.compressRatio) n =
      (List.range (n % c.compressRatio)).map fun i =>
        row (n / c.compressRatio * c.compressRatio + i) := by
  rw [slice_map_range _ le_rfl, cutoff_eq]
  congr 2
  have := Nat.div_add_mod' n c.compressRatio
  omega

/-- What a prefill of `n` positions hands over to the group after its last full one. -/
def handed (c : Compressor X K) (row : Nat → Nat → α) (state : Nat → Nat → α) (n : Nat) :
    Nat → Nat → α :=
  if c.overlap ∧ c.compressRatio ≤ n then
    storeRows state 0 ((List.range c.compressRatio).map fun i =>
      row ((n / c.compressRatio - 1) * c.compressRatio + i))
  else state

/-- What a prefill of `n` positions leaves in a state buffer. -/
def seeded (c : Compressor X K) (row : Nat → Nat → α) (state : Nat → Nat → α) (n : Nat) :
    Nat → Nat → α :=
  storeRows (c.handed row state n) c.offset ((List.range (n % c.compressRatio)).map fun i =>
    row (n / c.compressRatio * c.compressRatio + i))

lemma Tracks.seeded (prior : c.overlap → n < c.compressRatio → ∀ i, i < c.compressRatio →
    state i = fun _ => value) : c.Tracks value row (c.seeded row state n) n := by
  constructor
  · intro p ge lt _
    obtain ⟨i, rfl⟩ := Nat.exists_eq_add_of_le ge
    have total := Nat.div_add_mod' n c.compressRatio
    have small := Nat.mod_lt n c.ratio_pos
    rw [mul_add_mod_ratio (by omega)]
    dsimp only
    rw [Compressor.seeded, storeRows_range, if_pos (by omega), Nat.add_sub_cancel_left]
  · intro ov i lt
    have off : c.offset = c.compressRatio := if_pos ov
    rw [Compressor.seeded, storeRows_below _ _ (by omega), handed]
    by_cases first : n < c.compressRatio
    · rw [if_neg (by omega), if_pos first, prior ov first i lt]
    · rw [if_pos ⟨ov, by omega⟩, if_neg first, storeRows_range, if_pos (by omega), Nat.sub_zero]

lemma unflatten_rows {β : Type} (row : Nat → β) (n : Nat) :
    c.unflatten (slice ((List.range n).map row) 0 (n - n % c.compressRatio)) =
      (List.range (n / c.compressRatio)).map fun g =>
        (List.range c.compressRatio).map fun i => row (g * c.compressRatio + i) := by
  rw [cutoff_eq, slice_map_range _ (Nat.div_mul_le_self n _), unflatten]
  simp only [Nat.sub_zero, Nat.zero_add, List.length_map, List.length_range]
  rw [Nat.mul_div_cancel _ c.ratio_pos]
  apply List.map_congr_left
  intro g member
  have lt := List.mem_range.mp member
  rw [slice_map_range _ (Nat.mul_le_mul_right _ (by omega)), Nat.add_mul, Nat.one_mul,
    Nat.add_sub_cancel_left]

lemma addApe_rows [Add K] (tok : Nat → X) (g : Nat) {m : Nat} (le : m ≤ c.compressRatio) :
    c.addApe ((List.range m).map fun i => c.wgate (tok (g * c.compressRatio + i))) =
      (List.range m).map fun i => c.scoreAt tok (g * c.compressRatio + i) := by
  apply List.ext_getElem
  · simp [addApe]
  · intro i h _
    have lt : i < m := by simpa [addApe] using h
    simp only [addApe, List.getElem_mapIdx, List.getElem_map, List.getElem_range, scoreAt,
      mul_add_mod_ratio (show i < c.compressRatio from by omega)]
    rfl

lemma overlapTransform_rows (value : α) (row : Nat → Nat → α) (m : Nat) (ov : c.overlap) :
    c.overlapTransform value ((List.range m).map fun g =>
      (List.range c.compressRatio).map fun i => row (g * c.compressRatio + i)) =
      (List.range m).map (c.window value row) := by
  apply List.ext_getElem
  · simp [overlapTransform]
  · intro g h _
    have lt : g < m := by simpa [overlapTransform] using h
    simp only [overlapTransform, List.getElem_mapIdx, List.getElem_map, List.getElem_range, window,
      if_pos ov, List.map_map]
    congr 1
    split_ifs with first
    · simp
    · simp [show g - 1 < m from by omega]

lemma overlapHalf_rows (value : α) (row : Nat → Nat → α) (m : Nat) (ov : ¬ c.overlap) :
    ((List.range m).map fun g => (List.range c.compressRatio).map fun i =>
      row (g * c.compressRatio + i)).map (·.map c.overlapHalf) =
      (List.range m).map (c.window value row) := by
  simp [window, if_neg ov, Function.comp_def]

/-! ## Calls keep the buffers -/

variable [Field K] {tok : Nat → X} {kvCache : Nat → Fin c.headDim → K} {s : State c}

lemma step_follows (fol : c.Follows tok kvCache s n) :
    c.Follows tok kvCache (c.step s (tok n) n).1 (n + 1) := by
  have score : c.scoreRow (n % c.compressRatio) (tok n) = c.scoreAt tok n := rfl
  have kv : c.wkv (tok n) = c.kvRow tok n := rfl
  by_cases full : (n + 1) % c.compressRatio = 0
  · simp only [step, if_pos full, score, kv]
    refine ⟨fol.kv.step_full full, fol.score.step_full full, ?_⟩
    intro g
    dsimp only
    have last := full_iff full
    have start : n + 1 - c.compressRatio = n / c.compressRatio * c.compressRatio := by
      rw [last, Nat.add_mul, Nat.one_mul, Nat.add_sub_cancel]
    rw [fol.kv.stateWindow_eq full, fol.score.stateWindow_eq full, succ_div_of_full full, start,
      Function.update_apply, fol.cells g]
    by_cases here : g = n / c.compressRatio
    · rw [if_pos here, if_pos (by omega), here]
      rfl
    · rw [if_neg here]
      congr 1
      rw [Nat.lt_succ_iff_lt_or_eq]
      simp [here]
  · simp only [step, if_neg full, score, kv]
    refine ⟨fol.kv.step_open full, fol.score.step_open full, ?_⟩
    intro g
    rw [succ_div_of_open full]
    exact fol.cells g

lemma saveWindow_rows (s : State c) (tok : Nat → X) (n : Nat) :
    c.saveWindow s ((List.range n).map (c.kvRow tok)) ((List.range n).map fun p => c.wgate (tok p)) =
      { s with
        kvState := c.seeded (c.kvRow tok) s.kvState n
        scoreState := c.seeded (c.scoreAt tok) s.scoreState n } := by
  have last : c.overlap ∧ c.compressRatio ≤ n - n % c.compressRatio ↔
      c.overlap ∧ c.compressRatio ≤ n := by
    rw [cutoff_eq, ratio_le_cutoff]
  simp only [saveWindow, List.length_map, List.length_range, seeded, handed]
  rw [slice_rest, slice_rest, addApe_rows _ _ (Nat.mod_lt n c.ratio_pos).le]
  by_cases full : c.overlap ∧ c.compressRatio ≤ n
  · rw [if_pos (last.mpr full), slice_last _ full.2, slice_last _ full.2, addApe_rows _ _ le_rfl,
      if_pos full, if_pos full]
    split_ifs with rest
    · rfl
    · simp [show n % c.compressRatio = 0 from by omega]
  · rw [if_neg (fun h => full (last.mp h)), if_neg full, if_neg full]
    split_ifs with rest
    · rfl
    · simp [show n % c.compressRatio = 0 from by omega]

lemma poolGroups_rows (tok : Nat → X) (n : Nat) :
    c.poolGroups ((List.range n).map (c.kvRow tok)) ((List.range n).map fun p => c.wgate (tok p)) =
      (List.range (n / c.compressRatio)).map fun g =>
        c.pool (c.window 0 (c.kvRow tok) g) (c.window ⊥ (c.scoreAt tok) g) := by
  have biased : ((List.range (n / c.compressRatio)).map fun g =>
      (List.range c.compressRatio).map fun i => c.wgate (tok (g * c.compressRatio + i))).map
        c.addApe = (List.range (n / c.compressRatio)).map fun g =>
      (List.range c.compressRatio).map fun i => c.scoreAt tok (g * c.compressRatio + i) := by
    rw [List.map_map]
    apply List.map_congr_left
    intro g _
    exact addApe_rows tok g le_rfl
  simp only [poolGroups, List.length_map, List.length_range]
  rw [unflatten_rows, unflatten_rows, biased]
  by_cases ov : c.overlap
  · rw [if_pos ov, if_pos ov, overlapTransform_rows _ _ _ ov, overlapTransform_rows _ _ _ ov]
    simp [List.zipWith_map, List.zipWith_self]
  · rw [if_neg ov, if_neg ov, overlapHalf_rows 0 _ _ ov, overlapHalf_rows ⊥ _ _ ov]
    simp [List.zipWith_map, List.zipWith_self]

lemma prefill_eq (s : State c) (tok : Nat → X) (n : Nat) :
    (c.prefill s ((List.range n).map tok)).1 =
      { kvState := c.seeded (c.kvRow tok) s.kvState n
        scoreState := c.seeded (c.scoreAt tok) s.scoreState n
        kvCache := storeRows s.kvCache 0 ((List.range (n / c.compressRatio)).map (c.cell tok)) } := by
  have kv : ((List.range n).map tok).map c.wkv = (List.range n).map (c.kvRow tok) := by
    rw [List.map_map]
    rfl
  have score : ((List.range n).map tok).map c.wgate =
      (List.range n).map fun p => c.wgate (tok p) := by
    rw [List.map_map]
    rfl
  simp only [prefill, kv, score, saveWindow_rows, poolGroups_rows, List.length_map,
    List.length_range]
  split_ifs with short
  · simp [Nat.div_eq_of_lt short]
  · have cells : ((List.range (n / c.compressRatio)).map fun g =>
        c.pool (c.window 0 (c.kvRow tok) g) (c.window ⊥ (c.scoreAt tok) g)).mapIdx
          (fun g cell => c.finish (g * c.compressRatio) cell) =
        (List.range (n / c.compressRatio)).map (c.cell tok) := by
      apply List.ext_getElem
      · simp
      · intro g h _
        simp [cell]
    rw [cells]

lemma prefill_follows (s : State c) (tok : Nat → X) (n : Nat) (prior : c.overlap → n < c.compressRatio → ∀ i, i < c.compressRatio →
    s.kvState i = (fun _ => 0) ∧ s.scoreState i = fun _ => ⊥) :
    c.Follows tok s.kvCache (c.prefill s ((List.range n).map tok)).1 n := by
  rw [prefill_eq]
  refine ⟨.seeded fun ov short i lt => (prior ov short i lt).1,
    .seeded fun ov short i lt => (prior ov short i lt).2, fun g => ?_⟩
  dsimp only
  rw [storeRows_range]
  simp

/-! ## Runs -/

lemma calls_follows (pos : 0 < n) (fol : c.Follows tok kvCache s n) (m : Nat) :
    ∃ s', c.calls s n ((List.range m).map fun i => [tok (n + i)]) = some s' ∧
      c.Follows tok kvCache s' (n + m) := by
  induction m generalizing n s with
  | zero => exact ⟨s, rfl, fol⟩
  | succ m ih =>
    obtain ⟨s', run, fol'⟩ := ih (Nat.succ_pos n) (step_follows fol)
    refine ⟨s', ?_, by rwa [Nat.add_comm m, ← Nat.add_assoc]⟩
    rw [List.range_succ_eq_map, List.map_cons, List.map_map, calls, forward, if_neg (by omega)]
    simp only [Option.bind_eq_bind, Option.bind_some, List.length_singleton, Nat.add_zero]
    rw [← run]
    congr 2
    funext i
    simp only [Function.comp_apply]
    rw [Nat.succ_eq_add_one i, Nat.add_comm i 1, ← Nat.add_assoc]

/-- The buffers after the first `n` tokens of a request, in a call each. -/
def oneToken (c : Compressor X K) (kvCache : Nat → Fin c.headDim → K) (tok : Nat → X) :
    Nat → State c
  | 0 => .fresh c kvCache
  | n + 1 =>
    if n = 0 then (c.prefill (oneToken c kvCache tok n) [tok n]).1
    else (c.step (oneToken c kvCache tok n) (tok n) n).1

lemma oneToken_succ (pos : 0 < n) :
    c.oneToken kvCache tok (n + 1) = (c.step (c.oneToken kvCache tok n) (tok n) n).1 :=
  if_neg pos.ne'

lemma calls_oneToken_from (n m : Nat) :
    c.calls (c.oneToken kvCache tok n) n ((List.range m).map fun i => [tok (n + i)]) =
      some (c.oneToken kvCache tok (n + m)) := by
  induction m generalizing n with
  | zero => rfl
  | succ m ih =>
    have next : (c.forward (c.oneToken kvCache tok n) [tok n] n).map Prod.fst =
        some (c.oneToken kvCache tok (n + 1)) := by
      rw [oneToken, forward]
      split_ifs with first
      · rfl
      · rfl
    obtain ⟨r, call, after⟩ := Option.map_eq_some_iff.mp next
    have rest := ih (n + 1)
    rw [List.range_succ_eq_map, List.map_cons, List.map_map, calls, Nat.add_zero, call]
    simp only [Option.bind_eq_bind, Option.bind_some, List.length_singleton, after]
    rw [show n + (m + 1) = n + 1 + m from by omega, ← rest]
    congr 2
    funext i
    simp only [Function.comp_apply]
    rw [Nat.succ_eq_add_one i, Nat.add_comm i 1, ← Nat.add_assoc]

lemma calls_oneToken (c : Compressor X K) (kvCache : Nat → Fin c.headDim → K) (tok : Nat → X)
    (n : Nat) : c.calls (.fresh c kvCache) 0 ((List.range n).map fun i => [tok i]) =
      some (c.oneToken kvCache tok n) := by
  have run : c.calls (c.oneToken kvCache tok 0) 0 ((List.range n).map fun i => [tok (0 + i)]) =
      some (c.oneToken kvCache tok (0 + n)) := calls_oneToken_from 0 n
  simp only [Nat.zero_add] at run
  exact run

lemma oneToken_follows (c : Compressor X K) (kvCache : Nat → Fin c.headDim → K) (tok : Nat → X)
    (n : Nat) : c.Follows tok kvCache (c.oneToken kvCache tok n) n := by
  induction n with
  | zero =>
    refine ⟨⟨?_, ?_⟩, ⟨?_, ?_⟩, ?_⟩
    · rw [Nat.zero_div, Nat.zero_mul]
      exact .start
    · exact fun _ i lt => (if_pos c.ratio_pos).symm
    · rw [Nat.zero_div, Nat.zero_mul]
      exact .start
    · exact fun _ i lt => (if_pos c.ratio_pos).symm
    · intro g
      rw [Nat.zero_div, if_neg (Nat.not_lt_zero g)]
      rfl
  | succ n ih =>
    rcases Nat.eq_zero_or_pos n with rfl | pos
    · exact prefill_follows (State.fresh c kvCache) tok 1 fun _ _ _ _ => ⟨rfl, rfl⟩
    · rw [oneToken_succ pos]
      exact step_follows ih

/-- The tokens of a request by position. -/
def tokens (x : X) (xs : List X) : Nat → X := fun p => ((x :: xs)[p]?).getD x

lemma tokens_first (x : X) (xs ys : List X) :
    (List.range (x :: xs).length).map (tokens x (xs ++ ys)) = x :: xs := by
  apply List.ext_getElem
  · simp
  · intro i h _
    have lt : i < (x :: xs).length := by simpa using h
    simp only [List.getElem_map, List.getElem_range, tokens]
    rw [← List.cons_append, List.getElem?_append_left lt, List.getElem?_eq_getElem lt,
      Option.getD_some]

lemma tokens_rest (x : X) (xs ys : List X) :
    (List.range ys.length).map (fun i => [tokens x (xs ++ ys) ((x :: xs).length + i)]) =
      ys.map ([·]) := by
  apply List.ext_getElem
  · simp
  · intro i h _
    have lt : i < ys.length := by simpa using h
    simp only [List.getElem_map, List.getElem_range, tokens]
    rw [← List.cons_append, List.getElem?_append_right (Nat.le_add_right _ _),
      Nat.add_sub_cancel_left, List.getElem?_eq_getElem lt, Option.getD_some]

lemma request_follows (c : Compressor X K) (kvCache : Nat → Fin c.headDim → K) (x : X)
    (xs ys : List X) :
    ∃ s, c.calls (.fresh c kvCache) 0 ((x :: xs) :: ys.map ([·])) = some s ∧
      c.Follows (tokens x (xs ++ ys)) kvCache s ((x :: xs).length + ys.length) := by
  have first := prefill_follows (State.fresh c kvCache) (tokens x (xs ++ ys)) (x :: xs).length
    fun _ _ _ _ => ⟨rfl, rfl⟩
  rw [tokens_first] at first
  obtain ⟨s, run, fol⟩ := calls_follows (by simp) first ys.length
  rw [tokens_rest] at run
  refine ⟨s, ?_, fol⟩
  simpa [calls, forward] using run

/-- Splitting a request into a first call and single-token calls does not change its compressed
cells, nor those of any tokens that follow. -/
theorem incremental_eq_batch (c : Compressor X K) (kvCache : Nat → Fin c.headDim → K)
    (x : X) (xs ys zs : List X) :
    ∃ s t, c.calls (.fresh c kvCache) 0 ((x :: xs) :: (ys ++ zs).map ([·])) = some s ∧
      c.calls (.fresh c kvCache) 0 ((x :: (xs ++ ys)) :: zs.map ([·])) = some t ∧
      s.kvCache = t.kvCache := by
  obtain ⟨s, runs, fols⟩ := request_follows c kvCache x xs (ys ++ zs)
  obtain ⟨t, runt, folt⟩ := request_follows c kvCache x (xs ++ ys) zs
  refine ⟨s, t, runs, runt, ?_⟩
  funext g
  have count : (x :: xs).length + (ys ++ zs).length = (x :: (xs ++ ys)).length + zs.length := by
    simp only [List.length_cons, List.length_append]
    omega
  rw [fols.cells, folt.cells, List.append_assoc, count]

end Compressor

end PocketMoE.Runtime
