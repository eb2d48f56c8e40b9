import Mathlib.Algebra.GroupWithZero.Nat
import Mathlib.Data.List.Basic
import Mathlib.Tactic.Lemma

/-!
# Attention with a cache that grows

The attention of MiniMax-M2 and of GLM-DSA: keys and values go to a cache by position, which is
allocated again when it is too small, and each call makes the mask of its queries. A sequence may be fed
in any calls as long as the cache is not allocated again on the way, since what was in it is lost
(`attention_iff`).
-/

namespace PocketMoE.Runtime

/-- `cache_k`, `cache_v` and their sizes. A cell that has not been written is `none`. -/
structure KvCache (K V : Type) where
  cacheBatch : Nat
  cacheLen : Nat
  cacheK : Nat → Nat → Option K
  cacheV : Nat → Nat → Option V

/-- What an attention makes of a token at a position, and of a query and what it attends. -/
structure Projections (X Q K V Y : Type) where
  query : X → Nat → Q
  key : X → Nat → K
  value : X → Nat → V
  out : Q → List (Option K × Option V) → Y

section

variable {X Q K V Y : Type}

/-- `reset_cache`, with `torch.empty`. -/
def resetCache (batchSize maxSeqLen : Nat) : KvCache K V where
  cacheBatch := batchSize
  cacheLen := maxSeqLen
  cacheK _ _ := none
  cacheV _ _ := none

/-- `_ensure_cache`. Before the first `reset_cache` there is no cache, and its length is 0. -/
def ensureCache (cache : Option (KvCache K V)) (batchSize neededLen : Nat) : KvCache K V :=
  match cache with
  | none => resetCache batchSize (max neededLen (max 1 0 * 2))
  | some c =>
    if c.cacheBatch < batchSize ∨ c.cacheLen < neededLen then
      resetCache batchSize (max neededLen (max 1 c.cacheLen * 2))
    else c

/-- `cache[:bsz, start_pos:end_pos].copy_(rows)`. -/
def copyRows {α : Type} (cells : Nat → Nat → Option α) (bsz startPos endPos : Nat)
    (rows : Nat → Nat → α) : Nat → Nat → Option α :=
  fun b j => if b < bsz ∧ startPos ≤ j ∧ j < endPos then some (rows b (j - startPos)) else cells b j

/-- Whether a query of the call attends a position: the mask, `is_causal`, or all. -/
def allowed (startPos seqlen i j : Nat) : Bool :=
  if seqlen = 1 then true
  else if startPos = 0 then j ≤ i
  else j ≤ startPos + i

/-- The query of a token, with the keys and values that it attends. -/
abbrev Attended (Q K V : Type) := Q × List (Option K × Option V)

/-- `__call__`: the cache after it, and what each row and token of the call attends. -/
def Projections.call (p : Projections X Q K V Y) (cache : Option (KvCache K V))
    (x : Nat → Nat → X) (bsz seqlen startPos : Nat) : KvCache K V × (Nat → Nat → Attended Q K V) :=
  let endPos := startPos + seqlen
  let c := ensureCache cache bsz endPos
  let cacheK := copyRows c.cacheK bsz startPos endPos fun b i => p.key (x b i) (startPos + i)
  let cacheV := copyRows c.cacheV bsz startPos endPos fun b i => p.value (x b i) (startPos + i)
  ({ c with cacheK := cacheK, cacheV := cacheV },
    fun b i => (p.query (x b i) (startPos + i),
      ((List.range endPos).filter (allowed startPos seqlen i)).map fun j => (cacheK b j, cacheV b j)))

/-- `MiniMaxAttention`, whose projections, norms and rotation are functions of a token. -/
structure MiniMaxAttention (X Q K V Y : Type) where
  qProj : X → Q
  qNorm : Q → Q
  kProj : X → K
  kNorm : K → K
  vProj : X → V
  ropeQ : Q → Nat → Q
  ropeK : K → Nat → K
  out : Q → List (Option K × Option V) → Y

/-- The functions of a token in `MiniMaxAttention.__call__`. -/
def MiniMaxAttention.projections (m : MiniMaxAttention X Q K V Y) : Projections X Q K V Y where
  query x pos := m.ropeQ (m.qNorm (m.qProj x)) pos
  key x pos := m.ropeK (m.kNorm (m.kProj x)) pos
  value x _ := m.vProj x
  out := m.out

/-- `GLMDSAAttention`: a query and a key have a part that is rotated and one that is not, and the keys
and values come from a latent row. -/
structure GLMDSAAttention (X L N P V Y : Type) where
  qAProj : X → L
  qANorm : L → L
  qBProj : L → N × P
  kvAProj : X → L × P
  kvANorm : L → L
  kB : L → N
  vB : L → V
  rope : P → Nat → P
  out : N × P → List (Option (N × P) × Option V) → Y

/-- The functions of a token in `GLMDSAAttention.__call__`. -/
def GLMDSAAttention.projections {L N P : Type} (g : GLMDSAAttention X L N P V Y) :
    Projections X (N × P) (N × P) V Y where
  query x pos :=
    let q := g.qBProj (g.qANorm (g.qAProj x))
    (q.1, g.rope q.2 pos)
  key x pos :=
    let kvRope := g.kvAProj x
    (g.kB (g.kvANorm kvRope.1), g.rope kvRope.2 pos)
  value x _ := g.vB (g.kvANorm (g.kvAProj x).1)
  out := g.out

/-- What each row and position of a sequence attends when it is fed in calls of these lengths. -/
def Projections.run (p : Projections X Q K V Y) (x : Nat → Nat → X) (bsz : Nat) :
    Option (KvCache K V) → Nat → List Nat → Nat → Nat → Option (Attended Q K V)
  | _, _, [] => fun _ _ => none
  | cache, startPos, seqlen :: rest =>
    let r := p.call cache (fun b i => x b (startPos + i)) bsz seqlen startPos
    fun b q =>
      if q < startPos + seqlen then some (r.2 b (q - startPos))
      else p.run x bsz (some r.1) (startPos + seqlen) rest b q

/-- A query with the keys and values of all positions up to its own. -/
def Projections.causal (p : Projections X Q K V Y) (x : Nat → Nat → X) (b q : Nat) :
    Attended Q K V :=
  (p.query (x b q) q,
    (List.range (q + 1)).map fun j => (some (p.key (x b j) j), some (p.value (x b j) j)))

/-- The output of a query. -/
def Projections.output (p : Projections X Q K V Y) (attended : Attended Q K V) : Y :=
  p.out attended.1 attended.2

/-- The attention does not depend on how a sequence is fed: each query attends the keys and values of
the positions up to its own, and its output is that of one call over the whole sequence. -/
def Projections.Independent (p : Projections X Q K V Y) (cache : Option (KvCache K V)) (bsz : Nat)
    (seqlens : List Nat) : Prop :=
  ∀ (x : Nat → Nat → X) (b q : Nat), b < bsz → q < seqlens.sum →
    p.run x bsz cache 0 seqlens b q = some (p.causal x b q) ∧
    (p.run x bsz cache 0 seqlens b q).map p.output =
      (p.run x bsz cache 0 [seqlens.sum] b q).map p.output

/-- The cache that the first call with tokens leaves has room for the whole sequence. -/
def Fits (bsz : Nat) : Option (KvCache K V) → List Nat → Prop
  | _, [] => True
  | cache, 0 :: rest => Fits bsz (some (ensureCache cache bsz 0)) rest
  | cache, seqlen :: rest =>
    (seqlen :: rest).sum ≤ (ensureCache cache bsz seqlen).cacheLen

end

section

variable {X Q K V Y : Type} {p : Projections X Q K V Y} {x : Nat → Nat → X}
variable {bsz startPos seqlen : Nat} {cache : Option (KvCache K V)} {c : KvCache K V}

lemma filter_range {n m : Nat} (inside : m < n) :
    ((List.range n).filter fun j => decide (j ≤ m)) = List.range (m + 1) := by
  obtain ⟨k, rfl⟩ := Nat.exists_eq_add_of_lt inside
  have before : (List.range (m + 1)).filter (fun j => decide (j ≤ m)) = List.range (m + 1) :=
    List.filter_eq_self.mpr fun j member =>
      decide_eq_true (Nat.le_of_lt_succ (List.mem_range.mp member))
  have after : ((List.range k).map (m + 1 + ·)).filter (fun j => decide (j ≤ m)) = [] := by
    refine List.filter_eq_nil_iff.mpr fun j member => ?_
    obtain ⟨i, -, rfl⟩ := List.mem_map.mp member
    simp only [decide_eq_true_eq]
    omega
  rw [Nat.add_right_comm, List.range_add, List.filter_append, before, after, List.append_nil]

lemma filter_allowed {i : Nat} (inside : i < seqlen) :
    (List.range (startPos + seqlen)).filter (allowed startPos seqlen i) =
      List.range (startPos + i + 1) := by
  by_cases one : seqlen = 1
  · obtain rfl : i = 0 := by omega
    have all : allowed startPos seqlen 0 = fun _ => true := funext fun j => if_pos one
    rw [all, List.filter_true, one]
  by_cases first : startPos = 0
  · have causal : allowed startPos seqlen i = fun j => decide (j ≤ i) :=
      funext fun j => (if_neg one).trans (if_pos first)
    rw [causal, first, Nat.zero_add, Nat.zero_add, filter_range inside]
  · have mask : allowed startPos seqlen i = fun j => decide (j ≤ startPos + i) :=
      funext fun j => (if_neg one).trans (if_neg first)
    rw [mask, filter_range (Nat.add_lt_add_left inside startPos)]

lemma ensureCache_some (batch : bsz ≤ c.cacheBatch) {needed : Nat} (room : needed ≤ c.cacheLen) :
    ensureCache (some c) bsz needed = c :=
  if_neg (by omega)

lemma le_ensureCache (cache : Option (KvCache K V)) (bsz needed : Nat) :
    bsz ≤ (ensureCache cache bsz needed).cacheBatch ∧
      needed ≤ (ensureCache cache bsz needed).cacheLen := by
  cases cache with
  | none => exact ⟨Nat.le_refl _, Nat.le_max_left ..⟩
  | some c =>
    rw [ensureCache]
    split
    · exact ⟨Nat.le_refl _, Nat.le_max_left ..⟩
    · omega

/-- The keys and values of the positions before one are in the cache. -/
structure Holds (p : Projections X Q K V Y) (x : Nat → Nat → X) (bsz startPos : Nat)
    (c : KvCache K V) : Prop where
  key : ∀ b j, b < bsz → j < startPos → c.cacheK b j = some (p.key (x b j) j)
  value : ∀ b j, b < bsz → j < startPos → c.cacheV b j = some (p.value (x b j) j)

lemma copyRows_eq {α : Type} {cells : Nat → Nat → Option α} {row : Nat → Nat → α} {b j : Nat}
    (before : ∀ b j, b < bsz → j < startPos → cells b j = some (row b j)) (here : b < bsz)
    (inside : j < startPos + seqlen) :
    copyRows cells bsz startPos (startPos + seqlen) (fun b i => row b (startPos + i)) b j =
      some (row b j) := by
  rw [copyRows]
  split
  · rename_i written
    rw [Nat.add_sub_cancel' written.2.1]
  · exact before b j here (by omega)

lemma call_holds (holds : Holds p x bsz startPos (ensureCache cache bsz (startPos + seqlen))) :
    Holds p x bsz (startPos + seqlen)
      (p.call cache (fun b i => x b (startPos + i)) bsz seqlen startPos).1 :=
  ⟨fun _ _ here inside => copyRows_eq holds.key here inside,
    fun _ _ here inside => copyRows_eq holds.value here inside⟩

lemma call_attends (holds : Holds p x bsz startPos (ensureCache cache bsz (startPos + seqlen)))
    {b i : Nat} (here : b < bsz) (inside : i < seqlen) :
    (p.call cache (fun b i => x b (startPos + i)) bsz seqlen startPos).2 b i =
      p.causal x b (startPos + i) := by
  refine Prod.ext rfl ?_
  show (List.filter _ _).map _ = (List.range (startPos + i + 1)).map _
  rw [filter_allowed inside]
  refine List.map_congr_left fun j member => ?_
  have before : j < startPos + seqlen := by
    have upto := List.mem_range.mp member
    omega
  exact Prod.ext (copyRows_eq holds.key here before) (copyRows_eq holds.value here before)

lemma call_sizes (p : Projections X Q K V Y) (cache : Option (KvCache K V)) (x : Nat → Nat → X)
    (bsz seqlen startPos : Nat) : (p.call cache x bsz seqlen startPos).1.cacheBatch =
        (ensureCache cache bsz (startPos + seqlen)).cacheBatch ∧
      (p.call cache x bsz seqlen startPos).1.cacheLen =
        (ensureCache cache bsz (startPos + seqlen)).cacheLen := ⟨rfl, rfl⟩

lemma run_attends (seqlens : List Nat) {c : KvCache K V} (batch : bsz ≤ c.cacheBatch)
    (room : startPos + seqlens.sum ≤ c.cacheLen) (holds : Holds p x bsz startPos c) {b q : Nat}
    (here : b < bsz) (after : startPos ≤ q) (inside : q < startPos + seqlens.sum) :
    p.run x bsz (some c) startPos seqlens b q = some (p.causal x b q) := by
  induction seqlens generalizing startPos c with
  | nil =>
    rw [List.sum_nil] at inside
    omega
  | cons seqlen rest ih =>
    rw [List.sum_cons] at room inside
    have same : ensureCache (some c) bsz (startPos + seqlen) = c :=
      ensureCache_some batch (by omega)
    have holds' : Holds p x bsz startPos (ensureCache (some c) bsz (startPos + seqlen)) :=
      same.symm ▸ holds
    rw [Projections.run]
    dsimp only
    by_cases now : q < startPos + seqlen
    · rw [if_pos now, call_attends holds' here (by omega), Nat.add_sub_cancel' after]
    · rw [if_neg now]
      obtain ⟨batches, lens⟩ := call_sizes p (some c) (fun b i => x b (startPos + i)) bsz seqlen startPos
      rw [same] at batches lens
      exact ih (batches ▸ batch) (by rw [lens]; omega) (call_holds holds') (by omega) (by omega)

lemma run_loses (seqlens : List Nat) {c : KvCache K V} (batch : bsz ≤ c.cacheBatch)
    (room : startPos ≤ c.cacheLen) (short : c.cacheLen < startPos + seqlens.sum)
    (positive : 0 < startPos) (x : Nat → Nat → X) (b : Nat) :
    ∃ q, startPos ≤ q ∧ q < startPos + seqlens.sum ∧
      p.run x bsz (some c) startPos seqlens b q ≠ some (p.causal x b q) := by
  induction seqlens generalizing startPos c with
  | nil =>
    rw [List.sum_nil] at short
    omega
  | cons seqlen rest ih =>
    rw [List.sum_cons] at short ⊢
    by_cases stays : startPos + seqlen ≤ c.cacheLen
    · have same : ensureCache (some c) bsz (startPos + seqlen) = c := ensureCache_some batch stays
      obtain ⟨batches, lens⟩ := call_sizes p (some c) (fun b i => x b (startPos + i)) bsz seqlen startPos
      rw [same] at batches lens
      obtain ⟨q, after, inside, lost⟩ := ih (batches ▸ batch) (lens ▸ stays)
        (by rw [lens]; omega) (by omega)
      refine ⟨q, by omega, by omega, ?_⟩
      rw [Projections.run]
      dsimp only
      rwa [if_neg (by omega)]
    · refine ⟨startPos, Nat.le_refl _, by omega, fun eq => ?_⟩
      have fresh : ensureCache (some c) bsz (startPos + seqlen) =
          resetCache bsz (max (startPos + seqlen) (max 1 c.cacheLen * 2)) :=
        if_pos (by omega)
      rw [Projections.run] at eq
      dsimp only at eq
      rw [if_pos (by omega), Projections.call, fresh, Nat.sub_self] at eq
      -- the first of the keys is that of position 0
      have keys := congrArg Prod.snd (Option.some.inj eq)
      dsimp only [Projections.causal] at keys
      rw [filter_allowed (by omega), Nat.add_zero] at keys
      have first := congrArg (·[0]?) keys
      simp only [List.getElem?_map, List.getElem?_range (Nat.succ_pos startPos), Option.map_some,
        Option.some.injEq, Prod.mk.injEq] at first
      have unwritten := first.1
      rw [copyRows, if_neg (by omega)] at unwritten
      cases unwritten

lemma holds_zero (p : Projections X Q K V Y) (x : Nat → Nat → X) (bsz : Nat) (c : KvCache K V) :
    Holds p x bsz 0 c := ⟨fun _ _ _ none => absurd none (Nat.not_lt_zero _),
  fun _ _ _ none => absurd none (Nat.not_lt_zero _)⟩

lemma call_nothing (p : Projections X Q K V Y) (cache : Option (KvCache K V)) (x : Nat → Nat → X)
    (bsz : Nat) : (p.call cache x bsz 0 0).1 = ensureCache cache bsz 0 := by
  have same {α : Type} (cells : Nat → Nat → Option α) (row : Nat → Nat → α) :
      copyRows cells bsz 0 (0 + 0) row = cells :=
    funext fun b => funext fun j => if_neg (by omega)
  rw [Projections.call]
  dsimp only
  rw [same, same]

lemma fits_attends (seqlens : List Nat) (fits : Fits bsz cache seqlens) {b q : Nat} (here : b < bsz)
    (inside : q < seqlens.sum) : p.run x bsz cache 0 seqlens b q = some (p.causal x b q) := by
  induction seqlens generalizing cache with
  | nil => exact absurd inside (Nat.not_lt_zero q)
  | cons seqlen rest ih =>
    rw [Projections.run]
    dsimp only
    have holds : Holds p x bsz 0 (ensureCache cache bsz (0 + seqlen)) := holds_zero ..
    cases seqlen with
    | zero =>
      rw [List.sum_cons, Nat.zero_add] at inside
      rw [if_neg (Nat.not_lt_zero q), call_nothing]
      exact ih fits inside
    | succ n =>
      rw [List.sum_cons] at inside
      by_cases now : q < 0 + (n + 1)
      · rw [if_pos now, call_attends holds here (by omega), Nat.sub_zero, Nat.zero_add]
      · rw [if_neg now]
        have room : (n + 1) + rest.sum ≤ (ensureCache cache bsz (0 + (n + 1))).cacheLen := by
          rw [Nat.zero_add]
          exact fits
        have batch := (le_ensureCache cache bsz (0 + (n + 1))).1
        obtain ⟨batches, lens⟩ := call_sizes p cache (fun b i => x b (0 + i)) bsz (n + 1) 0
        exact run_attends rest (batches ▸ batch) (by rw [lens]; omega) (call_holds holds) here
          (by omega) (by omega)

lemma not_fits_loses (seqlens : List Nat) (fits : ¬ Fits bsz cache seqlens) (x : Nat → Nat → X)
    (b : Nat) : ∃ q < seqlens.sum, p.run x bsz cache 0 seqlens b q ≠ some (p.causal x b q) := by
  induction seqlens generalizing cache with
  | nil => exact absurd trivial fits
  | cons seqlen rest ih =>
    cases seqlen with
    | zero =>
      obtain ⟨q, inside, lost⟩ := ih fits
      refine ⟨q, by rwa [List.sum_cons, Nat.zero_add], ?_⟩
      rw [Projections.run]
      dsimp only
      rwa [if_neg (Nat.not_lt_zero q), call_nothing]
    | succ n =>
      have short : (ensureCache cache bsz (0 + (n + 1))).cacheLen < (n + 1) + rest.sum := by
        rw [Nat.zero_add]
        exact Nat.lt_of_not_le fits
      obtain ⟨batch, room⟩ := le_ensureCache cache bsz (0 + (n + 1))
      obtain ⟨batches, lens⟩ := call_sizes p cache (fun b i => x b (0 + i)) bsz (n + 1) 0
      obtain ⟨q, after, inside, lost⟩ := @run_loses _ _ _ _ _ p bsz (0 + (n + 1)) rest
        (p.call cache (fun b i => x b (0 + i)) bsz (n + 1) 0).1 (batches ▸ batch) (lens ▸ room)
        (by rw [lens]; omega) (by omega) x b
      refine ⟨q, by rw [List.sum_cons]; omega, ?_⟩
      rw [Projections.run]
      dsimp only
      rwa [if_neg (by omega)]

lemma independent_iff [Inhabited X] (p : Projections X Q K V Y) (cache : Option (KvCache K V))
    (bsz : Nat) (seqlens : List Nat) :
    p.Independent cache bsz seqlens ↔ bsz = 0 ∨ Fits bsz cache seqlens := by
  constructor
  · intro independent
    by_contra! other
    obtain ⟨q, inside, lost⟩ := not_fits_loses (p := p) seqlens other.2 (fun _ _ => default) 0
    exact lost (independent _ 0 q (Nat.pos_of_ne_zero other.1) inside).1
  · rintro (none | fits) x b q here inside
    · omega
    · have whole : Fits bsz cache [seqlens.sum] := by
        cases sum : seqlens.sum with
        | zero => omega
        | succ n => exact (le_ensureCache cache bsz (n + 1)).2
      have one : q < [seqlens.sum].sum := by rwa [List.sum_singleton]
      rw [fits_attends seqlens fits here inside, fits_attends [seqlens.sum] whole here one]
      exact ⟨rfl, rfl⟩

end

/-- The attention of MiniMax-M2 and that of GLM-DSA do not depend on how a sequence is fed if and only if
the cache that the first call with tokens leaves has room for all of it. -/
theorem attention_iff {X Q K V Y L N P : Type} [Inhabited X] (m : MiniMaxAttention X Q K V Y)
    (g : GLMDSAAttention X L N P V Y) (cache : Option (KvCache K V))
    (cache' : Option (KvCache (N × P) V)) (bsz : Nat) (seqlens : List Nat) :
    (m.projections.Independent cache bsz seqlens ↔ bsz = 0 ∨ Fits bsz cache seqlens) ∧
      (g.projections.Independent cache' bsz seqlens ↔ bsz = 0 ∨ Fits bsz cache' seqlens) :=
  ⟨independent_iff m.projections cache bsz seqlens, independent_iff g.projections cache' bsz seqlens⟩

/-- Three tokens one by one, without a reset: the third call allocates the cache again, and its query
attends two positions that nobody wrote. -/
theorem cache_lost :
    (¬ ∃ m : MiniMaxAttention Nat Nat Nat Nat Nat, m.projections.Independent none 1 [1, 1, 1]) ∧
      ¬ ∃ g : GLMDSAAttention Nat Nat Nat Nat Nat Nat,
        g.projections.Independent none 1 [1, 1, 1] := by
  have short {K V : Type} : ¬ (1 = 0 ∨ Fits 1 (none : Option (KvCache K V)) [1, 1, 1]) := by
    rintro (none | fits)
    · cases none
    · exact absurd (show 3 ≤ 2 from fits) (by decide)
  exact ⟨fun ⟨_, independent⟩ => short ((independent_iff _ none 1 [1, 1, 1]).mp independent),
    fun ⟨_, independent⟩ => short ((independent_iff _ none 1 [1, 1, 1]).mp independent)⟩

end PocketMoE.Runtime
