import Mathlib.Data.Finset.Card
import Mathlib.Data.List.ProdSigma
import Mathlib.Data.List.Perm.Lattice
import Mathlib.Data.Multiset.Bind
import Mathlib.Data.Nat.ModEq
import Mathlib.Data.Set.Function
import Mathlib.Data.Finset.Prod
import PocketMoE.Lib.BlockScale
import PocketMoE.Lib.Loop

/-!
# Grids of tiles

A matrix is covered by tiles of a fixed size, the last ones cut short by a mask. `tile` is the usual
order of a one-dimensional grid: the tiles of a group of rows come column after column, and the last
group may have fewer rows. The tiles of a grid have every entry of the matrix once
(`cells_tiles`), also in that order (`tile_bijOn`, `cells_swizzled`).
-/

namespace PocketMoE.Lib

/-- `cdiv`: the quotient rounded up. -/
def cdiv (a b : ℕ) : ℕ := (a + b - 1) / b

/-- The entries below `n` of the tile `p` of a size. -/
def cells (size n p : ℕ) : List ℕ := ((List.range size).map (p * size + ·)).filter (· < n)

lemma cells_eq (size n p : ℕ) :
    cells size n p = List.range' (p * size) (min n (p * size + size) - p * size) := by
  unfold cells
  rw [← List.range'_eq_map_range]
  generalize p * size = start
  induction size generalizing start with
  | zero => simp
  | succ size ih =>
    rw [List.range'_succ, List.filter_cons, ih]
    by_cases inside : start < n
    · have one : min n (start + (size + 1)) - start =
          (min n (start + 1 + size) - (start + 1)) + 1 := by
        omega
      rw [if_pos (by simpa using inside), one, List.range'_succ]
    · have none : min n (start + 1 + size) - (start + 1) = 0 := by omega
      have none' : min n (start + (size + 1)) - start = 0 := by omega
      rw [if_neg (by simpa using inside), none, none']
      rfl

lemma le_cdiv_mul {size : ℕ} (pos : 0 < size) (n : ℕ) : n ≤ cdiv n size * size := by
  have := Nat.div_add_mod (n + size - 1) size
  have := Nat.mod_lt (n + size - 1) pos
  unfold cdiv
  rw [Nat.mul_comm]
  omega

lemma cells_flatten {size : ℕ} (pos : 0 < size) (n : ℕ) :
    (List.range (cdiv n size)).flatMap (cells size n) = List.range n := by
  rw [funext (cells_eq size n), chunks_prefix, Nat.min_eq_left (le_cdiv_mul pos n)]

lemma sum_tail {M : Type*} [AddCommMonoid M] {size : ℕ} (pos : 0 < size) (n : ℕ) (f : ℕ → M) :
    ∑ p ∈ Finset.range (cdiv n size), ∑ t ∈ Finset.range size,
      (if t < n - p * size then f (p * size + t) else 0) = ∑ i ∈ Finset.range n, f i := by
  calc _ = ∑ p ∈ Finset.range (cdiv n size), ∑ t ∈ Finset.range size,
          (if p * size + t < n then f (p * size + t) else 0) := by
        refine Finset.sum_congr rfl fun p _ => Finset.sum_congr rfl fun t _ => ?_
        have inside : t < n - p * size ↔ p * size + t < n := by omega
        simp only [inside]
    _ = ∑ i ∈ Finset.range (cdiv n size * size), (if i < n then f i else 0) :=
        sum_parts (fun i => if i < n then f i else 0) (cdiv n size) size
    _ = ∑ i ∈ Finset.range n, (if i < n then f i else 0) := by
        refine (Finset.sum_subset ?_ ?_).symm
        · exact Finset.range_subset_range.mpr (le_cdiv_mul pos n)
        · intro i _ out
          exact if_neg (by simpa using out)
    _ = _ := Finset.sum_congr rfl fun i lt => if_pos (Finset.mem_range.mp lt)

lemma flatMap_comm_perm {α β γ : Type*} (l : List α) (m : List β) (h : α → β → List γ) :
    (l.flatMap fun a => m.flatMap (h a)).Perm (m.flatMap fun b => l.flatMap fun a => h a b) := by
  have swap := Multiset.bind_bind (l : Multiset α) (m : Multiset β)
    (f := fun a b => (h a b : Multiset γ))
  simp only [Multiset.coe_bind] at swap
  exact Multiset.coe_eq_coe.mp swap

lemma flatMap_product_perm {α β γ δ : Type*} (l : List α) (m : List β) (f : α → List γ)
    (g : β → List δ) :
    ((l ×ˢ m).flatMap fun p => f p.1 ×ˢ g p.2).Perm (l.flatMap f ×ˢ m.flatMap g) := by
  simp only [SProd.sprod, List.product, List.flatMap_assoc, List.flatMap_map, List.map_flatMap]
  apply List.Perm.flatMap_left
  intro a _
  exact flatMap_comm_perm m (f a) fun b i => (g b).map (Prod.mk i)

lemma cells_tiles {sizeM sizeN : ℕ} (posM : 0 < sizeM) (posN : 0 < sizeN) (m n : ℕ) :
    ((List.range (cdiv m sizeM) ×ˢ List.range (cdiv n sizeN)).flatMap
      fun p => cells sizeM m p.1 ×ˢ cells sizeN n p.2).Perm (List.range m ×ˢ List.range n) := by
  have perm := flatMap_product_perm (List.range (cdiv m sizeM)) (List.range (cdiv n sizeN))
    (cells sizeM m) (cells sizeN n)
  rwa [cells_flatten posM, cells_flatten posN] at perm

lemma product_map {α β γ δ : Type*} (l : List α) (m : List β) (f : α → γ) (g : β → δ) :
    (l ×ˢ m).map (fun p => (f p.1, g p.2)) = l.map f ×ˢ m.map g := by
  induction l with
  | nil => rfl
  | cons a l ih =>
    rw [List.product_cons, List.map_append, ih, List.map_cons, List.product_cons, List.map_map,
      List.map_map]
    rfl

lemma product_filter {α β : Type*} (l : List α) (m : List β) (f : α → Bool) (g : β → Bool) :
    ((l ×ˢ m).filter fun p => f p.1 && g p.2) = l.filter f ×ˢ m.filter g := by
  induction l with
  | nil => rfl
  | cons a l ih =>
    rw [List.product_cons, List.filter_append, ih, List.filter_map, List.filter_cons]
    by_cases inside : f a
    · simp [inside, Function.comp_def, List.product_cons]
    · simp [inside, Function.comp_def]

lemma product_filterMap {α β γ δ : Type*} (l : List α) (m : List β) (keep : α → Option γ)
    (f : α × β → δ) (value : γ × β → δ) (q : δ → Bool)
    (kept : ∀ a b c, keep a = some c → f (a, b) = value (c, b) ∧ q (f (a, b)) = true)
    (dropped : ∀ a b, keep a = none → q (f (a, b)) = false) :
    ((l ×ˢ m).map f).filter q = (l.filterMap keep ×ˢ m).map value := by
  induction l with
  | nil => rfl
  | cons a l ih =>
    rw [List.product_cons, List.map_append, List.filter_append, ih, List.filterMap_cons,
      List.map_map]
    cases made : keep a with
    | none =>
      have nothing : (m.map (f ∘ Prod.mk a)).filter q = [] := by
        refine List.filter_eq_nil_iff.mpr fun d member => ?_
        obtain ⟨b, -, rfl⟩ := List.mem_map.mp member
        exact Bool.eq_false_iff.mp (dropped a b made)
      rw [nothing, List.nil_append]
    | some c =>
      have all : (m.map (f ∘ Prod.mk a)).filter q = m.map (value ∘ Prod.mk c) := by
        have same : f ∘ Prod.mk a = value ∘ Prod.mk c := funext fun b => (kept a b c made).1
        rw [same, List.filter_eq_self]
        intro d member
        obtain ⟨b, -, rfl⟩ := List.mem_map.mp member
        have held := (kept a b c made).2
        rwa [(kept a b c made).1] at held
      dsimp only
      rw [all, List.product_cons, List.map_append, List.map_map]

lemma lanes_eq (sizeM sizeN m n pm pn : ℕ) :
    ((List.range sizeM ×ˢ List.range sizeN).filter fun p =>
      decide (pm * sizeM + p.1 < m) && decide (pn * sizeN + p.2 < n)).map
        (fun p => (pm * sizeM + p.1, pn * sizeN + p.2)) = cells sizeM m pm ×ˢ cells sizeN n pn := by
  unfold cells
  rw [List.filter_map, List.filter_map, ← product_map, ← product_filter]
  rfl

lemma stores_of {κ M : Type*} [DecidableEq κ] {stores : List (κ × M)} {f : κ → M}
    (right : ∀ s ∈ stores, s.2 = f s.1) {p : κ} (stored : p ∈ stores.map Prod.fst) (m : κ → M) :
    loop stores (fun s m => Function.update m s.1 s.2) m p = f p := by
  obtain ⟨s, here, rfl⟩ := List.mem_map.mp stored
  rw [← right s here]
  refine loop_store (fun s : κ × M => s.1) (fun s => s.2) ?_ here m
  intro t there same
  exact Prod.ext same ((right t there).trans ((congrArg f same).trans (right s here).symm))

lemma stores_eq {κ M : Type*} [DecidableEq κ] {stores : List (κ × M)} {entries : List κ} {f : κ → M}
    (perm : stores.Perm (entries.map fun p => (p, f p))) {p : κ} (member : p ∈ entries) (m : κ → M) :
    loop stores (fun s m => Function.update m s.1 s.2) m p = f p := by
  refine stores_of (fun s here => ?_) ?_ m
  · obtain ⟨q, -, rfl⟩ := List.mem_map.mp (perm.mem_iff.mp here)
    rfl
  · rw [(perm.map Prod.fst).mem_iff, List.map_map]
    exact List.mem_map.mpr ⟨p, member, rfl⟩

section GridWrites

variable {ρ κ M : Type*} [DecidableEq κ] (rows : List ρ) {cols : ℕ}

lemma loop_grid_store (place : ρ → κ) (value : ρ → ℕ → M) {stores : List ((κ × ℕ) × M)}
    (perm : stores.Perm
      ((rows ×ˢ List.range cols).map fun q => ((place q.1, q.2), value q.1 q.2)))
    (apart : ∀ p ∈ rows, ∀ q ∈ rows, place p = place q → p = q) {p : ρ} (there : p ∈ rows)
    {col : ℕ} (inside : col < cols) (m : κ × ℕ → M) :
    loop stores (fun s m => Function.update m s.1 s.2) m (place p, col) = value p col := by
  have member : ((place p, col), value p col) ∈ stores := perm.mem_iff.mpr (List.mem_map.mpr
    ⟨(p, col), List.pair_mem_product.mpr ⟨there, List.mem_range.mpr inside⟩, rfl⟩)
  refine loop_store (fun s : (κ × ℕ) × M => s.1) (fun s => s.2) (fun s here same => ?_) member m
  obtain ⟨⟨q, c⟩, among, rfl⟩ := List.mem_map.mp (perm.mem_iff.mp here)
  obtain ⟨rows, cols⟩ := Prod.mk.inj same
  have other := apart q (List.pair_mem_product.mp among).1 p there rows
  rw [other, show c = col from cols]

lemma loop_grid_add [AddCommMonoid M] (target : ρ → κ) (value : ρ → ℕ → M)
    {adds : List ((κ × ℕ) × M)}
    (perm : adds.Perm
      ((rows ×ˢ List.range cols).map fun q => ((target q.1, q.2), value q.1 q.2)))
    (m : κ × ℕ → M) (t : κ) {col : ℕ} (inside : col < cols) :
    loop adds (fun s m => Function.update m s.1 (m s.1 + s.2)) m (t, col) =
      m (t, col) + (rows.map fun p => if target p = t then value p col else 0).sum := by
  rw [loop_scatter _ (fun s : (κ × ℕ) × M => s.1) (fun s => s.2), (perm.map _).sum_eq, List.map_map]
  refine congrArg (m (t, col) + ·) ?_
  let add (p : ρ) (c : ℕ) : M := if (target p, c) = (t, col) then value p c else 0
  -- of a row only the column counts
  have column (p : ρ) : ((List.range cols).map (add p)).sum =
      if target p = t then value p col else 0 := by
    refine Eq.trans (congrArg List.sum (List.map_congr_left fun c _ => ?_))
      (sum_range_pick inside fun c => if target p = t then value p c else 0)
    dsimp only [add]
    by_cases token : target p = t
    · simp only [token, Prod.mk.injEq, true_and, if_true]
    · simp only [token, Prod.mk.injEq, false_and, if_false, ite_self]
  rw [← List.map_congr_left fun p _ => column p]
  have flat := sum_flatMap rows (fun p => (List.range cols).map (Prod.mk p)) fun q => add q.1 q.2
  simp only [List.map_map] at flat
  exact flat

end GridWrites

section Swizzle

/-- The tile of a program: groups of `group` rows of tiles, in each the columns one after the
other. -/
def tile (group numM numN pid : ℕ) : ℕ × ℕ :=
  let inGroup := group * numN
  let first := pid / inGroup * group
  let rows := min (numM - first) group
  (first + pid % rows, pid % inGroup / rows)

variable {group numM numN : ℕ}

lemma tile_spec (posG : 0 < group) (posN : 0 < numN) {pid : ℕ} (lt : pid < numM * numN) :
    ∃ g rows r, tile group numM numN pid = (g * group + pid % rows, r / rows) ∧
      pid = g * (group * numN) + r ∧ g = pid / (group * numN) ∧
      rows = min (numM - g * group) group ∧ 0 < rows ∧ r < rows * numN := by
  have posIn : 0 < group * numN := Nat.mul_pos posG posN
  have split := Nat.div_add_mod pid (group * numN)
  have rest := Nat.mod_lt pid posIn
  have below : pid / (group * numN) * group < numM := by
    by_contra above
    have reach : numM * numN ≤ pid / (group * numN) * group * numN :=
      Nat.mul_le_mul_right numN (by omega)
    have same : pid / (group * numN) * group * numN = group * numN * (pid / (group * numN)) := by
      ring
    omega
  refine ⟨pid / (group * numN), min (numM - pid / (group * numN) * group) group,
    pid % (group * numN), rfl, ?_, rfl, rfl, by omega, ?_⟩
  · rw [Nat.mul_comm]
    exact split.symm
  · rcases Nat.le_total (numM - pid / (group * numN) * group) group with short | full
    · rw [Nat.min_eq_left short, Nat.sub_mul]
      have same : pid / (group * numN) * group * numN = group * numN * (pid / (group * numN)) := by
        ring
      omega
    · rw [Nat.min_eq_right full]
      exact rest

lemma tile_mapsTo (posG : 0 < group) (posN : 0 < numN) {pid : ℕ} (lt : pid < numM * numN) :
    (tile group numM numN pid).1 < numM ∧ (tile group numM numN pid).2 < numN := by
  obtain ⟨g, rows, r, htile, -, -, hrows, pos, hr⟩ := tile_spec posG posN lt
  have row := Nat.mod_lt pid pos
  rw [htile]
  refine ⟨?_, ?_⟩
  · change g * group + pid % rows < numM
    omega
  · exact Nat.div_lt_of_lt_mul hr

lemma tile_injOn (posG : 0 < group) (posN : 0 < numN) {pid pid' : ℕ} (lt : pid < numM * numN)
    (lt' : pid' < numM * numN) (same : tile group numM numN pid = tile group numM numN pid') :
    pid = pid' := by
  obtain ⟨g, rows, r, htile, hpid, -, hrows, pos, hr⟩ := tile_spec posG posN lt
  obtain ⟨g', rows', r', htile', hpid', -, hrows', pos', hr'⟩ := tile_spec posG posN lt'
  rw [htile, htile', Prod.mk.injEq] at same
  obtain ⟨row, col⟩ := same
  have lower := Nat.mod_lt pid pos
  have lower' := Nat.mod_lt pid' pos'
  have first : (g * group + pid % rows) / group = g := by
    rw [Nat.mul_comm, Nat.mul_add_div posG, Nat.div_eq_of_lt (by omega), Nat.add_zero]
  have first' : (g' * group + pid' % rows') / group = g' := by
    rw [Nat.mul_comm, Nat.mul_add_div posG, Nat.div_eq_of_lt (by omega), Nat.add_zero]
  have groups : g = g' := by rw [← first, row, first']
  subst groups
  obtain rfl : rows = rows' := by rw [hrows, hrows']
  have remainder : r ≡ r' [MOD rows] := by
    have here : g * (group * numN) + r ≡ g * (group * numN) + r' [MOD rows] := by
      rw [← hpid, ← hpid']
      unfold Nat.ModEq
      omega
    exact Nat.ModEq.add_left_cancel' _ here
  have place : r = r' := by
    rw [← Nat.div_add_mod r rows, ← Nat.div_add_mod r' rows, col, remainder]
  rw [hpid, hpid', place]

/-- The order is one of all tiles. -/
theorem tile_bijOn (posG : 0 < group) (posN : 0 < numN) :
    Set.BijOn (tile group numM numN) (Set.Iio (numM * numN)) (Set.Iio numM ×ˢ Set.Iio numN) := by
  have inj : Set.InjOn (tile group numM numN) (Finset.range (numM * numN) : Set ℕ) := by
    intro pid lt pid' lt' same
    exact tile_injOn posG posN (by simpa using lt) (by simpa using lt') same
  have maps : ∀ pid ∈ Finset.range (numM * numN),
      tile group numM numN pid ∈ Finset.range numM ×ˢ Finset.range numN := by
    intro pid lt
    have here := tile_mapsTo posG posN (Finset.mem_range.mp lt)
    simpa using here
  have surj := Finset.surjOn_of_injOn_of_card_le _ maps inj (by simp)
  simp only [Finset.coe_range, Finset.coe_product] at inj surj
  refine ⟨fun pid lt => ?_, inj, surj⟩
  exact tile_mapsTo posG posN lt

lemma cells_swizzled (posG : 0 < group) {sizeM sizeN m n : ℕ} (posM : 0 < sizeM)
    (posN : 0 < sizeN) (cols : 0 < n) :
    ((List.range (cdiv m sizeM * cdiv n sizeN)).flatMap fun pid =>
      cells sizeM m (tile group (cdiv m sizeM) (cdiv n sizeN) pid).1 ×ˢ
        cells sizeN n (tile group (cdiv m sizeM) (cdiv n sizeN) pid).2).Perm
      (List.range m ×ˢ List.range n) := by
  have posCols : 0 < cdiv n sizeN := Nat.div_pos (by omega) posN
  have bij : Set.BijOn (tile group (cdiv m sizeM) (cdiv n sizeN))
      (Set.Iio (cdiv m sizeM * cdiv n sizeN)) (Set.Iio (cdiv m sizeM) ×ˢ Set.Iio (cdiv n sizeN)) :=
    tile_bijOn posG posCols
  have order : ((List.range (cdiv m sizeM * cdiv n sizeN)).map
      (tile group (cdiv m sizeM) (cdiv n sizeN))).Perm
        (List.range (cdiv m sizeM) ×ˢ List.range (cdiv n sizeN)) := by
    rw [List.perm_ext_iff_of_nodup]
    · rintro ⟨a, b⟩
      rw [List.mem_map]
      constructor
      · rintro ⟨pid, lt, same⟩
        have here := bij.mapsTo (show pid ∈ Set.Iio _ from List.mem_range.mp lt)
        rw [same] at here
        exact List.pair_mem_product.mpr ⟨List.mem_range.mpr here.1, List.mem_range.mpr here.2⟩
      · intro inside
        obtain ⟨row, col⟩ := List.pair_mem_product.mp inside
        obtain ⟨pid, lt, same⟩ := bij.surjOn (show (a, b) ∈ Set.Iio _ ×ˢ Set.Iio _ from
          ⟨List.mem_range.mp row, List.mem_range.mp col⟩)
        exact ⟨pid, List.mem_range.mpr lt, same⟩
    · apply List.Nodup.map_on _ List.nodup_range
      intro pid lt pid' lt' same
      exact bij.injOn (List.mem_range.mp lt) (List.mem_range.mp lt') same
    · exact List.nodup_range.product List.nodup_range
  have tiles := order.flatMap_right fun p => cells sizeM m p.1 ×ˢ cells sizeN n p.2
  rw [List.flatMap_map] at tiles
  exact tiles.trans (cells_tiles posM posN m n)

end Swizzle

end PocketMoE.Lib
