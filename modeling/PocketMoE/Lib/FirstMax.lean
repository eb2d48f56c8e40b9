import Mathlib.Data.List.Induction
import Mathlib.Data.Prod.Lex
import PocketMoE.Lib.BlockReduce
import PocketMoE.Lib.TopK

/-!
# The first of the largest entries

`FirstMaxAt row i a` says that entry `i` of a row is `a`, that no entry is above it and that every
earlier one is below it. A scan that replaces its candidate by a larger one only finds it
(`strictScan_firstMaxAt`), and so does a block of threads that prefers the lower index on a tie
(`blockBest_eq`). If a row is cut into slices of one length, the first slice with the largest
maximum has it (`firstMaxAt_of_slices`).
-/

namespace PocketMoE.Lib

variable {α β : Type*} [LinearOrder α] [LinearOrder β]

/-- Entry `i` is the first of the largest entries of a row. -/
structure FirstMaxAt (row : List α) (i : Nat) (a : α) : Prop where
  here : row[i]? = some a
  le : ∀ (j : Nat) b, row[j]? = some b → b ≤ a
  first : ∀ (j : Nat) b, j < i → row[j]? = some b → b < a

/-- A function that finds it. -/
structure ArgMax (α : Type*) [LinearOrder α] where
  index : List α → Nat
  spec : ∀ row, row ≠ [] → ∃ a, FirstMaxAt row (index row) a

namespace FirstMaxAt

lemma inside {row : List α} {i : Nat} {a : α} (max : FirstMaxAt row i a) : i < row.length :=
  (List.getElem?_eq_some_iff.mp max.here).1

lemma unique {row : List α} {i j : Nat} {a b : α} (max : FirstMaxAt row i a)
    (max' : FirstMaxAt row j b) : i = j ∧ a = b := by
  have value : a = b := le_antisymm (max'.le i a max.here) (max.le j b max'.here)
  subst value
  refine ⟨?_, rfl⟩
  rcases lt_trichotomy i j with before | same | after
  · exact absurd (max'.first i a before max.here) (lt_irrefl a)
  · exact same
  · exact absurd (max.first j a after max'.here) (lt_irrefl a)

lemma map {row : List α} {i : Nat} {a : α} {f : α → β} (mono : StrictMono f)
    (max : FirstMaxAt row i a) : FirstMaxAt (row.map f) i (f a) where
  here := by rw [List.getElem?_map, max.here, Option.map_some]
  le := by
    intro j b there
    rw [List.getElem?_map, Option.map_eq_some_iff] at there
    obtain ⟨c, there, rfl⟩ := there
    exact mono.monotone (max.le j c there)
  first := by
    intro j b before there
    rw [List.getElem?_map, Option.map_eq_some_iff] at there
    obtain ⟨c, there, rfl⟩ := there
    exact mono (max.first j c before there)

lemma append_left {xs ys : List α} {i : Nat} {a : α} (max : FirstMaxAt xs i a)
    (behind : ∀ b ∈ ys, b ≤ a) : FirstMaxAt (xs ++ ys) i a where
  here := by rw [List.getElem?_append_left max.inside, max.here]
  le := by
    intro j b there
    rcases List.mem_append.mp (List.mem_of_getElem? there) with left | right
    · obtain ⟨k, there'⟩ := List.getElem?_of_mem left
      exact max.le k b there'
    · exact behind b right
  first := by
    intro j b before there
    rw [List.getElem?_append_left (before.trans max.inside)] at there
    exact max.first j b before there

lemma append_right {xs ys : List α} {i : Nat} {a : α} (max : FirstMaxAt ys i a)
    (before : ∀ b ∈ xs, b < a) : FirstMaxAt (xs ++ ys) (xs.length + i) a where
  here := by
    rw [List.getElem?_append_right (Nat.le_add_right _ i), Nat.add_sub_cancel_left, max.here]
  le := by
    intro j b there
    rcases List.mem_append.mp (List.mem_of_getElem? there) with left | right
    · exact (before b left).le
    · obtain ⟨k, there'⟩ := List.getElem?_of_mem right
      exact max.le k b there'
  first := by
    intro j b lt there
    rcases lt_or_ge j xs.length with low | high
    · rw [List.getElem?_append_left low] at there
      exact before b (List.mem_of_getElem? there)
    · rw [List.getElem?_append_right high] at there
      exact max.first _ b (by omega) there

lemma append {row : List α} {i : Nat} {a c : α} (max : FirstMaxAt row i a) :
    FirstMaxAt (row ++ [c]) (if a < c then row.length else i) (if a < c then c else a) := by
  split_ifs with above
  · have last : FirstMaxAt [c] 0 c := by
      refine ⟨rfl, fun j b there => ?_, fun j b before => absurd before (Nat.not_lt_zero j)⟩
      exact (List.mem_singleton.mp (List.mem_of_getElem? there)).le
    refine last.append_right fun b member => ?_
    obtain ⟨j, there⟩ := List.getElem?_of_mem member
    exact (max.le j b there).trans_lt above
  · refine max.append_left fun b member => ?_
    rw [List.mem_singleton.mp member]
    exact not_lt.mp above

end FirstMaxAt

/-! ## A scan -/

/-- Go over candidates and take one only if it is above the best so far. -/
def strictScan (init : α × Nat) (candidates : List (α × Nat)) : α × Nat :=
  candidates.foldl (fun best c => if best.1 < c.1 then c else best) init

lemma strictScan_firstMaxAt (init : α × Nat) (candidates : List (α × Nat)) :
    ∃ k, FirstMaxAt ((init :: candidates).map Prod.fst) k (strictScan init candidates).1 ∧
      (init :: candidates)[k]? = some (strictScan init candidates) := by
  induction candidates using List.reverseRecOn with
  | nil =>
    refine ⟨0, ⟨rfl, fun j b there => ?_, fun j b before => absurd before (Nat.not_lt_zero j)⟩, rfl⟩
    cases j with
    | zero => exact (Option.some.inj there).ge
    | succ j => cases there
  | append_singleton candidates c ih =>
    obtain ⟨k, max, here⟩ := ih
    have next : strictScan init (candidates ++ [c]) =
        if (strictScan init candidates).1 < c.1 then c else strictScan init candidates := by
      rw [strictScan, List.foldl_append]
      rfl
    have more := max.append (c := c.1)
    rw [List.length_map] at more
    rw [next, ← List.cons_append, List.map_append]
    split_ifs at more ⊢ with above
    · exact ⟨_, more, by simp⟩
    · refine ⟨k, more, ?_⟩
      rw [List.getElem?_append_left (List.getElem?_eq_some_iff.mp here).1, here]

lemma strictScan_bot [OrderBot α] {candidates : List (α × Nat)} {k start : Nat} {a : α}
    {c : α × Nat} (max : FirstMaxAt (candidates.map Prod.fst) k a) (some_ : a ≠ ⊥)
    (here : candidates[k]? = some c) : strictScan (⊥, start) candidates = c := by
  obtain ⟨k', max', here'⟩ := strictScan_firstMaxAt (⊥, start) candidates
  have shifted : FirstMaxAt (((⊥, start) :: candidates).map Prod.fst) (k + 1) a := by
    refine ⟨max.here, fun j b there => ?_, fun j b before there => ?_⟩
    · cases j with
      | zero => exact (Option.some.inj there) ▸ bot_le
      | succ j => exact max.le j b there
    · cases j with
      | zero => exact (Option.some.inj there) ▸ bot_lt_iff_ne_bot.mpr some_
      | succ j => exact max.first j b (Nat.lt_of_succ_lt_succ before) there
  obtain ⟨rfl, -⟩ := max'.unique shifted
  exact Option.some.inj (here'.symm.trans here)

lemma strictScan_zipIdx (a : α) (rest : List α) :
    FirstMaxAt (a :: rest) (strictScan (a, 0) (rest.zipIdx 1)).2
      (strictScan (a, 0) (rest.zipIdx 1)).1 := by
  obtain ⟨k, max, here⟩ := strictScan_firstMaxAt (a, 0) (rest.zipIdx 1)
  have whole : (a, 0) :: rest.zipIdx 1 = (a :: rest).zipIdx := rfl
  rw [whole, List.zipIdx_map_fst] at max
  rw [whole, List.getElem?_zipIdx, Option.map_eq_some_iff] at here
  obtain ⟨b, -, eq⟩ := here
  have index : k = (strictScan (a, 0) (rest.zipIdx 1)).2 := by
    rw [← eq, Nat.zero_add]
  exact index ▸ max

lemma strictScan_bot_zipIdx [OrderBot α] {row : List α} {i : Nat} {a : α}
    (max : FirstMaxAt row i a) (some_ : a ≠ ⊥) (start : Nat) :
    strictScan (⊥, start) (row.zipIdx start) = (a, start + i) := by
  refine strictScan_bot ((List.zipIdx_map_fst start row).symm ▸ max) some_ ?_
  rw [List.getElem?_zipIdx, max.here]
  rfl

/-- The first of the largest entries, by a scan. -/
def ArgMax.scan (α : Type*) [LinearOrder α] : ArgMax α where
  index := fun row => match row with
    | [] => 0
    | a :: rest => (strictScan (a, 0) (rest.zipIdx 1)).2
  spec := fun row nonempty => match row, nonempty with
    | a :: rest, _ => ⟨_, strictScan_zipIdx a rest⟩

/-! ## A block of threads -/

/-- A candidate with the order in which it is preferred: a larger value, then a lower index. -/
def preference (c : WithBot α × Nat) : WithBot α ×ₗ Natᵒᵈ := toLex (c.1, OrderDual.toDual c.2)

omit [LinearOrder α] in
lemma preference_injective : Function.Injective (preference (α := α)) := by
  rintro ⟨v, i⟩ ⟨w, j⟩ same
  obtain ⟨value, index⟩ := Prod.mk.inj (toLex.injective same)
  exact Prod.ext value (OrderDual.toDual.injective index)

lemma preference_le_iff {c d : WithBot α × Nat} :
    preference c ≤ preference d ↔ c.1 < d.1 ∨ c.1 = d.1 ∧ d.2 ≤ c.2 :=
  Prod.Lex.toLex_le_toLex

lemma preference_better (mine other : WithBot α × Nat) :
    preference (better other mine) = preference mine ⊔ preference other := by
  rw [better]
  split_ifs with taken
  · refine (sup_eq_right.mpr (preference_le_iff.mpr ?_)).symm
    rcases taken with lt | ⟨same, index⟩
    · exact .inl lt
    · exact .inr ⟨same.symm, index.le⟩
  · refine (sup_eq_left.mpr (preference_le_iff.mpr ?_)).symm
    rcases lt_trichotomy other.1 mine.1 with lt | same | gt
    · exact .inl lt
    · exact .inr ⟨same, not_lt.mp fun index => taken (.inr ⟨same, index⟩)⟩
    · exact absurd (.inl gt) taken

/-- What a block of threads finds among the places with `q`: the larger value, on a tie the lower
place. -/
def blockBest (threads count : Nat) (q : Nat → Bool) (start : Nat) (value : Nat → WithBot α) :
    WithBot α × Nat :=
  blockReduce (fun mine other => better other mine) threads count q (⊥, start)
    fun i => (value i, i)

lemma blockBest_eq (p : Nat) {count i : Nat} {q : Nat → Bool} (start : Nat)
    {value : Nat → WithBot α} (inside : i < count) (here : q i) (some_ : value i ≠ ⊥)
    (best : ∀ j < count, q j → value j < value i ∨ value j = value i ∧ i ≤ j) :
    blockBest (2 ^ p) count q start value = (value i, i) := by
  refine preference_injective (blockReduce_eq preference_better inside here ?_ ?_)
  · exact preference_le_iff.mpr (.inl (bot_lt_iff_ne_bot.mpr some_))
  · exact fun j inside' here' => preference_le_iff.mpr (best j inside' here')

lemma blockBest_firstMaxAt (p start : Nat) {row : List (WithBot α)} {i : Nat} {a : WithBot α}
    (max : FirstMaxAt row i a) (some_ : a ≠ ⊥) :
    blockBest (2 ^ p) row.length (fun _ => true) start (fun j => row.getD j ⊥) = (a, i) := by
  have value {j : Nat} {b : WithBot α} (there : row[j]? = some b) : row.getD j ⊥ = b := by
    rw [List.getD_eq_getElem?_getD, there, Option.getD_some]
  have found : blockBest (2 ^ p) row.length (fun _ => true) start (fun j => row.getD j ⊥) =
      (row.getD i ⊥, i) := by
    refine blockBest_eq p start max.inside rfl (by rwa [value max.here]) fun j inside _ => ?_
    have there := List.getElem?_eq_getElem inside
    rw [value there, value max.here]
    rcases (max.le j _ there).lt_or_eq with lt | same
    · exact .inl lt
    · exact .inr ⟨same, not_lt.mp fun before => (max.first j _ before there).ne same⟩
  rw [found, value max.here]

/-! ## Slices -/

/-- Slice `r` of a row cut into pieces of length `n`. -/
def sliceOf (n r : Nat) (row : List α) : List α := (row.drop (r * n)).take n

lemma firstMaxAt_of_slices {row values : List α} {world n k : Nat} {a : α} {index : Nat → Nat}
    (length : row.length = world * n) (count : values.length = world)
    (slices : ∀ r b, values[r]? = some b → FirstMaxAt (sliceOf n r row) (index r) b)
    (max : FirstMaxAt values k a) : FirstMaxAt row (k * n + index k) a := by
  have entry (r i : Nat) (lt : i < n) : (sliceOf n r row)[i]? = row[r * n + i]? := by
    rw [sliceOf, List.getElem?_take_of_lt lt, List.getElem?_drop]
  -- entry `j` is in slice `j / n`
  have place {j : Nat} {b : α} (there : row[j]? = some b) :
      ∃ m, values[j / n]? = some m ∧ (sliceOf n (j / n) row)[j % n]? = some b := by
    have inside := (List.getElem?_eq_some_iff.mp there).1
    have pos : 0 < n := Nat.pos_of_ne_zero fun zero => by
      rw [length, zero, Nat.mul_zero] at inside
      exact Nat.not_lt_zero _ inside
    have rank : j / n < values.length := by
      rw [count]
      exact Nat.div_lt_of_lt_mul (by rwa [length, Nat.mul_comm] at inside)
    refine ⟨_, List.getElem?_eq_getElem rank, ?_⟩
    rw [entry _ _ (Nat.mod_lt j pos), Nat.mul_comm, Nat.div_add_mod, there]
  have local_ := slices k a max.here
  have within : index k < n :=
    lt_of_lt_of_le local_.inside (by rw [sliceOf, List.length_take]; exact min_le_left _ _)
  refine ⟨?_, fun j b there => ?_, fun j b before there => ?_⟩
  · rw [← entry k (index k) within, local_.here]
  · obtain ⟨m, value, inside⟩ := place there
    exact ((slices _ m value).le _ b inside).trans (max.le _ m value)
  · obtain ⟨m, value, inside⟩ := place there
    rcases Nat.lt_trichotomy (j / n) k with earlier | same | later
    · exact ((slices _ m value).le _ b inside).trans_lt (max.first _ m earlier value)
    · subst same
      obtain rfl : m = a := Option.some.inj (value.symm.trans max.here)
      refine local_.first _ b ?_ inside
      have split := Nat.div_add_mod j n
      rw [Nat.mul_comm] at split
      omega
    · -- a later slice lies behind
      have le : (k + 1) * n ≤ j / n * n := Nat.mul_le_mul_right n later
      have := Nat.div_mul_le_self j n
      rw [Nat.add_mul, Nat.one_mul] at le
      omega

/-! ## Parts of any length -/

/-- Each part has the first of its largest entries at `top.1`, and it is `top.2`. -/
abbrev PartMaxima (parts : List (List α)) (tops : List (Nat × α)) : Prop :=
  List.Forall₂ (fun part top => FirstMaxAt part top.1 top.2) parts tops

lemma PartMaxima.bound {parts : List (List α)} {tops : List (Nat × α)}
    (each : PartMaxima parts tops) {b : α} (member : b ∈ parts.flatten) :
    ∃ top ∈ tops, b ≤ top.2 := by
  induction each with
  | nil => cases member
  | @cons part top parts tops max each ih =>
    rw [List.flatten_cons] at member
    rcases List.mem_append.mp member with here | later
    · obtain ⟨j, there⟩ := List.getElem?_of_mem here
      exact ⟨top, List.mem_cons_self, max.le j b there⟩
    · obtain ⟨top', member', le⟩ := ih later
      exact ⟨top', List.mem_cons_of_mem top member', le⟩

lemma PartMaxima.flatten {parts : List (List α)} {tops : List (Nat × α)}
    (each : PartMaxima parts tops) {k i : Nat} {a : α} (best : FirstMaxAt (tops.map Prod.snd) k a)
    (here : tops[k]? = some (i, a)) :
    FirstMaxAt parts.flatten ((parts.take k).flatten.length + i) a := by
  induction each generalizing k with
  | nil => cases here
  | @cons part top parts tops max each ih =>
    rw [List.flatten_cons]
    have entry {top' : Nat × α} (member : top' ∈ tops) :
        ∃ j, (tops.map Prod.snd)[j]? = some top'.2 :=
      List.getElem?_of_mem (List.mem_map_of_mem member)
    cases k with
    | zero =>
      obtain rfl : top = (i, a) := Option.some.inj here
      rw [List.take_zero, List.flatten_nil, List.length_nil, Nat.zero_add]
      refine max.append_left fun b member => ?_
      obtain ⟨top', member', le⟩ := PartMaxima.bound each member
      obtain ⟨j, there⟩ := entry member'
      exact le.trans (best.le (j + 1) top'.2 there)
    | succ k =>
      have rest : FirstMaxAt (tops.map Prod.snd) k a := by
        refine ⟨best.here, fun j b there => ?_, fun j b before there => ?_⟩
        · exact best.le (j + 1) b there
        · exact best.first (j + 1) b (Nat.succ_lt_succ before) there
      rw [List.take_succ_cons, List.flatten_cons, List.length_append, Nat.add_assoc]
      refine (ih rest here).append_right fun b member => ?_
      obtain ⟨j, there⟩ := List.getElem?_of_mem member
      exact (max.le j b there).trans_lt (best.first 0 top.2 k.succ_pos rfl)

end PocketMoE.Lib
