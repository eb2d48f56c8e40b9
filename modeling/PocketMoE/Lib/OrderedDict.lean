import Mathlib.Algebra.GroupWithZero.Nat
import Mathlib.Data.List.Nodup
import Mathlib.Data.List.Perm.Subperm
import Mathlib.Tactic.Lemma
import PocketMoE.Lib.Except

/-!
# Dictionaries that keep an order

Entries stand in a list, the oldest first, with one entry for a key. `insert` replaces an entry in its
place or adds a new one at the end, `moveToEnd` makes an entry the newest, and `dropOldest` forgets
the first ones.

`Alike` relates dictionaries with the same entries in any order. A lookup cannot tell them apart
(`Alike.get`), `moveToEnd` and `insert` keep them alike, and `dropOldest` does so exactly when it
forgets the same entries of both (`Alike.dropOldest_iff`).
-/

namespace PocketMoE.Lib

/-- Entries in their order, one for a key. -/
structure OrderedDict (K V : Type*) where
  entries : List (K × V)
  nodup : (entries.map Prod.fst).Nodup

namespace OrderedDict

variable {K V : Type*} [DecidableEq K]

/-- No entries. -/
def empty : OrderedDict K V := ⟨[], List.nodup_nil⟩

/-- The value of a key. -/
def get (d : OrderedDict K V) (key : K) : Option V :=
  (d.entries.find? fun e => e.1 = key).map Prod.snd

/-- Make the entry of a key the newest. -/
def moveToEnd (d : OrderedDict K V) (key : K) : OrderedDict K V where
  entries := d.entries.filter (·.1 ≠ key) ++ d.entries.filter (·.1 = key)
  nodup := by
    have perm : (d.entries.filter (·.1 ≠ key) ++ d.entries.filter (·.1 = key)).Perm d.entries := by
      have split := List.filter_append_perm (fun e : K × V => decide (e.1 ≠ key)) d.entries
      simpa using split
    exact ((perm.map Prod.fst).nodup_iff).mpr d.nodup

/-- Replace the value of a key, or add an entry as the newest. -/
def insert (d : OrderedDict K V) (key : K) (value : V) : OrderedDict K V where
  entries :=
    if key ∈ d.entries.map Prod.fst then
      d.entries.map fun e => if e.1 = key then (key, value) else e
    else d.entries ++ [(key, value)]
  nodup := by
    split_ifs with has
    · have keys : (d.entries.map fun e => if e.1 = key then (key, value) else e).map Prod.fst =
          d.entries.map Prod.fst := by
        rw [List.map_map]
        refine List.map_congr_left fun e _ => ?_
        show (if e.1 = key then (key, value) else e).1 = e.1
        split_ifs with here
        · exact here.symm
        · rfl
      rw [keys]
      exact d.nodup
    · rw [List.map_append]
      refine List.nodup_append.mpr ⟨d.nodup, List.nodup_singleton _, fun a old b last eq => has ?_⟩
      rw [← show b = key from List.mem_singleton.mp last, ← eq]
      exact old

/-- Forget the entry of a key. -/
def erase (d : OrderedDict K V) (key : K) : OrderedDict K V where
  entries := d.entries.filter (·.1 ≠ key)
  nodup := d.nodup.sublist (List.filter_sublist.map Prod.fst)

/-- The oldest entries. -/
def oldest (d : OrderedDict K V) (n : Nat) : List (K × V) := d.entries.take n

/-- Forget the oldest entries. -/
def dropOldest (d : OrderedDict K V) (n : Nat) : OrderedDict K V where
  entries := d.entries.drop n
  nodup := d.nodup.sublist ((List.drop_sublist n d.entries).map Prod.fst)

variable {d d' d'' : OrderedDict K V} {key : K} {value : V}

lemma get_eq_some : d.get key = some value ↔ (key, value) ∈ d.entries := by
  unfold get
  constructor
  · intro found
    obtain ⟨e, here, rfl⟩ := Option.map_eq_some_iff.mp found
    have same : e.1 = key := by simpa using List.find?_some here
    rw [← same]
    exact List.mem_of_find?_eq_some here
  · intro member
    cases found : d.entries.find? fun e => e.1 = key with
    | none =>
      have no := List.find?_eq_none.mp found (key, value) member
      simp at no
    | some e =>
      have same : e.1 = key := by simpa using List.find?_some found
      have eq := List.inj_on_of_nodup_map d.nodup (List.mem_of_find?_eq_some found) member same
      rw [eq]
      rfl

lemma mem_insert {e : K × V} : e ∈ (d.insert key value).entries ↔
    e = (key, value) ∨ e.1 ≠ key ∧ e ∈ d.entries := by
  unfold insert
  dsimp only
  split_ifs with has
  · rw [List.mem_map]
    constructor
    · rintro ⟨old, member, rfl⟩
      split_ifs with here
      · exact Or.inl rfl
      · exact Or.inr ⟨here, member⟩
    · rintro (rfl | ⟨other, member⟩)
      · obtain ⟨old, member, rfl⟩ := List.mem_map.mp has
        exact ⟨old, member, if_pos rfl⟩
      · exact ⟨e, member, if_neg other⟩
  · rw [List.mem_append, List.mem_singleton]
    constructor
    · rintro (old | new)
      · exact Or.inr ⟨fun same => has (same ▸ List.mem_map_of_mem old), old⟩
      · exact Or.inl new
    · rintro (new | ⟨-, old⟩)
      · exact Or.inr new
      · exact Or.inl old

/-- The same entries, in any order. -/
def Alike (d d' : OrderedDict K V) : Prop := d.entries.Perm d'.entries

omit [DecidableEq K] in
lemma Alike.refl (d : OrderedDict K V) : Alike d d := List.Perm.refl _

omit [DecidableEq K] in
lemma Alike.symm (alike : Alike d d') : Alike d' d := List.Perm.symm alike

omit [DecidableEq K] in
lemma Alike.trans (first : Alike d d') (second : Alike d' d'') : Alike d d'' :=
  List.Perm.trans first second

/-- A lookup does not see the order. -/
theorem Alike.get (alike : Alike d d') (key : K) : d.get key = d'.get key := by
  refine Option.ext fun value => ?_
  rw [get_eq_some, get_eq_some]
  exact List.Perm.mem_iff alike

lemma alike_of_get (same : ∀ key, d.get key = d'.get key) : Alike d d' := by
  refine (List.perm_ext_iff_of_nodup d.nodup.of_map d'.nodup.of_map).mpr fun e => ?_
  have iff : d.get e.1 = some e.2 ↔ (e.1, e.2) ∈ d.entries := get_eq_some
  rw [same, get_eq_some] at iff
  exact iff.symm

lemma alike_moveToEnd (d : OrderedDict K V) (key : K) : Alike (d.moveToEnd key) d := by
  have split := List.filter_append_perm (fun e : K × V => decide (e.1 ≠ key)) d.entries
  simpa [Alike, moveToEnd] using split

lemma Alike.moveToEnd (alike : Alike d d') (key : K) :
    Alike (d.moveToEnd key) (d'.moveToEnd key) :=
  ((alike_moveToEnd d key).trans alike).trans (alike_moveToEnd d' key).symm

lemma Alike.insert (alike : Alike d d') (key : K) (value : V) :
    Alike (d.insert key value) (d'.insert key value) := by
  have keys := (List.Perm.map Prod.fst alike).mem_iff (a := key)
  unfold Alike OrderedDict.insert
  by_cases has : key ∈ d.entries.map Prod.fst
  · simp only [has, keys.mp has, if_true]
    exact List.Perm.map _ alike
  · simp only [has, mt keys.mpr has, if_false]
    exact List.Perm.append_right _ alike

omit [DecidableEq K] in
/-- Dictionaries stay alike exactly when the forgotten entries are the same. -/
theorem Alike.dropOldest_iff (alike : Alike d d') (n : Nat) :
    Alike (d.dropOldest n) (d'.dropOldest n) ↔ (d.oldest n).Perm (d'.oldest n) := by
  have whole : (d.oldest n ++ (d.dropOldest n).entries).Perm
      (d'.oldest n ++ (d'.dropOldest n).entries) := by
    rw [oldest, oldest, dropOldest, dropOldest, List.take_append_drop, List.take_append_drop]
    exact alike
  constructor
  · intro rest
    exact (List.perm_append_right_iff _).mp (whole.trans (rest.symm.append_left _))
  · intro front
    exact (List.perm_append_left_iff _).mp ((front.append_right _).symm.trans whole)

lemma get_insert_self (d : OrderedDict K V) (key : K) (value : V) :
    (d.insert key value).get key = some value :=
  get_eq_some.mpr (mem_insert.mpr (Or.inl rfl))

lemma get_insert_of_ne {other : K} (ne : other ≠ key) :
    (d.insert key value).get other = d.get other := by
  refine Option.ext fun v => ?_
  rw [get_eq_some, get_eq_some, mem_insert]
  constructor
  · rintro (here | ⟨-, old⟩)
    · exact absurd (congrArg Prod.fst here) ne
    · exact old
  · exact fun old => Or.inr ⟨ne, old⟩

lemma entries_insert (new : d.get key = none) :
    (d.insert key value).entries = d.entries ++ [(key, value)] := by
  refine if_neg fun has => ?_
  obtain ⟨⟨k, v⟩, member, rfl⟩ := List.mem_map.mp has
  rw [get_eq_some.mpr member] at new
  cases new

lemma get_erase (d : OrderedDict K V) (key : K) : (d.erase key).get key = none := by
  refine Option.eq_none_iff_forall_ne_some.mpr fun v found => ?_
  have kept := (List.mem_filter.mp (get_eq_some.mp found)).2
  simp at kept

/-- The sum of a number for each value. -/
def total (f : V → Nat) (d : OrderedDict K V) : Nat := (d.entries.map fun e => f e.2).sum

lemma total_insert (f : V → Nat) (d : OrderedDict K V) (key : K) (value : V) :
    (d.insert key value).total f + (d.get key).elim 0 f = d.total f + f value := by
  unfold total insert
  dsimp only
  split_ifs with has
  · obtain ⟨⟨k, old⟩, member, same⟩ := List.mem_map.mp has
    obtain rfl : k = key := same
    have nodup := d.nodup
    rw [get_eq_some.mpr member]
    obtain ⟨front, back, split⟩ := List.append_of_mem member
    rw [split, List.map_append, List.map_cons] at nodup
    obtain ⟨-, behind, apart⟩ := List.nodup_append.mp nodup
    have others : ∀ l : List (K × V), (∀ e ∈ l, e.1 ≠ k) →
        (l.map fun e => if e.1 = k then (k, value) else e) = l := by
      intro l none
      exact (List.map_congr_left fun e mem => if_neg (none e mem)).trans (List.map_id l)
    have before := others front fun e mem same =>
      apart e.1 (List.mem_map_of_mem mem) k (List.mem_cons_self ..) same
    have after := others back fun e mem same =>
      (List.nodup_cons.mp behind).1 (List.mem_map.mpr ⟨e, mem, same⟩)
    rw [split, List.map_append, List.map_cons, before, after, if_pos rfl]
    simp only [List.map_append, List.map_cons, List.sum_append, List.sum_cons, Option.elim_some]
    omega
  · have new : d.get key = none := by
      refine Option.eq_none_iff_forall_ne_some.mpr fun v found => has ?_
      exact List.mem_map.mpr ⟨_, get_eq_some.mp found, rfl⟩
    rw [new]
    simp

/-- The dictionary with a function applied to its values. -/
def mapValues {W : Type*} (f : V → W) (d : OrderedDict K V) : OrderedDict K W where
  entries := d.entries.map fun e => (e.1, f e.2)
  nodup := by
    rw [List.map_map]
    exact d.nodup

section MapValues

variable {W : Type*} (f : V → W)

lemma get_mapValues (d : OrderedDict K V) (key : K) :
    (d.mapValues f).get key = (d.get key).map f := by
  unfold get mapValues
  rw [List.find?_map, Option.map_map, Option.map_map]
  rfl

lemma moveToEnd_mapValues (d : OrderedDict K V) (key : K) :
    (d.mapValues f).moveToEnd key = (d.moveToEnd key).mapValues f := by
  unfold moveToEnd mapValues
  simp only [List.filter_map, List.map_append]
  rfl

end MapValues

lemma get_cons_self {l : List (K × V)} (nodup : (((key, value) :: l).map Prod.fst).Nodup) :
    (⟨(key, value) :: l, nodup⟩ : OrderedDict K V).get key = some value :=
  get_eq_some.mpr (List.mem_cons_self ..)

lemma get_cons_of_ne {e : K × V} {l : List (K × V)} (nodup : ((e :: l).map Prod.fst).Nodup)
    (ne : key ≠ e.1) :
    (⟨e :: l, nodup⟩ : OrderedDict K V).get key = (⟨l, nodup.of_cons⟩ : OrderedDict K V).get key := by
  unfold get
  rw [List.find?_cons_of_neg (by simpa using ne.symm)]

section Pass

variable {S X ε : Type} {view : S → K → X} {change : V → X → X}
  {step : S → K × V → Except ε S}

variable (view change step) in
/-- A pass over the entries, of which each changes what stands under its own key. -/
theorem foldlM_view
    (self : ∀ {s e t}, step s e = .ok t → view t e.1 = change e.2 (view s e.1))
    (other : ∀ {s e t key}, step s e = .ok t → key ≠ e.1 → view t key = view s key)
    (d : OrderedDict K V) {s t : S} (run : d.entries.foldlM step s = .ok t) (key : K) :
    view t key = ((d.get key).elim id change) (view s key) := by
  obtain ⟨entries, nodup⟩ := d
  induction entries generalizing s with
  | nil =>
    rw [List.foldlM_nil, pure_ok] at run
    rw [run]
    rfl
  | cons e l ih =>
    rw [List.foldlM_cons, bind_ok] at run
    obtain ⟨m, first, rest⟩ := run
    have after := ih nodup.of_cons rest
    rcases eq_or_ne key e.1 with rfl | ne
    · -- the key does not occur again
      have gone : (⟨l, nodup.of_cons⟩ : OrderedDict K V).get e.1 = none := by
        refine Option.eq_none_iff_forall_ne_some.mpr fun v found => ?_
        exact (List.nodup_cons.mp nodup).1 (List.mem_map.mpr ⟨_, get_eq_some.mp found, rfl⟩)
      rw [gone] at after
      rw [after, get_cons_self nodup]
      exact self first
    · rw [after, other first ne, get_cons_of_ne nodup ne]

end Pass

end OrderedDict

end PocketMoE.Lib
