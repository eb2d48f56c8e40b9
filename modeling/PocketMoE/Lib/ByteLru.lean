import Mathlib.Algebra.Order.BigOperators.Group.List
import Mathlib.Algebra.Order.Ring.Nat
import PocketMoE.Lib.OrderedDict

/-!
# Caches with a budget in bytes

A cache keeps its entries in the order they were last used and a count of the bytes they take. Room
is made by forgetting the oldest entries, one at a time. `Accounts` says the count is right and
within the budget, `Recent` that the order is that of the ages the keys have; each operation a cache
is made of keeps both.
-/

namespace PocketMoE.Lib

/-- The entries, the oldest first, and the bytes counted for them. -/
structure ByteLru (K V : Type*) where
  capacity : ℤ
  used : ℤ
  entries : OrderedDict K V

/-- An entry that was forgotten, and the entries that stayed. -/
structure Eviction (K V : Type*) where
  victim : K × V
  others : List (K × V)

/-- What making room comes to. -/
structure Evicted (K V : Type*) where
  used : ℤ
  kept : List (K × V)
  evictions : List (Eviction K V)

namespace ByteLru

variable {K V : Type*} (size : V → ℕ)

/-- Forget the oldest entries while `need` more bytes are over the capacity. -/
def evictFrom (capacity need : ℤ) : ℤ → List (K × V) → Evicted K V
  | used, [] => ⟨used, [], []⟩
  | used, e :: rest =>
    if used + need > capacity then
      let after := evictFrom capacity need (used - size e.2) rest
      { after with evictions := ⟨e, rest⟩ :: after.evictions }
    else ⟨used, e :: rest, []⟩

lemma evictFrom_suffix (capacity need used : ℤ) (l : List (K × V)) :
    (evictFrom size capacity need used l).kept <:+ l := by
  induction l generalizing used with
  | nil => exact List.suffix_refl []
  | cons e rest ih =>
    unfold evictFrom
    split
    · exact (ih _).trans (List.suffix_cons e rest)
    · exact List.suffix_refl _

lemma evictFrom_used (capacity need used : ℤ) (l : List (K × V)) :
    (evictFrom size capacity need used l).used +
      ((l.map fun e => size e.2).sum : ℕ) =
    used + (((evictFrom size capacity need used l).kept.map fun e => size e.2).sum : ℕ) := by
  induction l generalizing used with
  | nil => rfl
  | cons e rest ih =>
    unfold evictFrom
    split
    · have step := ih (used - size e.2)
      simp only [List.map_cons, List.sum_cons, Int.natCast_add]
      omega
    · rfl

lemma evictFrom_room (capacity need used : ℤ) (l : List (K × V)) :
    (evictFrom size capacity need used l).kept = [] ∨
      (evictFrom size capacity need used l).used + need ≤ capacity := by
  induction l generalizing used with
  | nil => exact Or.inl rfl
  | cons e rest ih =>
    unfold evictFrom
    split
    · exact ih _
    · exact Or.inr (by dsimp only; omega)

lemma evictFrom_oldest {R : K × V → K × V → Prop} {l : List (K × V)} (sorted : l.Pairwise R)
    (capacity need used : ℤ) {v : Eviction K V}
    (member : v ∈ (evictFrom size capacity need used l).evictions) :
    ∀ e ∈ v.others, R v.victim e := by
  induction l generalizing used with
  | nil => cases member
  | cons e rest ih =>
    unfold evictFrom at member
    split at member
    · rcases List.mem_cons.mp member with rfl | later
      · exact (List.pairwise_cons.mp sorted).1
      · exact ih (List.pairwise_cons.mp sorted).2 _ later
    · cases member

section Operations

variable [DecidableEq K]

/-- Take an entry out. -/
def pop (c : ByteLru K V) (key : K) : ByteLru K V × Option V :=
  match c.entries.get key with
  | none => (c, none)
  | some value =>
    ({ c with used := c.used - size value, entries := c.entries.erase key }, some value)

/-- Make the entry of a key the newest. -/
def touch (c : ByteLru K V) (key : K) : ByteLru K V × Option V :=
  match c.entries.get key with
  | none => (c, none)
  | some value => ({ c with entries := (c.entries.erase key).insert key value }, some value)

omit [DecidableEq K] in
/-- Make room for `need` bytes. -/
def evict (c : ByteLru K V) (need : ℤ) : ByteLru K V × List (Eviction K V) :=
  let after := evictFrom size c.capacity need c.used c.entries.entries
  ({ c with
      used := after.used
      entries := ⟨after.kept, c.entries.nodup.sublist
        ((evictFrom_suffix size c.capacity need c.used c.entries.entries).sublist.map Prod.fst)⟩ },
    after.evictions)

/-- Add an entry as the newest. -/
def store (c : ByteLru K V) (key : K) (value : V) : ByteLru K V :=
  { c with used := c.used + size value, entries := c.entries.insert key value }

end Operations

/-- The count is that of the entries, within the budget. -/
structure Accounts (c : ByteLru K V) : Prop where
  used : c.used = (c.entries.total size : ℕ)
  budget : c.used ≤ max c.capacity 0

/-- The entries stand in the order of their keys' ages. -/
def Recent (age : K → ℕ) (c : ByteLru K V) : Prop :=
  c.entries.entries.Pairwise fun older newer => age newer.1 < age older.1

variable {size}

lemma evict_accounts {c : ByteLru K V} (h : Accounts size c) (need : ℤ) :
    Accounts size (evict size c need).1 := by
  have used := evictFrom_used size c.capacity need c.used c.entries.entries
  have total := h.used
  unfold OrderedDict.total at total
  have sum : (evict size c need).1.used = ((evict size c need).1.entries.total size : ℕ) := by
    simp only [evict, OrderedDict.total]
    omega
  refine ⟨sum, ?_⟩
  have below := (evictFrom_suffix size c.capacity need c.used c.entries.entries).sublist.map
    fun e => size e.2
  have le := below.sum_le_sum fun x _ => Nat.zero_le x
  have budget := h.budget
  simp only [evict]
  omega

lemma evict_room {c : ByteLru K V} (h : Accounts size c) {need : ℤ} (fits : need ≤ c.capacity) :
    (evict size c need).1.used + need ≤ c.capacity := by
  rcases evictFrom_room size c.capacity need c.used c.entries.entries with empty | room
  · have sum := (evict_accounts h need).used
    have zero : (evict size c need).1.used = 0 := by
      rw [sum]
      simp only [evict, OrderedDict.total, empty]
      rfl
    omega
  · exact room

lemma evict_sublist (c : ByteLru K V) (need : ℤ) :
    (evict size c need).1.entries.entries.Sublist c.entries.entries :=
  (evictFrom_suffix size c.capacity need c.used c.entries.entries).sublist

section Operations

variable [DecidableEq K] {c : ByteLru K V} {age : K → ℕ}

@[simp] lemma pop_capacity (key : K) : (pop size c key).1.capacity = c.capacity := by
  unfold pop
  split <;> rfl

omit [DecidableEq K] in
@[simp] lemma evict_capacity (need : ℤ) : (evict size c need).1.capacity = c.capacity := rfl

lemma pop_sublist (key : K) :
    (pop size c key).1.entries.entries.Sublist c.entries.entries := by
  unfold pop
  split
  case h_1 => exact List.Sublist.refl _
  case h_2 => exact List.filter_sublist

lemma pop_absent (key : K) : (pop size c key).1.entries.get key = none := by
  unfold pop
  split
  case h_1 absent => exact absent
  case h_2 => exact OrderedDict.get_erase c.entries key

lemma evict_absent {key : K} (absent : c.entries.get key = none) (need : ℤ) :
    (evict size c need).1.entries.get key = none := by
  refine Option.eq_none_iff_forall_ne_some.mpr fun value found => ?_
  have member := (evict_sublist c need).subset (OrderedDict.get_eq_some.mp found)
  rw [OrderedDict.get_eq_some.mpr member] at absent
  cases absent

lemma total_erase (f : V → ℕ) (d : OrderedDict K V) {key : K} {value : V}
    (found : d.get key = some value) : (d.erase key).total f + f value = d.total f := by
  have apart := List.filter_append_perm (fun e : K × V => decide (e.1 ≠ key)) d.entries
  have only : d.entries.filter (fun e => !decide (e.1 ≠ key)) = [(key, value)] := by
    have member := OrderedDict.get_eq_some.mp found
    obtain ⟨front, back, split⟩ := List.append_of_mem member
    have nodup := d.nodup
    rw [split, List.map_append, List.map_cons] at nodup
    obtain ⟨-, behind, disjoint⟩ := List.nodup_append.mp nodup
    rw [split, List.filter_append, List.filter_cons_of_pos (by simp)]
    have before : front.filter (fun e => !decide (e.1 ≠ key)) = [] := by
      apply List.filter_eq_nil_iff.mpr
      intro e mem
      have ne := disjoint e.1 (List.mem_map_of_mem mem) key (List.mem_cons_self ..)
      simpa using ne
    have after : back.filter (fun e => !decide (e.1 ≠ key)) = [] := by
      apply List.filter_eq_nil_iff.mpr
      intro e mem
      have ne : e.1 ≠ key := by
        intro same
        exact (List.nodup_cons.mp behind).1 (List.mem_map.mpr ⟨e, mem, same⟩)
      simpa using ne
    rw [before, after]
    rfl
  have sums := (apart.map fun e => f e.2).sum_eq
  rw [List.map_append, List.sum_append, only] at sums
  simpa [OrderedDict.total, OrderedDict.erase] using sums

lemma pop_accounts (h : Accounts size c) (key : K) : Accounts size (pop size c key).1 := by
  unfold pop
  split
  case h_1 => exact h
  case h_2 value found =>
    have total := total_erase size c.entries found
    have used := h.used
    have budget := h.budget
    refine ⟨?_, ?_⟩
    · dsimp only
      omega
    · dsimp only
      omega

lemma store_accounts (h : Accounts size c) {key : K} {value : V}
    (absent : c.entries.get key = none) (room : c.used + size value ≤ c.capacity) :
    Accounts size (store size c key value) := by
  have total := OrderedDict.total_insert size c.entries key value
  rw [absent] at total
  have used := h.used
  refine ⟨?_, ?_⟩
  · simp only [store]
    simp only [Option.elim_none, add_zero] at total
    omega
  · simp only [store]
    omega

/-- What an operation on a key does to the order: the entries of other keys may be forgotten, and
the key's own stands at the end, if it is there. -/
def Uses (key : K) (c c' : ByteLru K V) : Prop :=
  ∃ kept : List (K × V), kept.Sublist c.entries.entries ∧ (∀ e ∈ kept, e.1 ≠ key) ∧
    (c'.entries.entries = kept ∨ ∃ value, c'.entries.entries = kept ++ [(key, value)])

lemma ne_of_absent {d : OrderedDict K V} {key : K} (absent : d.get key = none) :
    ∀ e ∈ d.entries, e.1 ≠ key := by
  rintro e member rfl
  rw [OrderedDict.get_eq_some.mpr (show (e.1, e.2) ∈ d.entries from member)] at absent
  cases absent

lemma pop_uses (key : K) : Uses key c (pop size c key).1 :=
  ⟨_, pop_sublist key, ne_of_absent (pop_absent key), Or.inl rfl⟩

lemma Uses.evict {key : K} {c' : ByteLru K V} (h : Uses key c c')
    (absent : c'.entries.get key = none) (need : ℤ) :
    Uses key c (ByteLru.evict size c' need).1 := by
  obtain ⟨kept, sub, others, same⟩ := h
  refine ⟨_, ?_, ?_, Or.inl rfl⟩
  · apply (evict_sublist c' need).trans
    rcases same with same | ⟨value, same⟩
    · rw [same]
      exact sub
    · have member : (key, value) ∈ c'.entries.entries := by simp [same]
      exact absurd rfl (ne_of_absent absent _ member)
  · intro e member
    exact ne_of_absent absent e ((evict_sublist c' need).subset member)

lemma Uses.store {key : K} {c' : ByteLru K V} (h : Uses key c c')
    (absent : c'.entries.get key = none) (value : V) :
    Uses key c (ByteLru.store size c' key value) := by
  obtain ⟨kept, sub, others, same⟩ := h
  have same' : c'.entries.entries = kept := by
    rcases same with same | ⟨old, same⟩
    · exact same
    · have member : (key, old) ∈ c'.entries.entries := by simp [same]
      exact absurd rfl (ne_of_absent absent _ member)
  refine ⟨kept, sub, others, Or.inr ⟨value, ?_⟩⟩
  rw [← same']
  exact OrderedDict.entries_insert absent

lemma touch_uses (c : ByteLru K V) (key : K) : Uses key c (touch c key).1 := by
  unfold touch
  split
  case h_1 absent => exact ⟨_, List.Sublist.refl _, ne_of_absent absent, Or.inl rfl⟩
  case h_2 value found =>
    refine ⟨(c.entries.erase key).entries, List.filter_sublist, ?_, Or.inr ⟨value, ?_⟩⟩
    · exact ne_of_absent (OrderedDict.get_erase c.entries key)
    · exact OrderedDict.entries_insert (OrderedDict.get_erase c.entries key)

lemma Recent.uses {age' : K → ℕ} {key : K} {c' : ByteLru K V} (h : Recent age c)
    (uses : Uses key c c') (used : age' key = 0) (other : ∀ k, k ≠ key → age' k = age k + 1) :
    Recent age' c' := by
  obtain ⟨kept, sub, apart, same⟩ := uses
  have sorted : kept.Pairwise fun older newer => age' newer.1 < age' older.1 := by
    apply List.Pairwise.imp_of_mem ?_ (List.Pairwise.sublist sub h)
    intro a b ha hb lt
    rw [other a.1 (apart a ha), other b.1 (apart b hb)]
    omega
  rcases same with same | ⟨value, same⟩
  · unfold Recent
    rw [same]
    exact sorted
  · unfold Recent
    rw [same]
    apply List.pairwise_append.mpr
    refine ⟨sorted, List.pairwise_singleton _ _, ?_⟩
    intro e member new here
    rw [List.mem_singleton.mp here, used, other e.1 (apart e member)]
    omega

lemma touch_accounts (h : Accounts size c) (key : K) : Accounts size (touch c key).1 := by
  unfold touch
  split
  case h_1 => exact h
  case h_2 value found =>
    have total := total_erase size c.entries found
    have insert := OrderedDict.total_insert size (c.entries.erase key) key value
    rw [OrderedDict.get_erase] at insert
    have used := h.used
    refine ⟨?_, h.budget⟩
    simp only [Option.elim_none, add_zero] at insert
    dsimp only
    omega

end Operations

section Histories

variable {A : Type*} [DecidableEq K]

/-- How many operations ago a key was last named, the operations the newest first. -/
def age (named : A → Option K) : List A → K → ℕ
  | [], _ => 0
  | op :: older, key => if named op = some key then 0 else age named older key + 1

variable {c c' : ByteLru K V} {named : A → Option K} {older : List A}

lemma Recent.cons (h : Recent (age named older) c) {op : A} {key : K} (about : named op = some key)
    (uses : Uses key c c') : Recent (age named (op :: older)) c' := by
  apply h.uses uses
  · simp [age, about]
  · intro k ne
    have other : named op ≠ some k := by
      rw [about]
      exact fun same => ne (Option.some.inj same).symm
    simp [age, other]

/-- A cache and what its next operation evicts: the count is right and within the budget, the keys
are distinct, and each victim is the entry longest unused of those still there. -/
structure Sound (size : V → ℕ) (age : K → ℕ) (c : ByteLru K V) (evictions : List (Eviction K V)) :
    Prop where
  used : c.used = (c.entries.total size : ℕ)
  budget : c.used ≤ max c.capacity 0
  keys : (c.entries.entries.map Prod.fst).Nodup
  oldest : ∀ v ∈ evictions, ∀ e ∈ v.others, age e.1 < age v.victim.1

variable {age : K → ℕ}

lemma pop_evict_oldest (size : V → ℕ) (h : Recent age c) (key : K) (need : ℤ) :
    ∀ v ∈ (evict size (pop size c key).1 need).2, ∀ e ∈ v.others, age e.1 < age v.victim.1 := by
  intro v member
  exact evictFrom_oldest size (List.Pairwise.sublist (pop_sublist key) h) _ _ _ member

lemma Accounts.sound (h : Accounts size c) {evictions : List (Eviction K V)}
    (oldest : ∀ v ∈ evictions, ∀ e ∈ v.others, age e.1 < age v.victim.1) :
    Sound size age c evictions :=
  ⟨h.used, h.budget, c.entries.nodup, oldest⟩

end Histories

end ByteLru

end PocketMoE.Lib
