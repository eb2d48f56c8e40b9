import Mathlib.Data.List.Nodup
import Mathlib.Data.List.Perm.Subperm
import Mathlib.Data.List.Range
import Mathlib.Logic.Function.Basic
import Mathlib.Tactic.Lemma

/-!
# Slots that are handed out by recency

A fixed number of slots serves more keys than there are slots. `acquire` returns the slot of a key:
the one it has, else an empty one, else that of the key used least recently, which loses it. `Wf`
says that the tables agree; every `acquire` keeps it (`Wf.acquire`).

`Wf.acquireAll_exact` is what a client relies on that acquires several keys before it uses them: the
slots acquired last are safe as long as there are fewer of them than slots (`Acquired.recent`).
-/

namespace PocketMoE.Lib

/-- Which slot a key has, which key a slot has, and the used slots, the most recent one last. -/
structure SlotCache (κ : Type*) where
  capacity : Nat
  slotOf : κ → Option Nat
  keyAt : Nat → Option κ
  lru : List Nat

namespace SlotCache

variable {κ : Type*} [DecidableEq κ]

/-- No slot is used. -/
def empty (capacity : Nat) : SlotCache κ where
  capacity := capacity
  slotOf := fun _ => none
  keyAt := fun _ => none
  lru := []

/-- Give a slot to a key, as the most recent one. -/
def place (c : SlotCache κ) (slot : Nat) (key : κ) : SlotCache κ :=
  { c with
    slotOf := Function.update c.slotOf key (some slot)
    keyAt := Function.update c.keyAt slot (some key)
    lru := c.lru ++ [slot] }

/-- Take the least recent slot from its key. -/
def evict (c : SlotCache κ) (slot : Nat) (rest : List Nat) : SlotCache κ :=
  { c with
    slotOf := match c.keyAt slot with
      | some victim => Function.update c.slotOf victim none
      | none => c.slotOf
    lru := rest }

/-- The slot of a key, and whether the key had it already. -/
def acquire (c : SlotCache κ) (key : κ) : SlotCache κ × Nat × Bool :=
  match c.slotOf key with
  | some slot => ({ c with lru := c.lru.erase slot ++ [slot] }, slot, true)
  | none =>
    if c.lru.length < c.capacity then
      let slot := ((List.range c.capacity).find? fun s => (c.keyAt s).isNone).getD c.lru.length
      (c.place slot key, slot, false)
    else
      match c.lru with
      -- only without any slot: there is nothing to hand out
      | [] => (c, 0, false)
      | slot :: rest => ((c.evict slot rest).place slot key, slot, false)

/-- The tables agree: different slots in use, each with the key that has it. -/
structure Wf (c : SlotCache κ) : Prop where
  nodup : c.lru.Nodup
  inside : ∀ s ∈ c.lru, s < c.capacity
  used : ∀ s, s ∈ c.lru ↔ c.keyAt s ≠ none
  inverse : ∀ key s, c.slotOf key = some s ↔ c.keyAt s = some key

omit [DecidableEq κ] in
lemma Wf.empty (capacity : Nat) : (SlotCache.empty capacity : SlotCache κ).Wf where
  nodup := List.nodup_nil
  inside := by simp [SlotCache.empty]
  used := by simp [SlotCache.empty]
  inverse := by simp [SlotCache.empty]

variable {c : SlotCache κ} {key : κ}

omit [DecidableEq κ] in
lemma Wf.exists_empty (wf : c.Wf) (room : c.lru.length < c.capacity) :
    ∃ s, ((List.range c.capacity).find? fun s => (c.keyAt s).isNone) = some s ∧ s < c.capacity ∧
      c.keyAt s = none := by
  cases search : (List.range c.capacity).find? fun s => (c.keyAt s).isNone with
  | some s =>
    have free := List.find?_some search
    have member := List.mem_of_find?_eq_some search
    exact ⟨s, rfl, List.mem_range.mp member, by simpa using free⟩
  | none =>
    -- every slot is in use, so there are at least `capacity` of them in the list
    have all : List.range c.capacity ⊆ c.lru := by
      intro s member
      rw [wf.used]
      have := List.find?_eq_none.mp search s member
      intro free
      simp [free] at this
    have := (List.subperm_of_subset List.nodup_range all).length_le
    rw [List.length_range] at this
    omega

lemma Wf.place (wf : c.Wf) {slot : Nat} (lt : slot < c.capacity) (free : c.keyAt slot = none)
    (new : c.slotOf key = none) : (c.place slot key).Wf := by
  have out : slot ∉ c.lru := fun member => (wf.used slot).mp member free
  refine ⟨?_, ?_, ?_, ?_⟩
  · exact List.nodup_append'.mpr ⟨wf.nodup, List.nodup_singleton slot, by simpa using out⟩
  · intro s member
    rcases List.mem_append.mp member with old | here
    · exact wf.inside s old
    · obtain rfl := List.mem_singleton.mp here
      exact lt
  · intro s
    simp only [SlotCache.place, List.mem_append, List.mem_singleton, Function.update_apply, wf.used]
    by_cases here : s = slot
    · simp [here]
    · simp [here]
  · intro k s
    simp only [SlotCache.place, Function.update_apply]
    by_cases hk : k = key
    · subst hk
      by_cases hs : s = slot
      · simp [hs]
      · have : c.keyAt s ≠ some k := fun e => by simp [(wf.inverse k s).mpr e] at new
        simp [hs, Ne.symm hs, this]
    · by_cases hs : s = slot
      · subst hs
        have : c.slotOf k ≠ some s := fun e => by simp [(wf.inverse k s).mp e] at free
        simp [hk, Ne.symm hk, this]
      · simp [hk, hs, wf.inverse]

/-- The least recent slot, emptied. -/
def cleared (c : SlotCache κ) (slot : Nat) (rest : List Nat) : SlotCache κ :=
  { c.evict slot rest with keyAt := Function.update c.keyAt slot none }

lemma evict_place (slot : Nat) (rest : List Nat) :
    (c.evict slot rest).place slot key = (c.cleared slot rest).place slot key := by
  simp [SlotCache.place, evict, cleared]

lemma Wf.cleared (wf : c.Wf) {slot : Nat} {rest : List Nat} (full : c.lru = slot :: rest) :
    (c.cleared slot rest).Wf := by
  obtain ⟨out, nodup⟩ := List.nodup_cons.mp (full ▸ wf.nodup)
  obtain ⟨victim, has⟩ := Option.ne_none_iff_exists'.mp
    ((wf.used slot).mp (full ▸ List.mem_cons_self))
  refine ⟨nodup, fun s member => wf.inside s (full ▸ List.mem_cons_of_mem slot member), ?_, ?_⟩
  · intro s
    have used := wf.used s
    rw [full, List.mem_cons] at used
    simp only [SlotCache.cleared, evict, Function.update_apply]
    by_cases here : s = slot
    · simp [here, out]
    · simpa [here] using used
  · intro k s
    simp only [SlotCache.cleared, evict, has, Function.update_apply]
    by_cases hs : s = slot
    · subst hs
      by_cases hk : k = victim
      · simp [hk]
      · have : c.slotOf k ≠ some s := by
          rw [Ne, wf.inverse, has, Option.some.injEq]
          exact Ne.symm hk
        simp [hk, this]
    · by_cases hk : k = victim
      · subst hk
        have : c.keyAt s ≠ some k := fun e => hs (Option.some.inj
          (((wf.inverse k s).mpr e).symm.trans ((wf.inverse k slot).mpr has)))
        simp [hs, this]
      · simp [hs, hk, wf.inverse]

omit [DecidableEq κ] in
lemma Wf.touch (wf : c.Wf) {slot : Nat} (has : c.slotOf key = some slot) :
    ({ c with lru := c.lru.erase slot ++ [slot] } : SlotCache κ).Wf := by
  have member : slot ∈ c.lru := (wf.used slot).mpr (by simp [(wf.inverse key slot).mp has])
  have same (s : Nat) : s ∈ c.lru.erase slot ++ [slot] ↔ s ∈ c.lru := by
    rw [List.mem_append, wf.nodup.mem_erase_iff, List.mem_singleton]
    by_cases here : s = slot
    · simp [here, member]
    · simp [here]
  refine ⟨?_, fun s old => wf.inside s ((same s).mp old), fun s => (same s).trans (wf.used s),
    wf.inverse⟩
  refine List.nodup_append'.mpr ⟨wf.nodup.erase slot, List.nodup_singleton slot, ?_⟩
  simpa using wf.nodup.not_mem_erase

/-- What acquiring a slot does: the slot is the key's and the most recent one, and no other slot
changes hands. A slot the key did not have was empty or the least recent one. -/
structure Acquired (c : SlotCache κ) (key : κ) (c' : SlotCache κ) (slot : Nat) (hit : Bool) :
    Prop where
  wf : c'.Wf
  capacity : c'.capacity = c.capacity
  lru : c'.lru = c.lru.erase slot ++ [slot]
  keyAt : c'.keyAt = Function.update c.keyAt slot (some key)
  had : hit → c.keyAt slot = some key
  victim : ¬ hit → c.keyAt slot = none ∨ (c.capacity ≤ c.lru.length ∧ c.lru.head? = some slot)

/-- Acquiring keeps the tables in agreement. -/
theorem Wf.acquire (wf : c.Wf) (pos : 0 < c.capacity) (key : κ) :
    Acquired c key (c.acquire key).1 (c.acquire key).2.1 (c.acquire key).2.2 := by
  unfold SlotCache.acquire
  cases has : c.slotOf key with
  | some slot =>
    have here := (wf.inverse key slot).mp has
    exact ⟨wf.touch has, rfl, rfl, by simp [← here], fun _ => here, by simp⟩
  | none =>
    by_cases room : c.lru.length < c.capacity
    · obtain ⟨slot, search, lt, free⟩ := wf.exists_empty room
      have out : slot ∉ c.lru := fun member => (wf.used slot).mp member free
      simp only [if_pos room, search, Option.getD_some]
      exact ⟨wf.place lt free has, rfl, by rw [List.erase_of_not_mem out]; rfl, rfl, by simp,
        fun _ => .inl free⟩
    · simp only [if_neg room]
      cases full : c.lru with
      | nil =>
        rw [full] at room
        exact absurd pos room
      | cons slot rest =>
        have lt := wf.inside slot (full ▸ List.mem_cons_self)
        have new : (c.cleared slot rest).slotOf key = none := by
          simp only [SlotCache.cleared, evict]
          cases c.keyAt slot with
          | some victim => simp [Function.update_apply, has]
          | none => exact has
        have free : (c.cleared slot rest).keyAt slot = none := by simp [SlotCache.cleared]
        simp only [evict_place]
        refine ⟨(wf.cleared full).place lt free new, rfl, by rw [full, List.erase_cons_head]; rfl, ?_,
          by simp, fun _ => .inr ⟨by simpa [full] using room, by rw [full]; rfl⟩⟩
        simp [SlotCache.place, SlotCache.cleared, evict]

omit [DecidableEq κ] in
/-- The slots acquired last are safe: another key does not get one of them. -/
theorem Acquired.recent {c' : SlotCache κ} {slot : Nat} {hit : Bool} {older recent : List Nat}
    (wf : c.Wf) (acq : Acquired c key c' slot hit) (split : c.lru = older ++ recent)
    (few : recent.length < c.capacity) (other : ∀ s ∈ recent, c.keyAt s ≠ some key) :
    slot ∉ recent := by
  intro member
  cases hit with
  | true => exact other slot member (acq.had rfl)
  | false =>
    rcases acq.victim (by simp) with free | ⟨full, first⟩
    · exact (wf.used slot).mp (split ▸ List.mem_append_right older member) free
    · cases older with
      | nil =>
        rw [split, List.nil_append] at full
        omega
      | cons s older =>
        rw [split, List.cons_append, List.head?_cons, Option.some.injEq] at first
        subst first
        have nodup := wf.nodup
        rw [split, List.cons_append, List.nodup_cons] at nodup
        exact nodup.1 (List.mem_append_right older member)

/-- Acquire several keys, one after another; the slot each was given. -/
def acquireAll (c : SlotCache κ) : List κ → SlotCache κ × List Nat
  | [] => (c, [])
  | key :: rest =>
    let (c, slot, _) := c.acquire key
    let (c, slots) := c.acquireAll rest
    (c, slot :: slots)

lemma acquireAll_cons (c : SlotCache κ) (key : κ) (rest : List κ) :
    c.acquireAll (key :: rest) =
      (((c.acquire key).1.acquireAll rest).1,
        (c.acquire key).2.1 :: ((c.acquire key).1.acquireAll rest).2) := rfl

lemma Wf.acquireAll (wf : c.Wf) (pos : 0 < c.capacity) (keys : List κ) :
    (c.acquireAll keys).1.Wf ∧ (c.acquireAll keys).1.capacity = c.capacity := by
  induction keys generalizing c with
  | nil => exact ⟨wf, rfl⟩
  | cons key rest ih =>
    have acq := wf.acquire pos key
    obtain ⟨wf', capacity⟩ := ih acq.wf (by rwa [acq.capacity])
    exact ⟨wf', capacity.trans acq.capacity⟩

lemma Wf.acquireAll_recent (wf : c.Wf) {keys : List κ} (nodup : keys.Nodup)
    {older recent : List Nat} (split : c.lru = older ++ recent)
    (other : ∀ s ∈ recent, ∀ key ∈ keys, c.keyAt s ≠ some key)
    (fits : recent.length + keys.length ≤ c.capacity) :
    (∀ s ∈ recent, (c.acquireAll keys).1.keyAt s = c.keyAt s) ∧
      List.Forall₂ (fun key s => (c.acquireAll keys).1.keyAt s = some key) keys
        (c.acquireAll keys).2 := by
  induction keys generalizing c older recent with
  | nil => exact ⟨fun _ _ => rfl, .nil⟩
  | cons key rest ih =>
    rw [List.length_cons] at fits
    have acq := wf.acquire (by omega) key
    have out := acq.recent wf split (by omega)
      (fun s member => other s member key List.mem_cons_self)
    -- the new slot joins the recent ones
    obtain ⟨older', split'⟩ : ∃ older', (c.acquire key).1.lru =
        older' ++ (recent ++ [(c.acquire key).2.1]) := by
      rw [acq.lru, split]
      by_cases old : (c.acquire key).2.1 ∈ older
      · exact ⟨older.erase (c.acquire key).2.1, by rw [List.erase_append_left _ old]; simp⟩
      · refine ⟨older, ?_⟩
        rw [List.erase_of_not_mem (by simp [old, out])]
        simp
    have other' : ∀ s ∈ recent ++ [(c.acquire key).2.1], ∀ k ∈ rest,
        (c.acquire key).1.keyAt s ≠ some k := by
      intro s member k inside
      rw [acq.keyAt, Function.update_apply]
      split_ifs with here
      · intro e
        obtain rfl := Option.some.inj e
        exact (List.nodup_cons.mp nodup).1 inside
      · rcases List.mem_append.mp member with before | new
        · exact other s before k (List.mem_cons_of_mem key inside)
        · exact absurd (List.mem_singleton.mp new) here
    obtain ⟨kept, given⟩ := ih acq.wf (List.nodup_cons.mp nodup).2 split' other'
      (by rw [acq.capacity, List.length_append, List.length_singleton]; omega)
    refine ⟨fun s member => ?_, .cons ?_ given⟩
    · have ne : s ≠ (c.acquire key).2.1 := fun e => out (e ▸ member)
      have := kept s (List.mem_append_left _ member)
      rwa [acq.keyAt, Function.update_of_ne ne] at this
    · have := kept _ (List.mem_append_right recent (List.mem_singleton_self _))
      rwa [acq.keyAt, Function.update_self] at this

/-- No more different keys than slots: after acquiring them, each has the slot it was given. -/
theorem Wf.acquireAll_exact (wf : c.Wf) {keys : List κ} (nodup : keys.Nodup)
    (fits : keys.length ≤ c.capacity) :
    List.Forall₂ (fun key s => (c.acquireAll keys).1.keyAt s = some key) keys
      (c.acquireAll keys).2 :=
  (wf.acquireAll_recent nodup (List.append_nil _).symm (by simp) (by simpa using fits)).2

omit [DecidableEq κ] in
lemma Wf.none_empty (wf : c.Wf) (full : c.capacity ≤ c.lru.length) :
    ((List.range c.capacity).find? fun s => (c.keyAt s).isNone) = none := by
  have all : c.lru.Perm (List.range c.capacity) := by
    refine (List.subperm_of_subset wf.nodup fun s member =>
      List.mem_range.mpr (wf.inside s member)).perm_of_length_le ?_
    rwa [List.length_range]
  rw [List.find?_eq_none]
  intro s member
  have := (wf.used s).mp (all.mem_iff.mpr member)
  simpa using this

end SlotCache

end PocketMoE.Lib
