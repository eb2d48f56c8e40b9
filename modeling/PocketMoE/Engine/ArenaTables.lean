import PocketMoE.Engine.ArenaPool

/-!
# The tables of an arena

What holds of each arena of a pool (`PoolArena.Sound`), and what calls do to it.
`acquireSparseSlot_eq` connects `acquire_sparse_slot` with the library's `SlotCache.acquire`: with
tables of the size of the arena it never leaves them, and hands out slots by recency.
-/

namespace PocketMoE.Engine
open PocketMoE.Lib

namespace PoolArena

/-- The slots of an arena. -/
def slots (a : PoolArena) : SlotCache Nat where
  capacity := a.capacity
  slotOf := a.slotByLocal
  keyAt := fun s => (a.slotLocal[s]?).join
  lru := a.slotLru

/-- The tables of a sparse arena that has buffers. -/
structure Tables (a : PoolArena) : Prop where
  wf : a.slots.Wf
  pos : 0 < a.capacity
  slotLocal : a.slotLocal.length = a.capacity
  slotLruPos : a.slotLruPos.length = a.capacity
  nodes : ∀ s ∈ a.slotLru, a.slotLruPos[s]? = some (some s)
  held : ∀ loc slot, a.slotByLocal loc = some slot → a.held slot = some loc

/-- What holds of every arena of a pool. -/
structure Sound (key : ArenaKey) (a : PoolArena) : Prop where
  sparse : a.sparseSlots = key.sparse
  capacity : a.capacity = key.capacity
  pos : key.sparse = true → 0 < key.capacity
  empty : a.buffers = [] → ∀ loc slot, ¬ a.Reports loc slot
  tables : a.buffers ≠ [] → a.sparseSlots = true → a.Tables
  staged : ∀ loc slot, a.Reports loc slot → a.held slot = some loc

variable {a a' : PoolArena} {key : ArenaKey} {loc slot : Nat}

lemma reports_dense (dense : ¬ a.sparseSlots = true) :
    a.Reports loc slot ↔ loc ∈ a.stagedLocal ∧ slot = loc := by
  unfold Reports
  rw [if_neg dense]

lemma reports_sparse (sparse : a.sparseSlots = true) :
    a.Reports loc slot ↔ a.slotByLocal loc = some slot := by
  unfold Reports
  rw [if_pos sparse]

lemma keyAt_set {a : PoolArena} (lt : slot < a.slotLocal.length) :
    (fun s => ((a.slotLocal.set slot (some loc))[s]?).join) =
      Function.update a.slots.keyAt slot (some loc) := by
  funext s
  rcases eq_or_ne s slot with rfl | ne
  · rw [List.getElem?_set_self lt, Function.update_self]
    rfl
  · rw [List.getElem?_set_ne ne.symm, Function.update_of_ne ne]
    rfl

lemma firstEmpty_eq (l : List (Option Nat)) (s n : Nat) (le : s + n ≤ l.length) :
    firstEmpty l s n = some ((List.range' s n).find? fun s => (l[s]?.join).isNone) := by
  induction n generalizing s with
  | zero => rfl
  | succ n ih =>
    have inside : s < l.length := by omega
    rw [firstEmpty, List.range'_succ, List.find?_cons, List.getElem?_eq_getElem inside]
    cases l[s] with
    | none => rfl
    | some loc => exact ih (s + 1) (by omega)

lemma assign_eq (locals : slot < a.slotLocal.length) (nodes : slot < a.slotLruPos.length) :
    ∃ a', a.assign slot loc = some (a', slot, false) ∧ a'.slots = a.slots.place slot loc ∧
      a' = { a with
        slotLocal := a.slotLocal.set slot (some loc)
        slotByLocal := Function.update a.slotByLocal loc (some slot)
        slotLru := a.slotLru ++ [slot]
        slotLruPos := a.slotLruPos.set slot (some slot) } := by
  refine ⟨_, if_pos ⟨locals, nodes⟩, ?_, rfl⟩
  unfold slots SlotCache.place
  rw [keyAt_set locals]
  rfl

/-- What `acquire_sparse_slot` leaves as it is. -/
structure Keeps (a a' : PoolArena) : Prop where
  buffers : a'.buffers = a.buffers
  capacity : a'.capacity = a.capacity
  sparse : a'.sparseSlots = a.sparseSlots
  slotLocal : a'.slotLocal.length = a.slotLocal.length
  slotLruPos : a'.slotLruPos.length = a.slotLruPos.length
  held : a'.held = a.held

lemma acquireSparseSlot_eq (ok : a.Tables) (loc : Nat) : ∃ a' : PoolArena, ∃ slot hit,
    a.acquireSparseSlot loc = some (a', slot, hit) ∧ a.slots.acquire loc = (a'.slots, slot, hit) ∧
      a.Keeps a' ∧ a'.slotLruPos = a.slotLruPos.set slot (some slot) := by
  unfold acquireSparseSlot SlotCache.acquire
  cases has : a.slotByLocal loc with
  | some slot =>
    have there : a.slots.slotOf loc = some slot := has
    have used : slot ∈ a.slotLru :=
      (ok.wf.used slot).mpr (by rw [(ok.wf.inverse loc slot).mp there]; exact nofun)
    simp only [ok.nodes slot used, there]
    exact ⟨_, _, _, rfl, rfl, ⟨rfl, rfl, rfl, rfl, List.length_set, rfl⟩, rfl⟩
  | none =>
    have nowhere : a.slots.slotOf loc = none := has
    simp only [nowhere]
    by_cases room : a.slotLru.length < a.capacity
    · obtain ⟨slot, search, lt, -⟩ := ok.wf.exists_empty room
      have found := firstEmpty_eq a.slotLocal 0 a.capacity (by rw [ok.slotLocal, Nat.zero_add])
      rw [← List.range_eq_range'] at found
      change _ = some ((List.range a.slots.capacity).find? fun s => (a.slots.keyAt s).isNone) at found
      rw [search] at found
      have capacity : slot < a.capacity := lt
      obtain ⟨a', assigned, slots, rfl⟩ := @assign_eq a loc slot (by rw [ok.slotLocal]; exact lt)
        (by rw [ok.slotLruPos]; exact lt)
      have less : a.slots.lru.length < a.slots.capacity := room
      simp only [if_pos room, if_pos less, found, search, Option.getD_some]
      exact ⟨_, _, _, assigned, by rw [slots],
        ⟨rfl, rfl, rfl, List.length_set, List.length_set, rfl⟩, rfl⟩
    · have less : ¬ a.slots.lru.length < a.slots.capacity := room
      simp only [if_neg room, if_neg less]
      cases full : a.slotLru with
      | nil =>
        rw [full] at room
        exact absurd ok.pos room
      | cons slot rest =>
        have full' : a.slots.lru = slot :: rest := full
        have lt : slot < a.capacity := ok.wf.inside slot (full' ▸ List.mem_cons_self)
        have locals : slot < a.slotLocal.length := by rw [ok.slotLocal]; exact lt
        have nodes : slot < a.slotLruPos.length := by rw [ok.slotLruPos]; exact lt
        simp only [full', SlotCache.evict]
        rw [List.getElem?_eq_getElem locals]
        have keyAt : a.slots.keyAt slot = a.slotLocal[slot] := by
          show (a.slotLocal[slot]?).join = _
          rw [List.getElem?_eq_getElem locals]
          rfl
        rw [keyAt]
        cases a.slotLocal[slot] with
        | none =>
          obtain ⟨a', assigned, slots, rfl⟩ := @assign_eq { a with slotLru := rest } loc slot locals
            nodes
          exact ⟨_, _, _, assigned, by rw [slots]; rfl,
            ⟨rfl, rfl, rfl, List.length_set, List.length_set, rfl⟩, rfl⟩
        | some victim =>
          obtain ⟨a', assigned, slots, rfl⟩ := @assign_eq { a with
            slotLru := rest
            slotByLocal := Function.update a.slotByLocal victim none } loc slot locals nodes
          exact ⟨_, _, _, assigned, by rw [slots]; rfl,
            ⟨rfl, rfl, rfl, List.length_set, List.length_set, rfl⟩, rfl⟩

lemma Tables.acquire (ok : a.Tables) {hit : Bool}
    (acquired : a.acquireSparseSlot loc = some (a', slot, hit)) :
    a.Keeps a' ∧ (if hit then a' else a'.copy slot loc true).Tables := by
  obtain ⟨b, s, h, eq, slots, keeps, nodes⟩ := acquireSparseSlot_eq ok loc
  rw [eq] at acquired
  obtain ⟨rfl, rfl, rfl⟩ : b = a' ∧ s = slot ∧ h = hit := by simpa using acquired
  have acq := ok.wf.acquire ok.pos loc
  rw [slots] at acq
  refine ⟨keeps, ?_⟩
  -- the copy changes nothing but the ghost
  have wf : (if h then b else b.copy s loc true).slots = b.slots := by split_ifs <;> rfl
  have lt : s < a.capacity := by
    have inside := acq.wf.inside s (by rw [acq.lru]; exact List.mem_append_right _ (by simp))
    rwa [acq.capacity] at inside
  have lru : b.slotLru = a.slotLru.erase s ++ [s] := acq.lru
  have truth : ∀ l t, b.slotByLocal l = some t →
      (if h then b else b.copy s loc true).held t = some l := by
    intro l t has
    have there : b.slots.keyAt t = some l := (acq.wf.inverse l t).mp has
    rw [acq.keyAt] at there
    rcases eq_or_ne t s with rfl | ne
    · rw [Function.update_self] at there
      obtain rfl := Option.some.inj there
      cases h with
      | true =>
        show b.held t = _
        rw [keeps.held]
        exact ok.held loc t ((ok.wf.inverse loc t).mpr (acq.had rfl))
      | false => exact Function.update_self ..
    · rw [Function.update_of_ne ne] at there
      have same : (if h then b else b.copy s loc true).held t = a.held t := by
        rw [← keeps.held]
        split_ifs
        · rfl
        · exact Function.update_of_ne ne ..
      rw [same]
      exact ok.held l t ((ok.wf.inverse l t).mpr there)
  have same : ∀ {α : Type} (f : PoolArena → α), (∀ x : PoolArena, f (x.copy s loc true) = f x) →
      f (if h then b else b.copy s loc true) = f b := by
    intro α f copies
    split_ifs
    · rfl
    · exact copies b
  constructor
  · rw [wf]
    exact acq.wf
  · rw [same PoolArena.capacity fun _ => rfl, keeps.capacity]
    exact ok.pos
  · rw [same (fun x => x.slotLocal.length) fun _ => rfl, same PoolArena.capacity fun _ => rfl,
      keeps.slotLocal, keeps.capacity, ok.slotLocal]
  · rw [same (fun x => x.slotLruPos.length) fun _ => rfl, same PoolArena.capacity fun _ => rfl,
      keeps.slotLruPos, keeps.capacity, ok.slotLruPos]
  · intro t member
    rw [same PoolArena.slotLru fun _ => rfl, lru] at member
    rw [same PoolArena.slotLruPos fun _ => rfl, nodes]
    rcases List.mem_append.mp member with old | new
    · have ne : t ≠ s := by
        rintro rfl
        exact absurd old ok.wf.nodup.not_mem_erase
      rw [List.getElem?_set_ne ne.symm]
      exact ok.nodes t (List.mem_of_mem_erase old)
    · obtain rfl := List.mem_singleton.mp new
      exact List.getElem?_set_self (by rw [ok.slotLruPos]; exact lt)
  · intro l t has
    rw [same PoolArena.slotByLocal fun _ => rfl] at has
    exact truth l t has

/-- An arena in which nothing is staged yet. -/
structure Blank (key : ArenaKey) (a : PoolArena) : Prop where
  sparse : a.sparseSlots = key.sparse
  capacity : a.capacity = key.capacity
  pos : key.sparse = true → 0 < key.capacity
  stagedLocal : a.stagedLocal = []
  slotByLocal : a.sparseSlots = true → a.slotByLocal = fun _ => none
  slotLru : a.sparseSlots = true → a.slotLru = []
  tables : a.buffers ≠ [] → a.sparseSlots = true →
    a.slotLocal = List.replicate a.capacity none ∧ a.slotLruPos = List.replicate a.capacity none

lemma Blank.reports (blank : Blank key a) (loc slot : Nat) : ¬ a.Reports loc slot := by
  unfold Reports
  split_ifs with sparse
  · rw [blank.slotByLocal sparse]
    exact nofun
  · rw [blank.stagedLocal]
    exact fun staged => absurd staged.1 List.not_mem_nil

lemma Blank.tables_of_sparse (blank : Blank key a) (buffers : a.buffers ≠ [])
    (sparse : a.sparseSlots = true) : a.Tables := by
  obtain ⟨locals, nodes⟩ := blank.tables buffers sparse
  have lru : a.slots.lru = [] := blank.slotLru sparse
  have none : ∀ s, a.slots.keyAt s = none := by
    intro s
    show (a.slotLocal[s]?).join = none
    rw [locals, List.getElem?_replicate]
    split_ifs <;> rfl
  have slotOf : ∀ loc, a.slots.slotOf loc = Option.none := congrFun (blank.slotByLocal sparse)
  refine ⟨⟨?_, ?_, ?_, ?_⟩, ?_, ?_, ?_, ?_, ?_⟩
  · rw [lru]
    exact List.nodup_nil
  · rw [lru]
    exact nofun
  · intro s
    rw [lru, none]
    exact iff_of_false List.not_mem_nil (not_not.mpr rfl)
  · intro loc s
    rw [none, slotOf]
    exact iff_of_false nofun nofun
  · rw [blank.capacity]
    exact blank.pos (blank.sparse ▸ sparse)
  · rw [locals, List.length_replicate]
  · rw [nodes, List.length_replicate]
  · rw [blank.slotLru sparse]
    exact nofun
  · rw [blank.slotByLocal sparse]
    exact nofun

lemma Blank.sound (blank : Blank key a) : Sound key a where
  sparse := blank.sparse
  capacity := blank.capacity
  pos := blank.pos
  empty := fun _ => blank.reports
  tables := blank.tables_of_sparse
  staged := fun loc slot reports => absurd reports (blank.reports loc slot)

lemma blank_create (key : ArenaKey) (sample buffers : List Nat)
    (pos : key.sparse = true → 0 < key.capacity) :
    Blank key ((create key sample).receive buffers) where
  sparse := rfl
  capacity := rfl
  pos := pos
  stagedLocal := rfl
  slotByLocal := fun _ => rfl
  slotLru := fun _ => rfl
  tables := fun _ sparse => ⟨if_pos sparse, if_pos sparse⟩

lemma Sound.released (ok : Sound key a) : Blank key a.released where
  sparse := ok.sparse
  capacity := ok.capacity
  pos := ok.pos
  stagedLocal := rfl
  slotByLocal := fun _ => rfl
  slotLru := fun _ => rfl
  tables := fun buffers => absurd rfl buffers

lemma Sound.reset (ok : Sound key a) (buffers : List Nat) :
    Blank key (a.receive buffers).reset := by
  unfold PoolArena.reset
  split_ifs with sparse
  · exact ⟨ok.sparse, ok.capacity, ok.pos, rfl, fun _ => rfl, fun _ => rfl, fun _ _ => ⟨rfl, rfl⟩⟩
  · have dense : ∀ {p : Prop}, (a.receive buffers).sparseSlots = true → p :=
      fun yes => absurd yes sparse
    exact ⟨ok.sparse, ok.capacity, ok.pos, rfl, dense, dense, fun _ => dense⟩

lemma Sound.receive_nil (ok : Sound key a) (empty : a.buffers = []) : Sound key (a.receive []) := by
  have none : ∀ loc slot, ¬ (a.receive []).Reports loc slot := by
    intro loc slot reports
    by_cases sparse : a.sparseSlots = true
    · exact ok.empty empty loc slot ((reports_sparse sparse).mpr
        ((reports_sparse (a := a.receive []) sparse).mp reports))
    · exact absurd ((reports_dense (a := a.receive []) sparse).mp reports).1 List.not_mem_nil
  exact ⟨ok.sparse, ok.capacity, ok.pos, fun _ => none, fun buffers => absurd rfl buffers,
    fun loc slot reports => absurd reports (none loc slot)⟩

lemma Sound.acquire (ok : Sound key a) (buffers : a.buffers ≠ []) (sparse : a.sparseSlots = true)
    {hit : Bool} (acquired : a.acquireSparseSlot loc = some (a', slot, hit)) :
    Sound key (if hit then a' else a'.copy slot loc true) ∧
      (if hit then a' else a'.copy slot loc true).buffers = a.buffers := by
  obtain ⟨keeps, tables⟩ := (ok.tables buffers sparse).acquire acquired
  have same : ∀ {α : Type} (f : PoolArena → α), (∀ x : PoolArena, f (x.copy slot loc true) = f x) →
      f (if hit then a' else a'.copy slot loc true) = f a' := by
    intro α f copies
    split_ifs
    · rfl
    · exact copies a'
  have has : (if hit then a' else a'.copy slot loc true).buffers = a.buffers :=
    (same PoolArena.buffers fun _ => rfl).trans keeps.buffers
  refine ⟨⟨?_, ?_, ok.pos, ?_, fun _ _ => tables, ?_⟩, has⟩
  · rw [same PoolArena.sparseSlots fun _ => rfl, keeps.sparse, ok.sparse]
  · rw [same PoolArena.capacity fun _ => rfl, keeps.capacity, ok.capacity]
  · exact fun empty => absurd (has.symm.trans empty) buffers
  · intro l t reports
    have still : (if hit then a' else a'.copy slot loc true).sparseSlots = true := by
      rw [same PoolArena.sparseSlots fun _ => rfl, keeps.sparse, sparse]
    exact tables.held l t ((reports_sparse still).mp reports)

lemma Sound.stage (ok : Sound key a) (buffers : a.buffers ≠ []) (dense : ¬ a.sparseSlots = true)
    (loc : Nat) :
    Sound key (({ a with stagedLocal := loc :: a.stagedLocal } : PoolArena).copy loc loc true) := by
  refine ⟨ok.sparse, ok.capacity, ok.pos, fun empty => absurd empty buffers,
    fun _ sparse => absurd sparse dense, fun l t reports => ?_⟩
  obtain ⟨staged, rfl⟩ : l ∈ loc :: a.stagedLocal ∧ t = l := (reports_dense
    (a := ({ a with stagedLocal := loc :: a.stagedLocal } : PoolArena).copy loc loc true) dense).mp
    reports
  show Function.update a.held loc (some loc) t = some t
  rcases eq_or_ne t loc with rfl | ne
  · exact Function.update_self ..
  · rw [Function.update_of_ne ne]
    exact ok.staged t t ((reports_dense dense).mpr ⟨List.mem_of_ne_of_mem ne staged, rfl⟩)

end PoolArena

end PocketMoE.Engine
