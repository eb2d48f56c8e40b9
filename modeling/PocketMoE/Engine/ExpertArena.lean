import PocketMoE.Lib.SlotCache
import Mathlib.Data.Finset.Insert

/-!
# The device arena of routed experts

Model of `DeviceFp4ActiveArena` (`dsv4_engine.cpp`): device memory for some of a layer's experts on
one rank. `Bytes` is the type of an expert's quantised weights, all six buffers of an arena together,
and `load` gives the bytes of the rank's experts by local number. A dense arena has a place for each
expert and remembers which were staged; a sparse one hands its slots out by recency
(`acquire_sparse_slot`, the library's `SlotCache.acquire`).

`Reached` is what any history leaves: an arena that was created or taken back from the free list over
arbitrary memory, and whatever was staged since, by decode steps or prefills. `Loaded` is the
invariant. `stageAll_exact` says when all experts of one token are in place together.
-/

namespace PocketMoE.Engine
open PocketMoE.Lib

/-- How a decode step sets up its arenas (`DSV4_CPP_DECODE_SPARSE_ARENA`). -/
inductive ArenaMode where
  | dense
  | sparse (slots : Nat) (pos : 0 < slots)

/-- The arena hands out slots. -/
def ArenaMode.isSparse : ArenaMode → Bool
  | dense => false
  | sparse _ _ => true

/-- The number of experts an arena has room for. -/
def ArenaMode.capacity (expertsPerRank : Nat) : ArenaMode → Nat
  | dense => expertsPerRank
  | sparse slots _ => slots

/-- An arena and the contents of its device memory, slot by slot. -/
structure ActiveArena (Bytes : Type) where
  sparseSlots : Bool
  stagedLocal : Finset Nat
  slots : SlotCache Nat
  bytes : Nat → Bytes

namespace ActiveArena

variable {Bytes : Type}

/-- A new arena over whatever its memory holds (`active_fp4_arena`). -/
def create (mode : ArenaMode) (expertsPerRank : Nat) (bytes : Nat → Bytes) : ActiveArena Bytes where
  sparseSlots := mode.isSparse
  stagedLocal := ∅
  slots := .empty (mode.capacity expertsPerRank)
  bytes := bytes

/-- Stage one expert, unless it is there already; the slot it is in. -/
def stage (load : Nat → Bytes) (arena : ActiveArena Bytes) (loc : Nat) : ActiveArena Bytes × Nat :=
  if arena.sparseSlots then
    let (slots, slot, alreadyStaged) := arena.slots.acquire loc
    let bytes := if alreadyStaged then arena.bytes else Function.update arena.bytes slot (load loc)
    ({ arena with slots, bytes }, slot)
  else if loc ∈ arena.stagedLocal then
    (arena, loc)
  else
    ({ arena with
       stagedLocal := insert loc arena.stagedLocal
       bytes := Function.update arena.bytes loc (load loc) }, loc)

/-- Stage the experts of a token, one after another; the slot each was given. -/
def stageAll (load : Nat → Bytes) (arena : ActiveArena Bytes) :
    List Nat → ActiveArena Bytes × List Nat
  | [] => (arena, [])
  | loc :: rest =>
    let (arena, slot) := arena.stage load loc
    let (arena, slots) := stageAll load arena rest
    (arena, slot :: slots)

/-- The arenas that earlier steps can leave. -/
inductive Reached (load : Nat → Bytes) (mode : ArenaMode) (expertsPerRank : Nat) :
    ActiveArena Bytes → Prop where
  | create (bytes : Nat → Bytes) :
    Reached load mode expertsPerRank (create mode expertsPerRank bytes)
  | stage {arena} (loc : Nat) :
    Reached load mode expertsPerRank arena →
    Reached load mode expertsPerRank (arena.stage load loc).1

/-! ## What an arena holds -/

/-- The arena's tables tell the truth about its memory. -/
structure Loaded (load : Nat → Bytes) (arena : ActiveArena Bytes) : Prop where
  wf : arena.slots.Wf
  pos : arena.sparseSlots → 0 < arena.slots.capacity
  slot : arena.sparseSlots → ∀ s loc, arena.slots.keyAt s = some loc → arena.bytes s = load loc
  staged : ∀ loc ∈ arena.stagedLocal, ¬ arena.sparseSlots → arena.bytes loc = load loc

variable {load : Nat → Bytes} {arena : ActiveArena Bytes}

lemma Loaded.create (mode : ArenaMode) (expertsPerRank : Nat) (bytes : Nat → Bytes) :
    Loaded load (ActiveArena.create mode expertsPerRank bytes) := by
  refine ⟨.empty _, ?_, ?_, ?_⟩
  · cases mode with
    | dense => simp [ActiveArena.create, ArenaMode.isSparse]
    | sparse slots pos => exact fun _ => pos
  · intro _ s loc has
    exact absurd has (by simp [ActiveArena.create, SlotCache.empty])
  · simp [ActiveArena.create]

lemma stage_sparse (ok : Loaded load arena) (sparse : arena.sparseSlots) (loc : Nat) :
    ∃ hit, SlotCache.Acquired arena.slots loc (arena.stage load loc).1.slots
        (arena.stage load loc).2 hit ∧
      (arena.stage load loc).1.bytes =
        Function.update arena.bytes (arena.stage load loc).2 (load loc) ∧
      (arena.stage load loc).1.sparseSlots := by
  have acq := ok.wf.acquire (ok.pos sparse) loc
  simp only [stage, if_pos sparse]
  refine ⟨_, acq, ?_, sparse⟩
  split_ifs with hit
  · -- a hit leaves the slot's bytes, which are the expert's
    rw [← ok.slot sparse _ _ (acq.had hit), Function.update_eq_self]
  · rfl

lemma stage_dense (ok : Loaded load arena) (dense : ¬ arena.sparseSlots) (loc : Nat) :
    arena.stage load loc =
      ({ arena with
         stagedLocal := insert loc arena.stagedLocal
         bytes := Function.update arena.bytes loc (load loc) }, loc) := by
  simp only [stage, if_neg dense]
  split_ifs with member
  · rw [Finset.insert_eq_of_mem member, ← ok.staged loc member dense, Function.update_eq_self]
  · rfl

lemma stage_bytes (ok : Loaded load arena) (loc : Nat) :
    (arena.stage load loc).1.bytes =
      Function.update arena.bytes (arena.stage load loc).2 (load loc) := by
  by_cases sparse : arena.sparseSlots
  · obtain ⟨_, _, bytes, _⟩ := stage_sparse ok sparse loc
    exact bytes
  · rw [stage_dense ok sparse]

lemma stage_sparseSlots (ok : Loaded load arena) (loc : Nat) :
    (arena.stage load loc).1.sparseSlots = arena.sparseSlots := by
  by_cases sparse : arena.sparseSlots
  · obtain ⟨_, _, _, same⟩ := stage_sparse ok sparse loc
    rw [same, sparse]
  · rw [stage_dense ok sparse]

lemma stage_capacity (ok : Loaded load arena) (loc : Nat) :
    (arena.stage load loc).1.slots.capacity = arena.slots.capacity := by
  by_cases sparse : arena.sparseSlots
  · obtain ⟨_, acq, _⟩ := stage_sparse ok sparse loc
    exact acq.capacity
  · rw [stage_dense ok sparse]

lemma Loaded.stage (ok : Loaded load arena) (loc : Nat) :
    Loaded load (arena.stage load loc).1 := by
  have mode := stage_sparseSlots ok loc
  have capacity := stage_capacity ok loc
  by_cases sparse : arena.sparseSlots
  · obtain ⟨hit, acq, bytes, _⟩ := stage_sparse ok sparse loc
    refine ⟨acq.wf, fun _ => by rw [capacity]; exact ok.pos sparse, fun _ s l has => ?_,
      fun l _ dense => absurd sparse (by rwa [mode] at dense)⟩
    rw [acq.keyAt, Function.update_apply] at has
    rw [bytes, Function.update_apply]
    split_ifs at has ⊢ with here
    · rw [Option.some.inj has]
    · exact ok.slot sparse s l has
  · rw [stage_dense ok sparse]
    refine ⟨ok.wf, fun h => absurd h sparse, fun h => absurd h sparse, fun l member _ => ?_⟩
    dsimp only
    rw [Function.update_apply]
    split_ifs with here
    · rw [here]
    · exact ok.staged l (Finset.mem_of_mem_insert_of_ne member here) sparse

lemma Reached.loaded {mode : ArenaMode} {expertsPerRank : Nat}
    (reached : Reached load mode expertsPerRank arena) :
    Loaded load arena ∧
      arena.sparseSlots = mode.isSparse ∧
      arena.slots.capacity = mode.capacity expertsPerRank := by
  induction reached with
  | create bytes => exact ⟨.create mode expertsPerRank bytes, rfl, rfl⟩
  | @stage arena loc _ ih =>
    obtain ⟨ok, sparse, capacity⟩ := ih
    exact ⟨ok.stage loc, (stage_sparseSlots ok loc).trans sparse,
      (stage_capacity ok loc).trans capacity⟩

/-! ## The experts of one token -/

lemma stageAll_cons (load : Nat → Bytes) (arena : ActiveArena Bytes) (loc : Nat) (rest : List Nat) :
    arena.stageAll load (loc :: rest) =
      (((arena.stage load loc).1.stageAll load rest).1,
        (arena.stage load loc).2 :: ((arena.stage load loc).1.stageAll load rest).2) := rfl

@[simp] lemma length_stageAll (load : Nat → Bytes) (arena : ActiveArena Bytes) (locs : List Nat) :
    (arena.stageAll load locs).2.length = locs.length := by
  induction locs generalizing arena with
  | nil => rfl
  | cons loc rest ih => simp [stageAll_cons, ih]

lemma stageAll_mode (ok : Loaded load arena) (locs : List Nat) :
    (arena.stageAll load locs).1.sparseSlots = arena.sparseSlots ∧
      (arena.stageAll load locs).1.slots.capacity = arena.slots.capacity := by
  induction locs generalizing arena with
  | nil => exact ⟨rfl, rfl⟩
  | cons loc rest ih =>
    obtain ⟨sparse, capacity⟩ := ih (ok.stage loc)
    exact ⟨sparse.trans (stage_sparseSlots ok loc), capacity.trans (stage_capacity ok loc)⟩

lemma stageAll_bytes (ok : Loaded load arena) (locs : List Nat) (s : Nat) :
    (arena.stageAll load locs).1.bytes s = arena.bytes s ∨
      ∃ loc ∈ locs, (arena.stageAll load locs).1.bytes s = load loc := by
  induction locs generalizing arena with
  | nil => exact .inl rfl
  | cons loc rest ih =>
    rcases ih (ok.stage loc) with same | ⟨l, member, here⟩
    · rw [stageAll_cons, same, stage_bytes ok, Function.update_apply]
      split_ifs with first
      · exact .inr ⟨loc, List.mem_cons_self, rfl⟩
      · exact .inl rfl
    · exact .inr ⟨l, List.mem_cons_of_mem loc member, here⟩

lemma stageAll_slots (ok : Loaded load arena) (locs : List Nat) :
    ∀ s ∈ (arena.stageAll load locs).2,
      ∃ loc ∈ locs, (arena.stageAll load locs).1.bytes s = load loc := by
  induction locs generalizing arena with
  | nil => simp [stageAll]
  | cons loc rest ih =>
    intro s member
    rw [stageAll_cons] at member ⊢
    rcases List.mem_cons.mp member with rfl | member
    · rcases stageAll_bytes (ok.stage loc) rest (arena.stage load loc).2 with same | ⟨l, inside, here⟩
      · refine ⟨loc, List.mem_cons_self, ?_⟩
        rw [same, stage_bytes ok, Function.update_self]
      · exact ⟨l, List.mem_cons_of_mem loc inside, here⟩
    · obtain ⟨l, inside, here⟩ := ih (ok.stage loc) s member
      exact ⟨l, List.mem_cons_of_mem loc inside, here⟩

lemma stageAll_lt (ok : Loaded load arena) (sparse : arena.sparseSlots) (locs : List Nat) :
    ∀ s ∈ (arena.stageAll load locs).2, s < arena.slots.capacity := by
  induction locs generalizing arena with
  | nil => simp [stageAll]
  | cons loc rest ih =>
    intro s member
    rw [stageAll_cons] at member
    rcases List.mem_cons.mp member with rfl | member
    · obtain ⟨_, acq, _⟩ := stage_sparse ok sparse loc
      rw [← acq.capacity]
      exact acq.wf.inside _ (by rw [acq.lru]; simp)
    · rw [← stage_capacity ok loc]
      exact ih (ok.stage loc) (by rwa [stage_sparseSlots ok loc]) s member

lemma stageAll_dense (ok : Loaded load arena) (dense : ¬ arena.sparseSlots) (locs : List Nat) :
    (arena.stageAll load locs).2 = locs ∧
      ∀ loc, arena.bytes loc = load loc ∨ loc ∈ locs →
        (arena.stageAll load locs).1.bytes loc = load loc := by
  induction locs generalizing arena with
  | nil => exact ⟨rfl, by simp [stageAll]⟩
  | cons loc rest ih =>
    obtain ⟨slots, held⟩ := ih (ok.stage loc) (by rwa [stage_sparseSlots ok loc])
    have here := stage_dense ok dense loc
    constructor
    · rw [stageAll_cons, slots, here]
    · intro l before
      refine held l ?_
      rw [here]
      dsimp only
      rw [Function.update_apply]
      split_ifs with first
      · exact .inl (by rw [first])
      · rcases before with old | member
        · exact .inl old
        · exact .inr (List.mem_of_ne_of_mem first member)

lemma stageAll_recent (ok : Loaded load arena) (sparse : arena.sparseSlots) {locs : List Nat}
    (nodup : locs.Nodup) {older recent : List Nat} (split : arena.slots.lru = older ++ recent)
    (other : ∀ s ∈ recent, ∀ loc ∈ locs, arena.slots.keyAt s ≠ some loc)
    (fits : recent.length + locs.length ≤ arena.slots.capacity) :
    (∀ s ∈ recent, (arena.stageAll load locs).1.bytes s = arena.bytes s) ∧
      List.Forall₂ (fun loc s => (arena.stageAll load locs).1.bytes s = load loc) locs
        (arena.stageAll load locs).2 := by
  induction locs generalizing arena older recent with
  | nil => exact ⟨fun _ _ => rfl, .nil⟩
  | cons loc rest ih =>
    obtain ⟨hit, acq, bytes, mode⟩ := stage_sparse ok sparse loc
    rw [List.length_cons] at fits
    have out := acq.recent ok.wf split (by omega)
      (fun s member => other s member loc List.mem_cons_self)
    -- the new slot joins the recent ones
    obtain ⟨older', split'⟩ : ∃ older', (arena.stage load loc).1.slots.lru =
        older' ++ (recent ++ [(arena.stage load loc).2]) := by
      rw [acq.lru, split]
      by_cases old : (arena.stage load loc).2 ∈ older
      · exact ⟨older.erase (arena.stage load loc).2, by rw [List.erase_append_left _ old]; simp⟩
      · refine ⟨older, ?_⟩
        rw [List.erase_of_not_mem (by simp [old, out])]
        simp
    have other' : ∀ s ∈ recent ++ [(arena.stage load loc).2], ∀ l ∈ rest,
        (arena.stage load loc).1.slots.keyAt s ≠ some l := by
      intro s member l inside
      rw [acq.keyAt, Function.update_apply]
      split_ifs with here
      · rintro e
        obtain rfl := Option.some.inj e
        exact (List.nodup_cons.mp nodup).1 inside
      · rcases List.mem_append.mp member with before | new
        · exact other s before l (List.mem_cons_of_mem loc inside)
        · exact absurd (List.mem_singleton.mp new) here
    obtain ⟨kept, staged⟩ := ih (ok.stage loc) mode (List.nodup_cons.mp nodup).2 split' other'
      (by rw [acq.capacity, List.length_append, List.length_singleton]; omega)
    refine ⟨fun s member => ?_, .cons ?_ staged⟩
    · have ne : s ≠ (arena.stage load loc).2 := fun e => out (e ▸ member)
      have := kept s (List.mem_append_left _ member)
      rw [bytes, Function.update_of_ne ne] at this
      exact this
    · have := kept _ (List.mem_append_right recent (List.mem_singleton_self _))
      rw [bytes, Function.update_self] at this
      exact this

/-- No more different experts than slots: after staging, each is where its slot says. -/
theorem stageAll_exact (ok : Loaded load arena) {locs : List Nat} (nodup : locs.Nodup)
    (fits : arena.sparseSlots → locs.length ≤ arena.slots.capacity) :
    List.Forall₂ (fun loc s => (arena.stageAll load locs).1.bytes s = load loc) locs
      (arena.stageAll load locs).2 := by
  by_cases sparse : arena.sparseSlots
  · have whole : arena.slots.lru = arena.slots.lru ++ [] := (List.append_nil _).symm
    exact (stageAll_recent ok sparse nodup whole (by simp) (by simpa using fits sparse)).2
  · obtain ⟨slots, held⟩ := stageAll_dense ok sparse locs
    rw [slots, List.forall₂_same]
    exact fun loc member => held loc (.inr member)

end ActiveArena

end PocketMoE.Engine
