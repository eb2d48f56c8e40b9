import Mathlib.Algebra.GroupWithZero.Nat
import PocketMoE.Lib.OrderedDict
import PocketMoE.Lib.SlotCache
import PocketMoE.Lib.Trans

/-!
# The pool of expert arenas

`active_fp4_arena`, `acquire_sparse_slot` and `release_active_arenas_with_suffix`
(`dsv4_engine.cpp`), with the arenas, the free list and the recency list that they share. An arena
keeps its entry for good; its buffers move to the free list when it is evicted or released, and it
gets buffers back from the free list or from `cudaMalloc`. A call may throw: `cudaMalloc` fails, or
a copy to the device does.

An iterator into one of the lists is written as the entry it points at, which stands there once.
`held` is not in the code: it records what was copied into a slot since the arena received its
buffers.
-/

namespace PocketMoE.Engine
open PocketMoE.Lib

/-- The key of an arena, which is text in the code. -/
structure ArenaKey where
  layerId : Nat
  tpWorld : Nat
  tpRank : Nat
  capacity : Nat
  sparse : Bool
deriving DecidableEq

/-- `ActiveArenaDeviceBuffers`: `w1`, `s1`, `w2`, `s2`, `w3`, `s3` as far as they are not null, and
the sizes of an expert's parts in them. -/
structure ArenaBlock where
  buffers : List Nat
  capacity : Nat
  bytes : List Nat
deriving DecidableEq

/-- `DeviceFp4ActiveArena`. An empty slot is `none` in `slotLocal`, `end()` is `none` in
`slotLruPos`. -/
structure PoolArena where
  buffers : List Nat
  capacity : Nat
  bytes : List Nat
  stagedLocal : List Nat
  sparseSlots : Bool
  slotByLocal : Nat → Option Nat
  slotLocal : List (Option Nat)
  slotLru : List Nat
  slotLruPos : List (Option Nat)
  held : Nat → Option Nat

/-- The limits of a call: of all arenas, of the dense and of the sparse ones. 0 is no limit. -/
structure ArenaCaps where
  all : Nat
  dense : Nat
  sparse : Nat

/-- The arenas of a context, and the device memory that is allocated. -/
structure ArenaPool where
  cache : OrderedDict ArenaKey PoolArena
  lru : List ArenaKey
  lruPos : ArenaKey → Option ArenaKey
  freelist : List ArenaBlock
  live : List Nat
  next : Nat
  /-- A read or write past the end of a table. -/
  faulted : Bool

namespace PoolArena

/-- An arena as `active_fp4_arena` makes it, without buffers. -/
def create (key : ArenaKey) (sample : List Nat) : PoolArena where
  buffers := []
  capacity := key.capacity
  bytes := sample
  stagedLocal := []
  sparseSlots := key.sparse
  slotByLocal := fun _ => none
  slotLocal := if key.sparse then List.replicate key.capacity none else []
  slotLru := []
  slotLruPos := if key.sparse then List.replicate key.capacity none else []
  held := fun _ => none

/-- The free list entry for the buffers of an arena. -/
def block (a : PoolArena) : ArenaBlock := ⟨a.buffers, a.capacity, a.bytes⟩

/-- `release_active_arena_device`, on the arena. -/
def released (a : PoolArena) : PoolArena :=
  { a with
    buffers := []
    stagedLocal := []
    slotByLocal := fun _ => none
    slotLocal := []
    slotLru := []
    slotLruPos := []
    held := fun _ => none }

/-- The buffers of a block or new ones, with nothing staged. -/
def receive (a : PoolArena) (buffers : List Nat) : PoolArena :=
  { a with buffers := buffers, stagedLocal := [], held := fun _ => none }

/-- The tables of an arena that has buffers again. -/
def reset (a : PoolArena) : PoolArena :=
  if a.sparseSlots then
    { a with
      stagedLocal := []
      slotByLocal := fun _ => none
      slotLru := []
      slotLruPos := List.replicate a.capacity none
      slotLocal := List.replicate a.capacity none }
  else { a with stagedLocal := [] }

/-- The search of `acquire_sparse_slot` for an empty slot, `none` past the end of the table. -/
def firstEmpty (slotLocal : List (Option Nat)) (s : Nat) : Nat → Option (Option Nat)
  | 0 => some none
  | n + 1 =>
    match slotLocal[s]? with
    | none => none
    | some none => some (some s)
    | some (some _) => firstEmpty slotLocal (s + 1) n

/-- The end of `acquire_sparse_slot`. -/
def assign (a : PoolArena) (slot loc : Nat) : Option (PoolArena × Nat × Bool) :=
  if slot < a.slotLocal.length ∧ slot < a.slotLruPos.length then
    some ({ a with
      slotLocal := a.slotLocal.set slot (some loc)
      slotByLocal := Function.update a.slotByLocal loc (some slot)
      slotLru := a.slotLru ++ [slot]
      slotLruPos := a.slotLruPos.set slot (some slot) }, slot, false)
  else none

/-- `acquire_sparse_slot`: the slot and whether the expert was staged, `none` if a table is too
short. -/
def acquireSparseSlot (a : PoolArena) (loc : Nat) : Option (PoolArena × Nat × Bool) :=
  match a.slotByLocal loc with
  | some slot =>
    match a.slotLruPos[slot]? with
    | some (some node) =>
      some ({ a with
        slotLru := a.slotLru.erase node ++ [slot]
        slotLruPos := a.slotLruPos.set slot (some slot) }, slot, true)
    | _ => none
  | none =>
    if a.slotLru.length < a.capacity then
      match firstEmpty a.slotLocal 0 a.capacity with
      | none => none
      | some found => a.assign (found.getD a.slotLru.length) loc
    else
      match a.slotLru with
      | [] => none
      | slot :: rest =>
        match a.slotLocal[slot]? with
        | none => none
        | some none => { a with slotLru := rest }.assign slot loc
        | some (some victim) =>
          { a with
            slotLru := rest
            slotByLocal := Function.update a.slotByLocal victim none }.assign slot loc

/-- The copies that stage an expert, which may fail. -/
def copy (a : PoolArena) (slot loc : Nat) (copied : Bool) : PoolArena :=
  { a with held := Function.update a.held slot (if copied then some loc else none) }

/-- The arena takes the expert to be in this slot. -/
def Reports (a : PoolArena) (loc slot : Nat) : Prop :=
  if a.sparseSlots then a.slotByLocal loc = some slot else loc ∈ a.stagedLocal ∧ slot = loc

end PoolArena

/-- The first entry of the free list that fits, and the others. -/
def popMatching (a : PoolArena) : List ArenaBlock → Option (ArenaBlock × List ArenaBlock)
  | [] => none
  | b :: rest =>
    if b.capacity = a.capacity ∧ b.bytes = a.bytes then some (b, rest)
    else (popMatching a rest).map fun found => (found.1, b :: found.2)

namespace ArenaPool

/-- A new context. -/
def init : ArenaPool where
  cache := .empty
  lru := []
  lruPos := fun _ => none
  freelist := []
  live := []
  next := 0
  faulted := false

/-- `release_active_arena_device`. -/
def release (s : ArenaPool) (key : ArenaKey) : ArenaPool :=
  match s.cache.get key with
  | none => s
  | some arena =>
    if arena.buffers = [] then s
    else
      { s with
        cache := s.cache.insert key arena.released
        freelist := s.freelist ++ [arena.block] }

/-- Take a key off the recency list, and release its arena. -/
def evict (s : ArenaPool) (key : ArenaKey) : ArenaPool :=
  { s with
    lru := s.lru.erase key
    lruPos := Function.update s.lruPos key none }.release key

/-- `evict_active_arena_if_needed`; the list is what is left of the recency list. -/
def evictIfNeeded (incoming : ArenaKey) (cap : Nat) : List ArenaKey → ArenaPool → ArenaPool
  | [], s => s
  | key :: rest, s =>
    if 0 < cap ∧ cap ≤ (key :: rest).length then
      if key = incoming then s else evictIfNeeded incoming cap rest (s.evict key)
    else s

/-- The loop of `touch_active_arena` that evicts arenas of one kind, as many as are too many. -/
def evictFrontIf (sparse : Bool) (key : ArenaKey) : Nat → ArenaPool → ArenaPool
  | 0, s => s
  | n + 1, s =>
    match s.lru.find? fun k => k.sparse = sparse ∧ k ≠ key with
    | none => s
    | some victim => evictFrontIf sparse key n (s.evict victim)

/-- How many arenas are more than the limit. -/
def excess (count cap : Nat) : Nat := if 0 < cap then count - cap else 0

/-- `touch_active_arena`, before it evicts. -/
def pushBack (s : ArenaPool) (key : ArenaKey) : ArenaPool :=
  { s with
    lru := ((s.lruPos key).elim s.lru fun node => s.lru.erase node) ++ [key]
    lruPos := Function.update s.lruPos key (some key) }

/-- `touch_active_arena`. -/
def touch (s : ArenaPool) (key : ArenaKey) (caps : ArenaCaps) : ArenaPool :=
  let s := s.pushBack key
  let sparseN := s.lru.countP fun k => k.sparse
  let denseN := s.lru.countP fun k => !k.sparse
  evictFrontIf false key (excess denseN caps.dense)
    (evictFrontIf true key (excess sparseN caps.sparse) s)

/-- The six calls of `cudaMalloc`, of which the first `mallocs` succeed. -/
def malloc (s : ArenaPool) (arena : PoolArena) (mallocs : Nat) : PoolArena × ArenaPool :=
  let new := List.range' s.next (min mallocs 6)
  (arena.receive new, { s with live := s.live ++ new, next := s.next + min mallocs 6 })

/-- The buffers for an arena, and whether there was no exception. -/
def giveBuffers (s : ArenaPool) (key : ArenaKey) (arena : PoolArena) (caps : ArenaCaps)
    (mallocs : Nat) : PoolArena × ArenaPool × Bool :=
  match popMatching arena s.freelist with
  | some (b, rest) => (arena.receive b.buffers, { s with freelist := rest }, true)
  | none =>
    let s := evictIfNeeded key caps.all s.lru s
    match popMatching arena s.freelist with
    | some (b, rest) => (arena.receive b.buffers, { s with freelist := rest }, true)
    | none =>
      let (arena, s) := s.malloc arena mallocs
      (arena, s, 6 ≤ mallocs)

/-- Store an arena under its key. -/
def put (s : ArenaPool) (key : ArenaKey) (arena : PoolArena) : ArenaPool :=
  { s with cache := s.cache.insert key arena }

/-- `active_fp4_arena`. An arena without an entry is lost with an exception. -/
def activeFp4Arena (s : ArenaPool) (key : ArenaKey) (sample : List Nat) (caps : ArenaCaps)
    (mallocs : Nat) : ArenaPool :=
  match s.cache.get key with
  | some arena =>
    if arena.buffers = [] then
      let (arena, s, ok) := s.giveBuffers key arena caps mallocs
      if ok then (s.put key arena.reset).touch key caps else s.put key arena
    else s.touch key caps
  | none =>
    let (arena, s, ok) := s.giveBuffers key (.create key sample) caps mallocs
    if ok then (s.put key arena).touch key caps else s

/-- Stage an expert in an arena. -/
def stage (s : ArenaPool) (key : ArenaKey) (arena : PoolArena) (loc : Nat) (copied : Bool) :
    ArenaPool :=
  if arena.sparseSlots then
    match arena.acquireSparseSlot loc with
    | none => { s with faulted := true }
    | some (arena, slot, alreadyStaged) =>
      s.put key (if alreadyStaged then arena else arena.copy slot loc copied)
  else if loc ∈ arena.stagedLocal then s
  else s.put key ({ arena with stagedLocal := loc :: arena.stagedLocal }.copy loc loc copied)

/-- One key of `release_active_arenas_with_suffix`. -/
def releaseVictim (s : ArenaPool) (key : ArenaKey) : ArenaPool :=
  match s.lruPos key with
  | none => s.release key
  | some node =>
    { s with
      lru := s.lru.erase node
      lruPos := Function.update s.lruPos key none }.release key

/-- The end of `release_active_arenas_with_suffix`: the free list is freed. -/
def freeAll (s : ArenaPool) : ArenaPool :=
  { s with
    live := s.live.filter fun p => p ∉ s.freelist.flatMap ArenaBlock.buffers
    freelist := [] }

/-- `release_active_arenas_with_suffix`. -/
def releaseWithSuffix (s : ArenaPool) (suffix : ArenaKey → Bool) : ArenaPool :=
  (((s.cache.entries.map Prod.fst).filter suffix).foldl releaseVictim s).freeAll

/-- A call, and which of its calls of CUDA succeed. -/
inductive Call where
  | activeFp4Arena (key : ArenaKey) (sample : List Nat) (caps : ArenaCaps) (mallocs : Nat)
  | stage (key : ArenaKey) (loc : Nat) (copied : Bool)
  | releaseWithSuffix (suffix : ArenaKey → Bool)

/-- What a call does. -/
def perform (s : ArenaPool) : Call → ArenaPool
  | .activeFp4Arena key sample caps mallocs => s.activeFp4Arena key sample caps mallocs
  | .stage key loc copied =>
    match s.cache.get key with
    | none => s
    | some arena => s.stage key arena loc copied
  | .releaseWithSuffix suffix => s.releaseWithSuffix suffix

/-- A sparse arena has slots, and experts are staged in an arena that has its buffers. -/
def Allowed (s : ArenaPool) : Call → Bool
  | .activeFp4Arena key _ _ _ => !key.sparse || 0 < key.capacity
  | .stage key _ _ => (s.cache.get key).any fun arena => !arena.buffers.isEmpty
  | .releaseWithSuffix _ => true

/-- One call. -/
inductive Step : ArenaPool → Call → ArenaPool → Prop where
  | call (s : ArenaPool) (c : Call) : s.Allowed c = true → Step s c (s.perform c)

/-- The steps of some calls. -/
def traceFrom (s : ArenaPool) : List Call → List (ArenaPool × Call)
  | [] => []
  | c :: calls => (s, c) :: traceFrom (s.perform c) calls

/-- The calls are allowed, one after the other. -/
def allAllowed (s : ArenaPool) : List Call → Bool
  | [] => true
  | c :: calls => s.Allowed c && allAllowed (s.perform c) calls

lemma run_traceFrom (s : ArenaPool) {calls : List Call} (allowed : s.allAllowed calls = true) :
    Run Step s (s.traceFrom calls) (calls.foldl perform s) := by
  induction calls generalizing s with
  | nil => exact .nil s
  | cons c calls ih =>
    obtain ⟨here, rest⟩ := (Bool.and_eq_true _ _).mp allowed
    exact .cons (.call s c here) (ih (s.perform c) rest)

/-- No call of `cudaMalloc` fails after the first one of a block, and no copy fails. -/
def Succeeds : Call → Prop
  | .activeFp4Arena _ _ _ mallocs => mallocs = 0 ∨ 6 ≤ mallocs
  | .stage _ _ copied => copied = true
  | .releaseWithSuffix _ => True

/-- How often a buffer is in an arena or in the free list. -/
def owners (s : ArenaPool) (p : Nat) : Nat :=
  (s.cache.entries.map fun e => e.2.buffers.count p).sum +
    (s.freelist.map fun b => b.buffers.count p).sum

/-- The books of a pool are in order. -/
structure Bookkeeping (s : ArenaPool) : Prop where
  owned : ∀ p, s.owners p = if p ∈ s.live then 1 else 0
  recency : s.lru.Nodup ∧ ∀ key, s.lruPos key = if key ∈ s.lru then some key else none
  tables : ∀ key arena, (key, arena) ∈ s.cache.entries → arena.buffers ≠ [] →
    arena.sparseSlots = true → arena.slotLocal.length = arena.capacity ∧
      arena.slotLruPos.length = arena.capacity ∧ ∀ loc slot, arena.slotByLocal loc = some slot →
        slot < arena.capacity ∧ ∀ loc', arena.slotByLocal loc' = some slot → loc' = loc
  staged : ∀ key arena, (key, arena) ∈ s.cache.entries → ∀ loc slot, arena.Reports loc slot →
    arena.held slot = some loc
  inside : s.faulted = false

end ArenaPool

end PocketMoE.Engine
