import Mathlib.Algebra.GroupWithZero.Nat
import PocketMoE.Lib.OrderedDict
import PocketMoE.Lib.Trans

/-!
# The slot cache of GGUF decode

`MoE._gguf_decode_slot_cache_get`, and the grouping of `_forward_gguf_decode_grouped`
(`runtime.py`). The experts of this rank that a token is routed to are kept in slots, by recency.
A call may stop anywhere: a read fails or reports another type, `torch.empty` or a copy raises; the
caller then goes on without the cache.

`slots_runs`: in every run no two experts share a slot and every slot holds its expert's blocks. The
slots that a call returns are one for each expert of the token; they are one for each route exactly
when the row names no expert twice (`twice_routed`).
-/

namespace PocketMoE.Runtime.DecodeSlots
open PocketMoE.Lib

/-- The projections of an expert, in the order in which they are read and copied. -/
inductive Part
  | w1
  | w3
  | w2
deriving DecidableEq

/-- The type names of GGUF blocks, as far as the cache tells them apart. -/
inductive BlockType
  | iq2Xxs
  | q2K
  | other (name : Nat)
deriving DecidableEq

/-- `_gguf_decode_slot_meta`: the type and the input size of the blocks of each projection. -/
structure SlotMeta where
  w1 : BlockType × Nat
  w3 : BlockType × Nat
  w2 : BlockType × Nat
deriving DecidableEq

/-- `torch.empty((size,) + shape)`, and the blocks that have been copied into it. -/
structure Stack (B : Type) where
  size : Nat
  rows : Nat → Option B

/-- The fields of a `MoE` that the cache uses. -/
structure SlotState (B D : Type) where
  device : Option D
  slotMeta : Option SlotMeta
  cache : OrderedDict Nat Nat
  slotStacks : Part → Option (Stack B)

/-- The settings of a `MoE`, and the blocks of its experts by local number. -/
structure SlotConfig (B : Type) where
  enabled : Bool
  capacity : Nat
  expertsStartIdx : Int
  nLocalExperts : Nat
  blocks : Nat → Part → B

/-- A call for one token: its row of experts, the device, what reading an expert reports unless it
fails, how many of the calls of `torch.empty` succeed, and how many of the copies of an expert. -/
structure SlotCall (D : Type) where
  row : List Int
  device : D
  read : Nat → Option SlotMeta
  emptied : Nat
  copied : Nat → Nat

/-- The projections that the first steps have handled. -/
def firstParts (n : Nat) : List Part := [Part.w1, .w3, .w2].take n

section

variable {B D : Type} [DecidableEq D] (cfg : SlotConfig B) (call : SlotCall D)

/-- The local experts of a row, in the order of its routes. -/
def localRoutes (row : List Int) : List Nat :=
  row.filterMap fun expert =>
    if 0 ≤ expert - cfg.expertsStartIdx ∧ expert - cfg.expertsStartIdx < cfg.nLocalExperts then
      some (expert - cfg.expertsStartIdx).toNat
    else none

/-- `local_ids_cpu`: each of them once, in ascending order. -/
def localIds (row : List Int) : List Nat :=
  (List.range cfg.nLocalExperts).filter fun loc => loc ∈ localRoutes cfg row

/-- The experts of the routes in the order of `route_weights`: those of one expert together. -/
def groupedRoutes (row : List Int) : List Nat :=
  (localIds cfg row).flatMap fun loc => List.replicate ((localRoutes cfg row).count loc) loc

/-- The cache has to be set up for this call. -/
def stale (s : SlotState B D) : Bool :=
  s.device ≠ some call.device || s.slotMeta.isNone || (s.slotStacks .w1).isNone ||
    (s.slotStacks .w3).isNone || (s.slotStacks .w2).isNone ||
    ((s.slotStacks .w1).map Stack.size != some cfg.capacity)

/-- New stacks for the blocks, as many as `torch.empty` returned. -/
def emptyStacks (s : SlotState B D) (slotMeta : SlotMeta) : SlotState B D where
  device := some call.device
  slotMeta := some slotMeta
  cache := .empty
  slotStacks := fun part =>
    if part ∈ firstParts call.emptied then some ⟨cfg.capacity, fun _ => none⟩ else s.slotStacks part

/-- The copies of an expert's blocks into a slot, as many as succeed. -/
def copyBlocks (s : SlotState B D) (slot loc : Nat) : SlotState B D :=
  { s with
    slotStacks := fun part =>
      if part ∈ firstParts (call.copied loc) then
        (s.slotStacks part).map fun stack =>
          { stack with rows := Function.update stack.rows slot (some (cfg.blocks loc part)) }
      else s.slotStacks part }

/-- The slot for an expert that has none, and the entries without the one that gives way. -/
def freeSlot (cache : OrderedDict Nat Nat) : Option (Nat × OrderedDict Nat Nat) :=
  if cfg.capacity ≤ cache.entries.length then
    cache.entries.head?.map fun oldest => (oldest.2, cache.dropOldest 1)
  else
    ((List.range cfg.capacity).find? fun slot => slot ∉ cache.entries.map Prod.snd).map
      fun slot => (slot, cache)

/-- One expert of the loop, with the slot it is given. -/
def slotFor (slotMeta : SlotMeta) (s : SlotState B D) (loc : Nat) : Option Nat × SlotState B D :=
  match s.cache.get loc with
  | some slot => (some slot, { s with cache := (s.cache.erase loc).insert loc slot })
  | none =>
    match freeSlot cfg s.cache with
    | none => (none, s)
    | some (slot, cache) =>
      let s := { s with cache := cache }
      if call.read loc = some slotMeta then
        let s := copyBlocks cfg call s slot loc
        if 3 ≤ call.copied loc then (some slot, { s with cache := s.cache.insert loc slot })
        else (none, s)
      else (none, s)

/-- The loop over the experts. -/
def slotsFor (slotMeta : SlotMeta) : SlotState B D → List Nat → Option (List Nat) × SlotState B D
  | s, [] => (some [], s)
  | s, loc :: rest =>
    match slotFor cfg call slotMeta s loc with
    | (none, s) => (none, s)
    | (some slot, s) =>
      match slotsFor slotMeta s rest with
      | (none, s) => (none, s)
      | (some slots, s) => (some (slot :: slots), s)

/-- `_gguf_decode_slot_cache_get` for the experts of a row: the slots, unless it stops. -/
def slotCacheGet (s : SlotState B D) : Option (List Nat) × SlotState B D :=
  let ids := localIds cfg call.row
  if !cfg.enabled || cfg.capacity = 0 || cfg.capacity < ids.length then (none, s)
  else if stale cfg call s then
    match ids.head?.bind call.read with
    | none => (none, s)
    | some slotMeta =>
      if slotMeta.w1.1 ≠ .iq2Xxs ∨ slotMeta.w3.1 ≠ .iq2Xxs ∨ slotMeta.w2.1 ≠ .q2K then (none, s)
      else
        let s := emptyStacks cfg call s slotMeta
        if 3 ≤ call.emptied then slotsFor cfg call slotMeta s ids else (none, s)
  else
    match s.slotMeta with
    | none => (none, s)
    | some slotMeta => slotsFor cfg call slotMeta s ids

/-- A `MoE` before its first token. -/
def SlotState.init : SlotState B D where
  device := none
  slotMeta := none
  cache := .empty
  slotStacks := fun _ => none

/-- One call. -/
inductive Step (cfg : SlotConfig B) : SlotState B D → SlotCall D → SlotState B D → Prop where
  | get (s : SlotState B D) (call : SlotCall D) : Step cfg s call (slotCacheGet cfg call s).2

/-- The slot has the blocks of the expert. -/
def Holds (s : SlotState B D) (slot loc : Nat) : Prop :=
  ∀ part, ∃ stack, s.slotStacks part = some stack ∧ stack.rows slot = some (cfg.blocks loc part)

/-- No two experts share a slot, and every slot in use has the blocks of its expert. -/
structure Mapped (cfg : SlotConfig B) (s : SlotState B D) : Prop where
  slots : (s.cache.entries.map Prod.snd).Nodup
  inside : ∀ e ∈ s.cache.entries, e.2 < cfg.capacity
  holds : ∀ e ∈ s.cache.entries, Holds cfg s e.2 e.1

/-- The kernel finds the blocks of its expert for every route. -/
def Aligned (s : SlotState B D) (row : List Int) (slots : List Nat) : Prop :=
  List.Forall₂ (fun loc slot => Holds cfg s slot loc) (groupedRoutes cfg row) slots

end

section

variable {B D : Type} {cfg : SlotConfig B} {call : SlotCall D} {s t : SlotState B D}
  {slotMeta : SlotMeta} {loc slot : Nat} {cache rest : OrderedDict Nat Nat}
  {recent : List (Nat × Nat)} {row : List Int} {found : Option Nat}

/-! ## The state -/

/-- Every projection has its stack. -/
def Stacked (s : SlotState B D) : Prop := ∀ part, (s.slotStacks part).isSome

lemma mem_firstParts (part : Part) {n : Nat} (all : 3 ≤ n) : part ∈ firstParts n := by
  rw [firstParts, List.take_of_length_le (by simpa using all)]
  cases part <;> decide

lemma Mapped.empty (none : s.cache = .empty) : Mapped cfg s where
  slots := by rw [none]; exact List.nodup_nil
  inside e member := by rw [none] at member; cases member
  holds e member := by rw [none] at member; cases member

lemma Mapped.sub (mapped : Mapped cfg s) (sub : rest.entries.Sublist s.cache.entries) :
    Mapped cfg { s with cache := rest } where
  slots := mapped.slots.sublist (sub.map Prod.snd)
  inside e member := mapped.inside e (sub.subset member)
  holds e member := mapped.holds e (sub.subset member)

lemma Mapped.insert (mapped : Mapped cfg s) (new : s.cache.get loc = none)
    (free : slot ∉ s.cache.entries.map Prod.snd) (small : slot < cfg.capacity)
    (holds : Holds cfg s slot loc) : Mapped cfg { s with cache := s.cache.insert loc slot } := by
  have entries : (s.cache.insert loc slot).entries = s.cache.entries ++ [(loc, slot)] :=
    OrderedDict.entries_insert new
  constructor
  · show ((s.cache.insert loc slot).entries.map Prod.snd).Nodup
    rw [entries, List.map_append]
    refine List.nodup_append.mpr ⟨mapped.slots, List.nodup_singleton _, fun a old b last eq => ?_⟩
    rw [eq, List.mem_singleton.mp last] at old
    exact free old
  · intro e member
    rw [entries, List.mem_append, List.mem_singleton] at member
    obtain old | rfl := member
    · exact mapped.inside e old
    · exact small
  · intro e member
    rw [entries, List.mem_append, List.mem_singleton] at member
    obtain old | rfl := member
    · exact mapped.holds e old
    · exact holds

lemma copyBlocks_stack (part : Part) : (copyBlocks cfg call s slot loc).slotStacks part =
    if part ∈ firstParts (call.copied loc) then
      (s.slotStacks part).map fun stack =>
        { stack with rows := Function.update stack.rows slot (some (cfg.blocks loc part)) }
    else s.slotStacks part := rfl

lemma Stacked.copied (stacked : Stacked s) : Stacked (copyBlocks cfg call s slot loc) := by
  intro part
  rw [copyBlocks_stack]
  split_ifs with copied
  · rw [Option.isSome_map]
    exact stacked part
  · exact stacked part

lemma Holds.copied {other slot' : Nat} (holds : Holds cfg s slot' other) (ne : slot' ≠ slot) :
    Holds cfg (copyBlocks cfg call s slot loc) slot' other := by
  intro part
  obtain ⟨stack, here, row⟩ := holds part
  rw [copyBlocks_stack]
  split_ifs with copied
  · exact ⟨_, by rw [here]; rfl, (Function.update_of_ne ne _ _).trans row⟩
  · exact ⟨stack, here, row⟩

lemma holds_copyBlocks (stacked : Stacked s) (all : 3 ≤ call.copied loc) :
    Holds cfg (copyBlocks cfg call s slot loc) slot loc := by
  intro part
  obtain ⟨stack, here⟩ := Option.isSome_iff_exists.mp (stacked part)
  rw [copyBlocks_stack, if_pos (mem_firstParts part all), here]
  exact ⟨_, rfl, Function.update_self ..⟩

lemma Mapped.copied (mapped : Mapped cfg s) (free : slot ∉ s.cache.entries.map Prod.snd) :
    Mapped cfg (copyBlocks cfg call s slot loc) where
  slots := mapped.slots
  inside := mapped.inside
  holds e member := (mapped.holds e member).copied fun same =>
    free (same ▸ List.mem_map_of_mem member)

/-! ## One expert -/

lemma freeSlot_sub (free : freeSlot cfg cache = some (slot, rest)) :
    rest.entries.Sublist cache.entries := by
  unfold freeSlot at free
  split_ifs at free with full
  · obtain ⟨oldest, -, eq⟩ := Option.map_eq_some_iff.mp free
    obtain rfl := (Prod.mk.inj eq).2
    exact List.drop_sublist 1 cache.entries
  · obtain ⟨_, -, eq⟩ := Option.map_eq_some_iff.mp free
    obtain rfl := (Prod.mk.inj eq).2
    exact List.Sublist.refl _

lemma freeSlot_free (mapped : Mapped cfg s) (free : freeSlot cfg s.cache = some (slot, rest)) :
    slot < cfg.capacity ∧ slot ∉ rest.entries.map Prod.snd := by
  unfold freeSlot at free
  split_ifs at free with full
  · obtain ⟨oldest, here, eq⟩ := Option.map_eq_some_iff.mp free
    obtain ⟨rfl, rfl⟩ := Prod.mk.inj eq
    obtain ⟨back, entries⟩ : ∃ back, s.cache.entries = oldest :: back :=
      List.head?_eq_some_iff.mp here
    have slots := mapped.slots
    rw [entries, List.map_cons] at slots
    refine ⟨mapped.inside oldest (by rw [entries]; exact List.mem_cons_self ..), ?_⟩
    show oldest.2 ∉ (s.cache.entries.drop 1).map Prod.snd
    rw [entries]
    exact (List.nodup_cons.mp slots).1
  · obtain ⟨_, here, eq⟩ := Option.map_eq_some_iff.mp free
    obtain ⟨rfl, rfl⟩ := Prod.mk.inj eq
    have unused := List.find?_some here
    exact ⟨List.mem_range.mp (List.mem_of_find?_eq_some here), of_decide_eq_true unused⟩

lemma freeSlot_recent (free : freeSlot cfg cache = some (slot, rest))
    (kept : recent <:+ cache.entries) (few : recent.length < cfg.capacity) :
    recent <:+ rest.entries := by
  unfold freeSlot at free
  split_ifs at free with full
  · obtain ⟨oldest, -, eq⟩ := Option.map_eq_some_iff.mp free
    obtain rfl := (Prod.mk.inj eq).2
    show recent <:+ cache.entries.drop 1
    obtain ⟨older, split⟩ := kept
    cases older with
    | nil =>
      rw [← split, List.nil_append] at full
      omega
    | cons first older =>
      rw [← split]
      exact List.suffix_append older recent
  · obtain ⟨_, -, eq⟩ := Option.map_eq_some_iff.mp free
    obtain rfl := (Prod.mk.inj eq).2
    exact kept

/-- What one expert of the loop can do. -/
inductive SlotOutcome (cfg : SlotConfig B) (call : SlotCall D) (s : SlotState B D) (loc : Nat) :
    Option Nat → SlotState B D → Prop where
  | hit (slot : Nat) (has : s.cache.get loc = some slot) :
    SlotOutcome cfg call s loc (some slot)
      { s with cache := (s.cache.erase loc).insert loc slot }
  | stuck : SlotOutcome cfg call s loc none s
  | unread (slot : Nat) (rest : OrderedDict Nat Nat) (new : s.cache.get loc = none)
    (free : freeSlot cfg s.cache = some (slot, rest)) :
    SlotOutcome cfg call s loc none { s with cache := rest }
  | torn (slot : Nat) (rest : OrderedDict Nat Nat) (new : s.cache.get loc = none)
    (free : freeSlot cfg s.cache = some (slot, rest)) :
    SlotOutcome cfg call s loc none (copyBlocks cfg call { s with cache := rest } slot loc)
  | filled (slot : Nat) (rest : OrderedDict Nat Nat) (new : s.cache.get loc = none)
    (free : freeSlot cfg s.cache = some (slot, rest)) (all : 3 ≤ call.copied loc) :
    SlotOutcome cfg call s loc (some slot)
      { copyBlocks cfg call { s with cache := rest } slot loc with
        cache := rest.insert loc slot }

variable (cfg call) in
lemma slotFor_cases (slotMeta : SlotMeta) (s : SlotState B D) (loc : Nat) :
    SlotOutcome cfg call s loc (slotFor cfg call slotMeta s loc).1
      (slotFor cfg call slotMeta s loc).2 := by
  unfold slotFor
  cases has : s.cache.get loc with
  | some slot => exact .hit slot has
  | none =>
    cases free : freeSlot cfg s.cache with
    | none => exact .stuck
    | some given =>
      obtain ⟨slot, rest⟩ := given
      dsimp only
      by_cases read : call.read loc = some slotMeta
      · by_cases all : 3 ≤ call.copied loc
        · rw [if_pos read, if_pos all]
          exact .filled slot rest has free all
        · rw [if_pos read, if_neg all]
          exact .torn slot rest has free
      · rw [if_neg read]
        exact .unread slot rest has free

lemma get_none_of_sub (sub : rest.entries.Sublist cache.entries) (new : cache.get loc = none) :
    rest.get loc = none := by
  refine Option.eq_none_iff_forall_ne_some.mpr fun v has => ?_
  rw [OrderedDict.get_eq_some.mpr (sub.subset (OrderedDict.get_eq_some.mp has))] at new
  cases new

lemma entries_renew (cache : OrderedDict Nat Nat) (loc slot : Nat) :
    ((cache.erase loc).insert loc slot).entries =
      cache.entries.filter (·.1 ≠ loc) ++ [(loc, slot)] :=
  OrderedDict.entries_insert (cache.get_erase loc)

lemma Mapped.slotFor (mapped : Mapped cfg s) (stacked : Stacked s)
    (out : SlotOutcome cfg call s loc found t) : Mapped cfg t ∧ Stacked t := by
  cases out with
  | hit slot has =>
    have member := OrderedDict.get_eq_some.mp has
    have erased : Mapped cfg { s with cache := s.cache.erase loc } :=
      mapped.sub List.filter_sublist
    refine ⟨erased.insert (s.cache.get_erase loc) ?_ (mapped.inside _ member)
      (mapped.holds _ member), stacked⟩
    rintro taken
    obtain ⟨e, kept, same⟩ := List.mem_map.mp taken
    obtain ⟨old, other⟩ := List.mem_filter.mp kept
    obtain rfl := List.inj_on_of_nodup_map mapped.slots old member same
    simp at other
  | stuck => exact ⟨mapped, stacked⟩
  | unread slot rest new free => exact ⟨mapped.sub (freeSlot_sub free), stacked⟩
  | torn slot rest new free =>
    exact ⟨(mapped.sub (freeSlot_sub free)).copied (freeSlot_free mapped free).2,
      Stacked.copied (s := { s with cache := rest }) stacked⟩
  | filled slot rest new free all =>
    obtain ⟨small, unused⟩ := freeSlot_free mapped free
    have left := mapped.sub (freeSlot_sub free)
    have copied : Mapped cfg (copyBlocks cfg call { s with cache := rest } slot loc) :=
      left.copied unused
    exact ⟨copied.insert (get_none_of_sub (freeSlot_sub free) new) unused small
      (holds_copyBlocks stacked all), Stacked.copied (s := { s with cache := rest }) stacked⟩

lemma slotFor_recent (out : SlotOutcome cfg call s loc (some slot) t)
    (kept : recent <:+ s.cache.entries) (few : recent.length < cfg.capacity)
    (new : loc ∉ recent.map Prod.fst) : recent ++ [(loc, slot)] <:+ t.cache.entries := by
  cases out with
  | hit _ has =>
    have others : recent.filter (·.1 ≠ loc) = recent :=
      List.filter_eq_self.mpr fun e member => decide_eq_true fun same =>
        new (same ▸ List.mem_map_of_mem member)
    have still : recent <:+ s.cache.entries.filter (·.1 ≠ loc) := by
      rw [← others]
      exact kept.filter _
    show recent ++ [(loc, slot)] <:+ ((s.cache.erase loc).insert loc slot).entries
    rw [entries_renew]
    obtain ⟨older, split⟩ := still
    exact ⟨older, by rw [← split, List.append_assoc]⟩
  | filled _ rest gone free all =>
    show recent ++ [(loc, slot)] <:+ (rest.insert loc slot).entries
    rw [OrderedDict.entries_insert (get_none_of_sub (freeSlot_sub free) gone)]
    obtain ⟨older, split⟩ := freeSlot_recent free kept few
    exact ⟨older, by rw [← split, List.append_assoc]⟩

/-! ## The loop -/

variable (call) in
lemma slotsFor_spec (slotMeta : SlotMeta) (ids : List Nat) (mapped : Mapped cfg s)
    (stacked : Stacked s) (kept : recent <:+ s.cache.entries) (few : recent.length + ids.length ≤ cfg.capacity)
    (nodup : (recent.map Prod.fst ++ ids).Nodup) :
    Mapped cfg (slotsFor cfg call slotMeta s ids).2 ∧
      ∀ slots, (slotsFor cfg call slotMeta s ids).1 = some slots →
        slots.length = ids.length ∧
          recent ++ ids.zip slots <:+ (slotsFor cfg call slotMeta s ids).2.cache.entries := by
  induction ids generalizing s recent with
  | nil =>
    refine ⟨mapped, fun slots out => ?_⟩
    obtain rfl := Option.some.inj out
    exact ⟨rfl, by rw [List.zip_nil_left, List.append_nil]; exact kept⟩
  | cons loc ids ih =>
    have out := slotFor_cases cfg call slotMeta s loc
    rw [slotsFor]
    generalize slotFor cfg call slotMeta s loc = result at out ⊢
    obtain ⟨found, t⟩ := result
    obtain ⟨after, filled⟩ := mapped.slotFor stacked out
    cases found with
    | none => exact ⟨after, fun slots out => nomatch out⟩
    | some slot =>
      rw [List.length_cons] at few
      have new : loc ∉ recent.map Prod.fst := fun old =>
        (List.nodup_append.mp nodup).2.2 loc old loc (List.mem_cons_self ..) rfl
      have joined := slotFor_recent out kept (by omega) new
      have rest := ih after filled joined
        (by rw [List.length_append, List.length_singleton]; omega)
        (by rwa [List.map_append, List.append_assoc])
      dsimp only
      generalize slotsFor cfg call slotMeta t ids = result at rest ⊢
      obtain ⟨found, u⟩ := result
      cases found with
      | none => exact ⟨rest.1, fun slots out => nomatch out⟩
      | some slots' =>
        refine ⟨rest.1, fun slots out => ?_⟩
        obtain rfl := Option.some.inj out
        obtain ⟨length, suffix⟩ := rest.2 slots' rfl
        refine ⟨by rw [List.length_cons, List.length_cons, length], ?_⟩
        rwa [List.append_assoc] at suffix

end

section

variable {B D : Type} [DecidableEq D] {cfg : SlotConfig B} {call : SlotCall D}
  {s t : SlotState B D} {row : List Int} {slots : List Nat}

/-! ## The routes -/

lemma mem_localIds {loc : Nat} : loc ∈ localIds cfg row ↔ loc ∈ localRoutes cfg row := by
  rw [localIds, List.mem_filter, decide_eq_true_eq, List.mem_range, and_iff_right_iff_imp]
  intro member
  obtain ⟨expert, -, here⟩ := List.mem_filterMap.mp member
  split_ifs at here with inside
  obtain rfl := Option.some.inj here
  omega

lemma nodup_localIds : (localIds cfg row).Nodup := List.nodup_range.filter _

lemma groupedRoutes_of_nodup (nodup : (localRoutes cfg row).Nodup) :
    groupedRoutes cfg row = localIds cfg row := by
  have once : ∀ loc ∈ localIds cfg row,
      List.replicate ((localRoutes cfg row).count loc) loc = [loc] := fun loc member => by
    rw [List.count_eq_one_of_mem nodup (mem_localIds.mp member), List.replicate_one]
  rw [groupedRoutes, List.flatMap_def, List.map_congr_left once]
  exact List.flatMap_singleton' (localIds cfg row)

lemma all_one {l : List Nat} {f : Nat → Nat} (pos : ∀ x ∈ l, 1 ≤ f x)
    (sum : (l.map f).sum = l.length) : ∀ x ∈ l, f x = 1 := by
  have above : ∀ l : List Nat, (∀ x ∈ l, 1 ≤ f x) → l.length ≤ (l.map f).sum := fun l pos => by
    induction l with
    | nil => exact Nat.zero_le _
    | cons y l ih =>
      obtain ⟨first, others⟩ := List.forall_mem_cons.mp pos
      have rest := ih others
      rw [List.map_cons, List.sum_cons, List.length_cons]
      omega
  induction l with
  | nil => exact fun x member => absurd member List.not_mem_nil
  | cons y l ih =>
    obtain ⟨first, others⟩ := List.forall_mem_cons.mp pos
    have least := above l others
    rw [List.map_cons, List.sum_cons, List.length_cons] at sum
    exact List.forall_mem_cons.mpr ⟨by omega, ih others (by omega)⟩

lemma nodup_of_length (same : (groupedRoutes cfg row).length = (localIds cfg row).length) :
    (localRoutes cfg row).Nodup := by
  rw [groupedRoutes, List.length_flatMap] at same
  simp only [List.length_replicate] at same
  have once := all_one (fun loc member => List.one_le_count_iff.mpr (mem_localIds.mp member)) same
  exact List.nodup_iff_count_eq_one.mpr fun loc member => once loc (mem_localIds.mpr member)

/-! ## Calls -/

/-- A call gives up, or runs the loop from a state whose projections have their stacks. -/
inductive CallOutcome (cfg : SlotConfig B) (call : SlotCall D) (s : SlotState B D) :
    Option (List Nat) × SlotState B D → Prop where
  | refused : CallOutcome cfg call s (none, s)
  | unmade (slotMeta : SlotMeta) : CallOutcome cfg call s (none, emptyStacks cfg call s slotMeta)
  | looped (slotMeta : SlotMeta) (start : SlotState B D)
    (from' : start = s ∨ start = emptyStacks cfg call s slotMeta) (stacked : Stacked start)
    (few : (localIds cfg call.row).length ≤ cfg.capacity) :
    CallOutcome cfg call s (slotsFor cfg call slotMeta start (localIds cfg call.row))

lemma slotCacheGet_cases (cfg : SlotConfig B) (call : SlotCall D) (s : SlotState B D) :
    CallOutcome cfg call s (slotCacheGet cfg call s) := by
  unfold slotCacheGet
  dsimp only
  by_cases off : !cfg.enabled || cfg.capacity = 0 || cfg.capacity < (localIds cfg call.row).length
  · rw [if_pos off]
    exact .refused
  have few : (localIds cfg call.row).length ≤ cfg.capacity := by
    simp only [Bool.or_eq_true, decide_eq_true_eq, not_or] at off
    omega
  rw [if_neg off]
  by_cases cold : stale cfg call s
  · rw [if_pos cold]
    cases (localIds cfg call.row).head?.bind call.read with
    | none => exact .refused
    | some slotMeta =>
      dsimp only
      by_cases other : slotMeta.w1.1 ≠ .iq2Xxs ∨ slotMeta.w3.1 ≠ .iq2Xxs ∨ slotMeta.w2.1 ≠ .q2K
      · rw [if_pos other]
        exact .refused
      rw [if_neg other]
      by_cases all : 3 ≤ call.emptied
      · rw [if_pos all]
        refine .looped slotMeta _ (Or.inr rfl) (fun part => ?_) few
        show (if part ∈ firstParts call.emptied then _ else _ : Option (Stack B)).isSome
        rw [if_pos (mem_firstParts part all)]
        rfl
      · rw [if_neg all]
        exact .unmade slotMeta
  · rw [if_neg cold]
    cases s.slotMeta with
    | none => exact .refused
    | some slotMeta =>
      refine .looped slotMeta s (Or.inl rfl) (fun part => ?_) few
      simp only [stale, Bool.or_eq_true, Option.isNone_iff_eq_none, not_or] at cold
      cases part <;> rw [Option.isSome_iff_ne_none] <;> tauto

omit [DecidableEq D] in
lemma Mapped.answered {result : Option (List Nat) × SlotState B D} (mapped : Mapped cfg s)
    (out : CallOutcome cfg call s result) :
    Mapped cfg result.2 ∧ ∀ slots, result.1 = some slots →
      List.Forall₂ (fun loc slot => Holds cfg result.2 slot loc) (localIds cfg call.row) slots := by
  cases out with
  | refused => exact ⟨mapped, fun slots found => nomatch found⟩
  | unmade slotMeta => exact ⟨.empty rfl, fun slots found => nomatch found⟩
  | looped slotMeta start from' stacked few =>
    have ready : Mapped cfg start := by
      obtain rfl | rfl := from'
      · exact mapped
      · exact .empty rfl
    obtain ⟨after, out⟩ := slotsFor_spec call slotMeta (localIds cfg call.row) ready stacked List.nil_suffix (by simpa using few)
      (by simpa using nodup_localIds)
    refine ⟨after, fun slots found => ?_⟩
    obtain ⟨length, suffix⟩ := out slots found
    refine List.forall₂_iff_zip.mpr ⟨length.symm, fun {loc slot} member => ?_⟩
    exact after.holds _ (suffix.subset member)

omit [DecidableEq D] in
lemma aligned_iff
    (held : List.Forall₂ (fun loc slot => Holds cfg s slot loc) (localIds cfg row) slots) :
    Aligned cfg s row slots ↔ (localRoutes cfg row).Nodup := by
  constructor
  · intro aligned
    exact nodup_of_length (aligned.length_eq.trans held.length_eq.symm)
  · intro nodup
    rw [Aligned, groupedRoutes_of_nodup nodup]
    exact held

/-! ## Runs -/

/-- In every state of a run the slots are in order. A call that succeeds returns a slot with the
blocks of its expert for every route of the row if and only if the row names no expert of this rank
twice. -/
theorem slots_runs (cfg : SlotConfig B) (trace : List (SlotState B D × SlotCall D))
    (last : SlotState B D) (run : Run (Step cfg) .init trace last) :
    Throughout (Mapped cfg) trace last ∧
      ∀ x ∈ trace, ∀ slots, (slotCacheGet cfg x.2 x.1).1 = some slots →
        (Aligned cfg (slotCacheGet cfg x.2 x.1).2 x.2.row slots ↔
          (localRoutes cfg x.2.row).Nodup) := by
  have mapped : Throughout (Mapped cfg) trace last := by
    refine run.invariant (C := fun _ _ => True) (.empty rfl) ?_ fun _ _ => trivial
    rintro s call _ mapped - ⟨⟩
    exact (mapped.answered (slotCacheGet_cases cfg call s)).1
  refine ⟨mapped, fun x member slots found => aligned_iff ?_⟩
  exact ((mapped.1 x member).answered (slotCacheGet_cases cfg x.2 x.1)).2 slots found

end

/-! ## One expert, routed once and twice -/

/-- One slot, and one expert of the file on this rank. -/
def oneSlot : SlotConfig Unit where
  enabled := true
  capacity := 1
  expertsStartIdx := 0
  nLocalExperts := 1
  blocks := fun _ _ => ()

/-- A call for a row, in which everything succeeds. -/
def callFor (row : List Int) : SlotCall Unit where
  row := row
  device := ()
  read := fun _ => some ⟨(.iq2Xxs, 4096), (.iq2Xxs, 4096), (.q2K, 2048)⟩
  emptied := 3
  copied := fun _ => 3

/-- A row that names the expert twice: two routes, and one slot. -/
theorem twice_routed :
    let after := slotCacheGet oneSlot (callFor [0, 0]) .init
    Run (Step oneSlot) .init [(.init, callFor [0, 0])] after.2 ∧ after.1 = some [0] ∧
      groupedRoutes oneSlot [0, 0] = [0, 0] ∧ ¬ Aligned oneSlot after.2 [0, 0] [0] :=
  ⟨.cons (.get ..) (.nil _), rfl, rfl, fun aligned => absurd aligned.length_eq (by decide)⟩

/-- A row that names it once: the slot is aligned with the route. -/
theorem once_routed :
    let after := slotCacheGet oneSlot (callFor [0]) .init
    Mapped oneSlot after.2 ∧ Aligned oneSlot after.2 [0] [0] := by
  have runs := slots_runs oneSlot [(.init, callFor [0])] _ (.cons (.get ..) (.nil _))
  exact ⟨runs.1.2, (runs.2 _ (List.mem_singleton_self _) [0] rfl).mpr (by decide)⟩

end PocketMoE.Runtime.DecodeSlots
