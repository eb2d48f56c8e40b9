import PocketMoE.Engine.ArenaTables

/-!
# The books of the arena pool

`InvWith` is the invariant: each buffer is in one place, the arenas, the free list or the hand of a
call that is moving it; the recency list agrees with its positions, and every arena is sound.
`bookkeeping_runs`: the books are in order in every state of every run, as long as no `cudaMalloc`
fails after the first one of a block and no copy fails. After such a failure buffers are lost, or an
arena has buffers and no tables (`torn_arena`).
-/

namespace PocketMoE.Engine.ArenaPool
open PocketMoE.Lib

/-- The books of a pool are in order, with some buffers in hand. -/
structure InvWith (hand : List Nat) (s : ArenaPool) : Prop where
  owned : ∀ p, s.owners p + hand.count p = if p ∈ s.live then 1 else 0
  fresh : ∀ p ∈ s.live, p < s.next
  nodup : s.lru.Nodup
  pos : ∀ key, s.lruPos key = if key ∈ s.lru then some key else none
  sound : ∀ key arena, s.cache.get key = some arena → arena.Sound key
  inside : s.faulted = false

/-- The invariant between calls. -/
abbrev Inv (s : ArenaPool) : Prop := InvWith [] s

variable {s : ArenaPool} {hand : List Nat} {key other : ArenaKey} {arena old : PoolArena}

lemma owners_eq (s : ArenaPool) (p : Nat) : s.owners p =
    s.cache.total (fun a => a.buffers.count p) + (s.freelist.map fun b => b.buffers.count p).sum :=
  rfl

lemma InvWith.put (inv : InvWith hand s) (sound : arena.Sound key)
    (moves : ∀ p, arena.buffers.count p =
      (s.cache.get key).elim 0 (fun a => a.buffers.count p) + hand.count p) :
    Inv (s.put key arena) where
  owned p := by
    have before := inv.owned p
    have sum := s.cache.total_insert (fun a => a.buffers.count p) key arena
    have moved := moves p
    rw [owners_eq] at before ⊢
    show (s.cache.insert key arena).total _ + _ + _ = if p ∈ s.live then 1 else 0
    rw [← before, List.count_nil]
    show _ + (s.freelist.map fun b => b.buffers.count p).sum + 0 = _
    omega
  fresh := inv.fresh
  nodup := inv.nodup
  pos := inv.pos
  sound k a found := by
    rcases eq_or_ne k key with rfl | ne
    · rw [show (s.put k arena).cache.get k = some arena from s.cache.get_insert_self k arena] at found
      obtain rfl := Option.some.inj found
      exact sound
    · rw [show (s.put key arena).cache.get k = s.cache.get k from OrderedDict.get_insert_of_ne ne]
        at found
      exact inv.sound k a found
  inside := inv.inside

lemma InvWith.release (inv : InvWith hand s) (key : ArenaKey) : InvWith hand (s.release key) := by
  unfold ArenaPool.release
  cases found : s.cache.get key with
  | none => exact inv
  | some arena =>
    dsimp only
    split_ifs with empty
    · exact inv
    · refine ⟨fun p => ?_, inv.fresh, inv.nodup, inv.pos, fun k a has => ?_, inv.inside⟩
      · have before := inv.owned p
        have sum := s.cache.total_insert (fun a => a.buffers.count p) key arena.released
        have none : arena.released.buffers.count p = 0 := List.count_nil
        rw [found, Option.elim_some, none] at sum
        rw [owners_eq] at before ⊢
        show (s.cache.insert key arena.released).total _ +
          ((s.freelist ++ [arena.block]).map fun b => b.buffers.count p).sum + _ = _
        rw [List.map_append, List.sum_append, List.map_singleton, List.sum_singleton, ← before]
        show _ + (_ + arena.buffers.count p) + _ = _
        omega
      · rcases eq_or_ne k key with rfl | ne
        · rw [OrderedDict.get_insert_self] at has
          obtain rfl := Option.some.inj has
          exact (inv.sound k arena found).released.sound
        · rw [OrderedDict.get_insert_of_ne ne] at has
          exact inv.sound k a has

lemma InvWith.unlink (inv : InvWith hand s) (key : ArenaKey) : InvWith hand
    { s with lru := s.lru.erase key, lruPos := Function.update s.lruPos key none } := by
  refine ⟨inv.owned, inv.fresh, inv.nodup.erase key, fun k => ?_, inv.sound, inv.inside⟩
  show Function.update s.lruPos key none k = if k ∈ s.lru.erase key then some k else none
  rcases eq_or_ne k key with rfl | ne
  · rw [Function.update_self, if_neg inv.nodup.not_mem_erase]
  · rw [Function.update_of_ne ne, inv.pos k]
    simp only [List.mem_erase_of_ne ne]

lemma InvWith.evict (inv : InvWith hand s) (key : ArenaKey) : InvWith hand (s.evict key) :=
  (inv.unlink key).release key

lemma InvWith.evictIfNeeded (inv : InvWith hand s) (incoming : ArenaKey) (cap : Nat)
    (lru : List ArenaKey) : InvWith hand (evictIfNeeded incoming cap lru s) := by
  induction lru generalizing s with
  | nil => exact inv
  | cons key rest ih =>
    unfold ArenaPool.evictIfNeeded
    split_ifs
    · exact inv
    · exact ih (inv.evict key)
    · exact inv

lemma InvWith.evictFrontIf (inv : InvWith hand s) (sparse : Bool) (key : ArenaKey) (n : Nat) :
    InvWith hand (evictFrontIf sparse key n s) := by
  induction n generalizing s with
  | zero => exact inv
  | succ n ih =>
    unfold ArenaPool.evictFrontIf
    cases s.lru.find? fun k => k.sparse = sparse ∧ k ≠ key with
    | none => exact inv
    | some victim => exact ih (inv.evict victim)

lemma InvWith.pushBack (inv : InvWith hand s) (key : ArenaKey) :
    InvWith hand (s.pushBack key) := by
  -- with or without a position, the key is taken out first
  have erased : ((s.lruPos key).elim s.lru fun node => s.lru.erase node) = s.lru.erase key := by
    rw [inv.pos key]
    split_ifs with has
    · rfl
    · exact (List.erase_of_not_mem has).symm
  unfold ArenaPool.pushBack
  rw [erased]
  refine ⟨inv.owned, inv.fresh, ?_, fun k => ?_, inv.sound, inv.inside⟩
  · refine List.nodup_append'.mpr ⟨inv.nodup.erase key, List.nodup_singleton key, ?_⟩
    simpa using inv.nodup.not_mem_erase
  · show Function.update s.lruPos key (some key) k =
      if k ∈ s.lru.erase key ++ [key] then some k else none
    rcases eq_or_ne k key with rfl | ne
    · rw [Function.update_self, if_pos (by simp)]
    · rw [Function.update_of_ne ne, inv.pos k]
      simp only [List.mem_append, List.mem_singleton, List.mem_erase_of_ne ne, ne, or_false]

lemma InvWith.touch (inv : InvWith hand s) (key : ArenaKey) (caps : ArenaCaps) :
    InvWith hand (s.touch key caps) :=
  ((inv.pushBack key).evictFrontIf true key _).evictFrontIf false key _

/-! ## Buffers for an arena -/

lemma perm_of_popMatching {a : PoolArena} {b : ArenaBlock} {freelist rest : List ArenaBlock}
    (found : popMatching a freelist = some (b, rest)) : freelist.Perm (b :: rest) := by
  induction freelist generalizing rest with
  | nil => cases found
  | cons c l ih =>
    unfold popMatching at found
    split_ifs at found
    · obtain ⟨rfl, rfl⟩ := Prod.mk.inj (Option.some.inj found)
      exact List.Perm.refl _
    · obtain ⟨⟨b', rest'⟩, later, eq⟩ := Option.map_eq_some_iff.mp found
      obtain ⟨rfl, rfl⟩ := Prod.mk.inj eq
      exact ((ih later).cons c).trans (List.Perm.swap b' c rest')

lemma Inv.pop {a : PoolArena} {b : ArenaBlock} {rest : List ArenaBlock} (inv : Inv s)
    (found : popMatching a s.freelist = some (b, rest)) :
    InvWith b.buffers { s with freelist := rest } := by
  refine ⟨fun p => ?_, inv.fresh, inv.nodup, inv.pos, inv.sound, inv.inside⟩
  have before := inv.owned p
  have sum := ((perm_of_popMatching found).map fun b => b.buffers.count p).sum_nat
  rw [List.map_cons, List.sum_cons] at sum
  rw [owners_eq] at before ⊢
  show s.cache.total _ + (rest.map fun b => b.buffers.count p).sum + _ = if p ∈ s.live then 1 else 0
  rw [← before, List.count_nil]
  omega

lemma Inv.malloc (inv : Inv s) (n : Nat) : InvWith (List.range' s.next n)
    { s with live := s.live ++ List.range' s.next n, next := s.next + n } := by
  refine ⟨fun p => ?_, fun p member => ?_, inv.nodup, inv.pos, inv.sound, inv.inside⟩
  · have before : s.owners p = if p ∈ s.live then 1 else 0 := by
      simpa using inv.owned p
    show s.owners p + _ = if p ∈ s.live ++ List.range' s.next n then 1 else 0
    have nodup : (List.range' s.next n).Nodup := List.nodup_range'
    rw [before, nodup.count]
    by_cases old : p ∈ s.live
    · have lt := inv.fresh p old
      have out : p ∉ List.range' s.next n := by
        rw [List.mem_range'_1]
        omega
      simp [old, out]
    · simp [old]
  · rcases List.mem_append.mp member with old | new
    · exact Nat.lt_add_right n (inv.fresh p old)
    · exact (List.mem_range'_1.mp new).2

lemma evict_get (bare : ∀ a, s.cache.get key = some a → a.buffers = []) (victim : ArenaKey) :
    (s.evict victim).cache.get key = s.cache.get key := by
  unfold ArenaPool.evict ArenaPool.release
  dsimp only
  cases found : s.cache.get victim with
  | none => rfl
  | some arena =>
    dsimp only
    split_ifs with empty
    · rfl
    · have ne : key ≠ victim := by
        rintro rfl
        exact empty (bare arena found)
      exact OrderedDict.get_insert_of_ne ne

lemma evictIfNeeded_get (bare : ∀ a, s.cache.get key = some a → a.buffers = [])
    (incoming : ArenaKey) (cap : Nat) (lru : List ArenaKey) :
    (evictIfNeeded incoming cap lru s).cache.get key = s.cache.get key := by
  induction lru generalizing s with
  | nil => rfl
  | cons victim rest ih =>
    have same := evict_get bare victim
    unfold ArenaPool.evictIfNeeded
    split_ifs
    · rfl
    · rw [ih (by rw [same]; exact bare), same]
    · rfl

/-- What a call has after it asked for buffers. -/
structure Given (s : ArenaPool) (key : ArenaKey) (arena : PoolArena)
    (result : PoolArena × ArenaPool × Bool) (hand : List Nat) : Prop where
  arena : result.1 = arena.receive hand
  inv : InvWith hand result.2.1
  get : result.2.1.cache.get key = s.cache.get key
  none : result.2.2 = false → hand = []

lemma Inv.given (inv : Inv s) (bare : ∀ a, s.cache.get key = some a → a.buffers = [])
    (arena : PoolArena) (caps : ArenaCaps) {mallocs : Nat} (ok : mallocs = 0 ∨ 6 ≤ mallocs) :
    ∃ hand, Given s key arena (s.giveBuffers key arena caps mallocs) hand := by
  unfold giveBuffers
  cases first : popMatching arena s.freelist with
  | some found => exact ⟨_, rfl, inv.pop first, rfl, nofun⟩
  | none =>
    dsimp only
    have get := evictIfNeeded_get bare key caps.all s.lru
    have evicted := InvWith.evictIfNeeded inv key caps.all s.lru
    generalize evictIfNeeded key caps.all s.lru s = t at get evicted
    cases second : popMatching arena t.freelist with
    | some found => exact ⟨_, rfl, Inv.pop evicted second, get, nofun⟩
    | none =>
      refine ⟨List.range' t.next (min mallocs 6), rfl, Inv.malloc evicted _, get, fun failed => ?_⟩
      rcases ok with rfl | all
      · rfl
      · exact absurd (decide_eq_false_iff_not.mp failed) (not_not.mpr all)

lemma Inv.activeFp4Arena (inv : Inv s) (sample : List Nat) (caps : ArenaCaps) {mallocs : Nat}
    (pos : key.sparse = true → 0 < key.capacity) (ok : mallocs = 0 ∨ 6 ≤ mallocs) :
    Inv (s.activeFp4Arena key sample caps mallocs) := by
  unfold ArenaPool.activeFp4Arena
  cases found : s.cache.get key with
  | some arena =>
    have sound := inv.sound key arena found
    dsimp only
    by_cases empty : arena.buffers = []
    · rw [if_pos empty]
      have bare : ∀ a, s.cache.get key = some a → a.buffers = [] := by
        intro a has
        obtain rfl := Option.some.inj (found.symm.trans has)
        exact empty
      obtain ⟨hand, given⟩ := inv.given bare arena caps ok
      generalize s.giveBuffers key arena caps mallocs = result at given ⊢
      obtain ⟨got, t, fine⟩ := result
      obtain ⟨rfl, held, get, none⟩ := given
      have before : ∀ p, (t.cache.get key).elim 0 (fun a => a.buffers.count p) = 0 := by
        intro p
        rw [get, found, Option.elim_some, empty]
        exact List.count_nil
      dsimp only
      split_ifs with fine
      · refine InvWith.touch (held.put (sound.reset hand).sound fun p => ?_) key caps
        have same : ((arena.receive hand).reset).buffers = hand := by
          unfold PoolArena.reset
          split_ifs <;> rfl
        rw [before, same, Nat.zero_add]
      · obtain rfl := none (Bool.not_eq_true _ ▸ fine)
        refine held.put (sound.receive_nil empty) fun p => ?_
        rw [before, Nat.zero_add]
        rfl
    · rw [if_neg empty]
      exact inv.touch key caps
  | none =>
    dsimp only
    have bare : ∀ a, s.cache.get key = some a → a.buffers = [] := by
      rw [found]
      exact nofun
    obtain ⟨hand, given⟩ := inv.given bare (.create key sample) caps ok
    generalize s.giveBuffers key (.create key sample) caps mallocs = result at given ⊢
    obtain ⟨got, t, fine⟩ := result
    obtain ⟨rfl, held, get, none⟩ := given
    dsimp only
    split_ifs with fine
    · refine InvWith.touch (held.put (PoolArena.blank_create key sample hand pos).sound fun p => ?_)
        key caps
      have before : t.cache.get key = .none := get.trans found
      rw [before, Option.elim_none, Nat.zero_add]
      rfl
    · obtain rfl := none (Bool.not_eq_true _ ▸ fine)
      exact held

/-! ## The other calls -/

lemma Inv.stage (inv : Inv s) (found : s.cache.get key = some arena) (buffers : arena.buffers ≠ [])
    (loc : Nat) : Inv (s.stage key arena loc true) := by
  have sound := inv.sound key arena found
  have moves : ∀ {a : PoolArena}, a.buffers = arena.buffers → ∀ p, a.buffers.count p =
      (s.cache.get key).elim 0 (fun a => a.buffers.count p) + List.count p [] := by
    intro a same p
    rw [found, Option.elim_some, same, List.count_nil, Nat.add_zero]
  unfold ArenaPool.stage
  split_ifs with sparse staged
  · obtain ⟨a', slot, hit, acquired, -⟩ :=
      PoolArena.acquireSparseSlot_eq (sound.tables buffers sparse) loc
    obtain ⟨sound', same⟩ := sound.acquire buffers sparse acquired
    rw [acquired]
    exact InvWith.put inv sound' (moves same)
  · exact inv
  · exact InvWith.put inv (sound.stage buffers sparse loc) (moves rfl)

lemma Inv.releaseVictim (inv : Inv s) (key : ArenaKey) : Inv (s.releaseVictim key) := by
  unfold ArenaPool.releaseVictim
  cases at_ : s.lruPos key with
  | none => exact inv.release key
  | some node =>
    have pos := inv.pos key
    rw [at_] at pos
    split_ifs at pos
    obtain rfl := Option.some.inj pos
    exact inv.evict node

lemma Inv.freeAll (inv : Inv s) : Inv s.freeAll := by
  refine ⟨fun p => ?_, fun p member => inv.fresh p (List.mem_of_mem_filter member), inv.nodup,
    inv.pos, inv.sound, inv.inside⟩
  have before := inv.owned p
  rw [owners_eq, List.count_nil, Nat.add_zero] at before
  have free : (s.freelist.map fun b => b.buffers.count p).sum =
      (s.freelist.flatMap ArenaBlock.buffers).count p := by
    rw [List.count_flatMap]
    rfl
  rw [free] at before
  have owners : s.freeAll.owners p = s.cache.total fun a => a.buffers.count p := rfl
  have live : p ∈ s.freeAll.live ↔
      p ∈ s.live ∧ p ∉ s.freelist.flatMap ArenaBlock.buffers := by
    simp [ArenaPool.freeAll]
  rw [owners, List.count_nil, Nat.add_zero]
  by_cases freed : p ∈ s.freelist.flatMap ArenaBlock.buffers
  · have some := List.count_pos_iff.mpr freed
    rw [if_neg fun still => (live.mp still).2 freed]
    split_ifs at before <;> omega
  · rw [List.count_eq_zero.mpr freed, Nat.add_zero] at before
    rw [before]
    exact if_congr (live.trans (and_iff_left freed)).symm rfl rfl

lemma Inv.releaseWithSuffix (inv : Inv s) (suffix : ArenaKey → Bool) :
    Inv (s.releaseWithSuffix suffix) := by
  unfold ArenaPool.releaseWithSuffix
  refine Inv.freeAll ?_
  generalize (s.cache.entries.map Prod.fst).filter suffix = victims
  induction victims generalizing s with
  | nil => exact inv
  | cons key rest ih => exact ih (inv.releaseVictim key)

/-! ## Runs -/

lemma Inv.init : Inv init where
  owned _ := rfl
  fresh := nofun
  nodup := List.nodup_nil
  pos _ := rfl
  sound := nofun
  inside := rfl

lemma Inv.step {t : ArenaPool} {c : Call} (inv : Inv s) (ok : Succeeds c) (st : Step s c t) :
    Inv t := by
  cases st with | call allowed =>
  cases c with
  | activeFp4Arena key sample caps mallocs =>
    refine inv.activeFp4Arena sample caps (fun sparse => ?_) ok
    simpa [Allowed, sparse] using allowed
  | stage key loc copied =>
    obtain rfl : copied = true := ok
    rw [perform]
    cases found : s.cache.get key with
    | none => exact inv
    | some arena =>
      have buffers : arena.buffers ≠ [] := by simpa [Allowed, found] using allowed
      exact inv.stage found buffers loc
  | releaseWithSuffix suffix => exact inv.releaseWithSuffix suffix

lemma Inv.bookkeeping (inv : Inv s) : Bookkeeping s where
  owned p := by
    simpa using inv.owned p
  recency := ⟨inv.nodup, inv.pos⟩
  tables key arena member buffers sparse := by
    have ok := (inv.sound key arena (OrderedDict.get_eq_some.mpr member)).tables buffers sparse
    refine ⟨ok.slotLocal, ok.slotLruPos, fun loc slot has => ?_⟩
    have at_ := (ok.wf.inverse loc slot).mp has
    refine ⟨ok.wf.inside slot ((ok.wf.used slot).mpr (by rw [at_]; exact nofun)), ?_⟩
    intro loc' has'
    exact Option.some.inj (((ok.wf.inverse loc' slot).mp has').symm.trans at_)
  staged key arena member :=
    (inv.sound key arena (OrderedDict.get_eq_some.mpr member)).staged
  inside := inv.inside

/-- The books are in order in every state of a run whose calls succeed. -/
theorem bookkeeping_runs {trace : List (ArenaPool × Call)} {last : ArenaPool}
    (run : Run Step init trace last) (succeeds : Meets (fun _ c => Succeeds c) trace) :
    Throughout Bookkeeping trace last :=
  (run.invariant Inv.init (fun inv ok st => inv.step ok st) succeeds).imp Inv.bookkeeping

/-- The sparse arena of layer 0, with two slots. -/
def twoSlotKey : ArenaKey := ⟨0, 1, 0, 2, true⟩

/-- Use the arena and release it, then ask for it again and use it. Of the calls of `cudaMalloc` in
between the first ones succeed. -/
def reuse (mallocs : Nat) : List Call :=
  let ask mallocs := Call.activeFp4Arena twoSlotKey [8, 1, 8, 1, 8, 1] ⟨1, 1, 1⟩ mallocs
  [ask 6, .stage twoSlotKey 0 true, .releaseWithSuffix ArenaKey.sparse, ask mallocs, ask 6,
    .stage twoSlotKey 0 true]

/-- The new buffers fail after `w1`. The next call finds `w1` and returns the arena as it is; staging
an expert then reads past the end of its tables. -/
theorem torn_arena :
    Run Step init (init.traceFrom (reuse 1)) ((reuse 1).foldl perform init) ∧
      ((reuse 1).foldl perform init).faulted = true ∧
      ¬ Bookkeeping ((reuse 1).foldl perform init) := by
  have faulted : ((reuse 1).foldl perform init).faulted = true := by decide +kernel
  refine ⟨run_traceFrom init (by decide +kernel), faulted, fun books => ?_⟩
  exact absurd (books.inside.symm.trans faulted) Bool.false_ne_true

/-- The same calls without the failure. -/
theorem bookkeeping_reused :
    Throughout Bookkeeping (init.traceFrom (reuse 6)) ((reuse 6).foldl perform init) := by
  refine bookkeeping_runs (run_traceFrom init (by decide +kernel)) fun x member => ?_
  have calls : x.2 ∈ reuse 6 := by
    simp only [reuse, traceFrom, List.mem_cons, List.not_mem_nil, or_false] at member ⊢
    rcases member with rfl | rfl | rfl | rfl | rfl | rfl <;> simp
  simp only [reuse, List.mem_cons, List.not_mem_nil, or_false] at calls
  rcases calls with eq | eq | eq | eq | eq | eq <;> rw [eq]
  · exact Or.inr (Nat.le_refl 6)
  · rfl
  · trivial
  · exact Or.inr (Nat.le_refl 6)
  · exact Or.inr (Nat.le_refl 6)
  · rfl

end PocketMoE.Engine.ArenaPool
