import PocketMoE.Lib.ByteLru

/-!
# The GPU expert caches

Model of `_GGUFGpuExpertLRU` (`models/deepseek_v4/runtime.py`) and of `_HotExpertCache`
(`components/moe/gpu_prefill_backend.py`). A tensor is its number of elements and their size; the
counters are kept, what is printed from them is not. An insert also says which entries it evicts,
each with those that stay.

The capacities come from the environment, so that they are integers: below zero nothing is ever
resident.
-/

namespace PocketMoE.Runtime.ExpertCaches

open PocketMoE.Lib PocketMoE.Lib.ByteLru

/-- A tensor, as far as its bytes go. -/
structure TensorBytes where
  numel : ℕ
  elementSize : ℕ

def TensorBytes.nbytes (t : TensorBytes) : ℕ := t.numel * t.elementSize

variable {K : Type*} [DecidableEq K]

section Gguf

/-- `(gpu_blocks, type_name, in_dim)`. -/
structure GgufBlocks where
  gpuBlocks : TensorBytes
  typeName : String
  inDim : ℕ

/-- `_nbytes` of an entry's blocks. -/
def GgufBlocks.nbytes (entry : GgufBlocks) : ℕ := entry.gpuBlocks.nbytes

structure GGUFGpuExpertLRU (K : Type*) where
  cache : ByteLru K GgufBlocks
  hits : ℕ
  misses : ℕ
  evictions : ℕ

namespace GGUFGpuExpertLRU

omit [DecidableEq K] in
/-- `__init__`. -/
def init (capacityBytes : ℤ) : GGUFGpuExpertLRU K :=
  ⟨⟨capacityBytes, 0, ⟨[], List.nodup_nil⟩⟩, 0, 0, 0⟩

def lookup (c : GGUFGpuExpertLRU K) (key : K) : GGUFGpuExpertLRU K × Option GgufBlocks :=
  match touch c.cache key with
  | (_, none) => ({ c with misses := c.misses + 1 }, none)
  | (cache, some entry) => ({ c with cache := cache, hits := c.hits + 1 }, some entry)

/-- `insert`, with the entries it evicts. -/
def insert (c : GGUFGpuExpertLRU K) (key : K) (value : GgufBlocks) :
    GGUFGpuExpertLRU K × Bool × List (Eviction K GgufBlocks) :=
  let popped := (pop GgufBlocks.nbytes c.cache key).1
  let nbytes := value.nbytes
  if nbytes > popped.capacity then ({ c with cache := popped }, false, [])
  else
    let room := evict GgufBlocks.nbytes popped nbytes
    ({ c with
        cache := store GgufBlocks.nbytes room.1 key value
        evictions := c.evictions + room.2.length },
      true, room.2)

def contains (c : GGUFGpuExpertLRU K) (key : K) : Bool := (c.cache.entries.get key).isSome

def remove (c : GGUFGpuExpertLRU K) (key : K) : GGUFGpuExpertLRU K :=
  { c with cache := (pop GgufBlocks.nbytes c.cache key).1 }

omit [DecidableEq K] in
def clear (c : GGUFGpuExpertLRU K) : GGUFGpuExpertLRU K :=
  { c with cache := { c.cache with used := 0, entries := ⟨[], List.nodup_nil⟩ } }

inductive Op (K : Type*) where
  | lookup (key : K)
  | insert (key : K) (value : GgufBlocks)
  | remove (key : K)
  | clear

/-- The key an operation is about. -/
def Op.named : Op K → Option K
  | .lookup key => some key
  | .insert key _ => some key
  | .remove key => some key
  | .clear => none

/-- An operation, and what it evicts. -/
def step (c : GGUFGpuExpertLRU K) : Op K → GGUFGpuExpertLRU K × List (Eviction K GgufBlocks)
  | .lookup key => ((c.lookup key).1, [])
  | .insert key value => ((c.insert key value).1, (c.insert key value).2.2)
  | .remove key => (c.remove key, [])
  | .clear => (c.clear, [])

/-- The cache after operations, the newest first. -/
def run (capacityBytes : ℤ) : List (Op K) → GGUFGpuExpertLRU K
  | [] => init capacityBytes
  | op :: older => ((run capacityBytes older).step op).1

lemma lookup_cache (c : GGUFGpuExpertLRU K) (key : K) :
    (c.lookup key).1.cache = (touch c.cache key).1 := by
  unfold lookup touch
  cases c.cache.entries.get key <;> rfl

lemma step_accounts {c : GGUFGpuExpertLRU K} (h : Accounts GgufBlocks.nbytes c.cache) (op : Op K) :
    Accounts GgufBlocks.nbytes (c.step op).1.cache := by
  cases op with
  | lookup key =>
    simp only [step, lookup_cache]
    exact touch_accounts h key
  | insert key value =>
    have popped := pop_accounts h key
    simp only [step, insert]
    split
    case isTrue => exact popped
    case isFalse fits =>
      apply store_accounts (evict_accounts popped _)
      · exact evict_absent (pop_absent key) _
      · exact evict_room popped (by omega)
  | remove key => exact pop_accounts h key
  | clear => exact ⟨rfl, le_max_right _ _⟩

lemma step_uses (c : GGUFGpuExpertLRU K) {op : Op K} {key : K} (named : op.named = some key) :
    Uses key c.cache (c.step op).1.cache := by
  cases op with
  | lookup k =>
    cases named
    simp only [step, lookup_cache]
    exact touch_uses c.cache key
  | insert k value =>
    cases named
    simp only [step, insert]
    split
    case isTrue => exact pop_uses key
    case isFalse =>
      apply Uses.store
      · exact (pop_uses key).evict (pop_absent key) _
      · exact evict_absent (pop_absent key) _
  | remove k =>
    cases named
    exact pop_uses key
  | clear => cases named

lemma step_recent {c : GGUFGpuExpertLRU K} {older : List (Op K)}
    (h : Recent (age Op.named older) c.cache) (op : Op K) :
    Recent (age Op.named (op :: older)) (c.step op).1.cache := by
  cases named : op.named with
  | some key => exact h.cons named (step_uses c named)
  | none =>
    cases op with
    | clear => exact List.Pairwise.nil
    | lookup _ => cases named
    | insert _ _ => cases named
    | remove _ => cases named

lemma run_inv (capacityBytes : ℤ) (ops : List (Op K)) :
    Accounts GgufBlocks.nbytes (run capacityBytes ops).cache ∧
      Recent (age Op.named ops) (run capacityBytes ops).cache := by
  induction ops with
  | nil => exact ⟨⟨rfl, le_max_right _ _⟩, List.Pairwise.nil⟩
  | cons op older ih => exact ⟨step_accounts ih.1 op, step_recent ih.2 op⟩

lemma run_sound (capacityBytes : ℤ) (ops : List (Op K)) (op : Op K) :
    Sound GgufBlocks.nbytes (age Op.named ops) (run capacityBytes ops).cache
      ((run capacityBytes ops).step op).2 := by
  obtain ⟨accounts, recent⟩ := run_inv capacityBytes ops
  apply accounts.sound
  cases op with
  | insert key value =>
    simp only [step, insert]
    split
    case isTrue => exact fun v member => absurd member List.not_mem_nil
    case isFalse => exact pop_evict_oldest GgufBlocks.nbytes recent key _
  | lookup key => exact fun v member => absurd member List.not_mem_nil
  | remove key => exact fun v member => absurd member List.not_mem_nil
  | clear => exact fun v member => absurd member List.not_mem_nil

end GGUFGpuExpertLRU

end Gguf

section Hot

structure HotExpertCache (K : Type*) where
  enabled : Bool
  cache : ByteLru K (List TensorBytes)
  hits : ℕ
  misses : ℕ
  evictions : ℕ

/-- `_entry_nbytes`, and `_src_nbytes`. -/
def entryNbytes (entry : List TensorBytes) : ℕ := (entry.map TensorBytes.nbytes).sum

namespace HotExpertCache

/-- How an insert ends: with the new entry, with `None`, or in the allocation that raises. -/
inductive Inserted where
  | entry (tensors : List TensorBytes)
  | none
  | raised

omit [DecidableEq K] in
/-- `__init__`. -/
def init (enabled : Bool) (capacityBytes : ℤ) : HotExpertCache K :=
  ⟨enabled, ⟨capacityBytes, 0, ⟨[], List.nodup_nil⟩⟩, 0, 0, 0⟩

def lookup (c : HotExpertCache K) (key : K) : HotExpertCache K × Option (List TensorBytes) :=
  match touch c.cache key with
  | (_, none) => ({ c with misses := c.misses + 1 }, none)
  | (cache, some entry) => ({ c with cache := cache, hits := c.hits + 1 }, some entry)

/-- `insert`, with the entries it evicts. The tensors it allocates are like those of `src`; when
that raises, what was evicted stays evicted. -/
def insert (c : HotExpertCache K) (key : K) (src : List TensorBytes) (allocates : Bool) :
    HotExpertCache K × Inserted × List (Eviction K (List TensorBytes)) :=
  if !c.enabled then (c, .none, [])
  else
    let popped := (pop entryNbytes c.cache key).1
    let nbytes := entryNbytes src
    if nbytes > popped.capacity then ({ c with cache := popped }, .none, [])
    else
      let room := evict entryNbytes popped nbytes
      let c := { c with cache := room.1, evictions := c.evictions + room.2.length }
      if room.1.used + nbytes > room.1.capacity then (c, .none, room.2)
      else if !allocates then (c, .raised, room.2)
      else ({ c with cache := store entryNbytes room.1 key src }, .entry src, room.2)

inductive Op (K : Type*) where
  | lookup (key : K)
  | insert (key : K) (src : List TensorBytes) (allocates : Bool)

/-- The key an operation is about. -/
def Op.named : Op K → Option K
  | .lookup key => some key
  | .insert key _ _ => some key

/-- An operation, and what it evicts. -/
def step (c : HotExpertCache K) : Op K → HotExpertCache K × List (Eviction K (List TensorBytes))
  | .lookup key => ((c.lookup key).1, [])
  | .insert key src allocates => ((c.insert key src allocates).1, (c.insert key src allocates).2.2)

/-- The cache after operations, the newest first. -/
def run (enabled : Bool) (capacityBytes : ℤ) : List (Op K) → HotExpertCache K
  | [] => init enabled capacityBytes
  | op :: older => ((run enabled capacityBytes older).step op).1

lemma lookup_cache (c : HotExpertCache K) (key : K) :
    (c.lookup key).1.cache = (touch c.cache key).1 := by
  unfold lookup touch
  cases c.cache.entries.get key <;> rfl

lemma step_accounts {c : HotExpertCache K} (h : Accounts entryNbytes c.cache) (op : Op K) :
    Accounts entryNbytes (c.step op).1.cache := by
  cases op with
  | lookup key =>
    simp only [step, lookup_cache]
    exact touch_accounts h key
  | insert key src allocates =>
    have popped := pop_accounts h key
    have room := evict_accounts popped (entryNbytes src)
    simp only [step, insert]
    split
    case isTrue => exact h
    case isFalse =>
      split
      case isTrue => exact popped
      case isFalse =>
        split
        case isTrue => exact room
        case isFalse fits =>
          split
          case isTrue => exact room
          case isFalse =>
            apply store_accounts room
            · exact evict_absent (pop_absent key) _
            · omega

lemma step_uses (c : HotExpertCache K) {op : Op K} {key : K} (named : op.named = some key) :
    Uses key c.cache (c.step op).1.cache ∨
      c.enabled = false ∧ (c.step op).1.cache = c.cache := by
  cases op with
  | lookup k =>
    cases named
    simp only [step, lookup_cache]
    exact Or.inl (touch_uses c.cache key)
  | insert k src allocates =>
    cases named
    have evicted : Uses key c.cache
        (evict entryNbytes (pop entryNbytes c.cache key).1 (entryNbytes src)).1 :=
      (pop_uses key).evict (pop_absent key) _
    simp only [step, insert]
    split
    case isTrue off =>
      refine Or.inr ⟨?_, rfl⟩
      simpa using off
    case isFalse =>
      left
      split
      case isTrue => exact pop_uses key
      case isFalse =>
        split
        case isTrue => exact evicted
        case isFalse =>
          split
          case isTrue => exact evicted
          case isFalse => exact evicted.store (evict_absent (pop_absent key) _) src

lemma step_enabled (c : HotExpertCache K) (op : Op K) : (c.step op).1.enabled = c.enabled := by
  cases op with
  | lookup key =>
    simp only [step, lookup]
    split <;> rfl
  | insert key src allocates =>
    simp only [step, insert]
    split
    case isTrue => rfl
    case isFalse =>
      split
      case isTrue => rfl
      case isFalse =>
        split
        case isTrue => rfl
        case isFalse => split <;> rfl

lemma step_off {c : HotExpertCache K} (off : c.enabled = false)
    (empty : c.cache.entries.entries = []) (op : Op K) :
    (c.step op).1.cache.entries.entries = [] := by
  cases op with
  | lookup key =>
    simp only [step, lookup_cache]
    unfold touch OrderedDict.get
    simp [empty]
  | insert key src allocates => simp [step, insert, off, empty]

lemma run_inv (enabled : Bool) (capacityBytes : ℤ) (ops : List (Op K)) :
    Accounts entryNbytes (run enabled capacityBytes ops).cache ∧
      Recent (age Op.named ops) (run enabled capacityBytes ops).cache ∧
      ((run enabled capacityBytes ops).enabled = false →
        (run enabled capacityBytes ops).cache.entries.entries = []) := by
  induction ops with
  | nil => exact ⟨⟨rfl, le_max_right _ _⟩, List.Pairwise.nil, fun _ => rfl⟩
  | cons op older ih =>
    obtain ⟨accounts, recent, empty⟩ := ih
    refine ⟨step_accounts accounts op, ?_, ?_⟩
    · obtain ⟨key, named⟩ : ∃ key, op.named = some key := by
        cases op with
        | lookup key => exact ⟨key, rfl⟩
        | insert key src allocates => exact ⟨key, rfl⟩
      rcases step_uses (run enabled capacityBytes older) named with uses | ⟨off, same⟩
      · exact recent.cons named uses
      · have none := empty off
        unfold Recent
        rw [show (run enabled capacityBytes (op :: older)).cache =
          (run enabled capacityBytes older).cache from same, none]
        exact List.Pairwise.nil
    · intro off
      have off' : (run enabled capacityBytes older).enabled = false := by
        rw [← step_enabled _ op]
        exact off
      exact step_off off' (empty off') op

lemma run_sound (enabled : Bool) (capacityBytes : ℤ) (ops : List (Op K)) (op : Op K) :
    Sound entryNbytes (age Op.named ops) (run enabled capacityBytes ops).cache
      ((run enabled capacityBytes ops).step op).2 := by
  obtain ⟨accounts, recent, -⟩ := run_inv enabled capacityBytes ops
  apply accounts.sound
  cases op with
  | lookup key => exact fun v member => absurd member List.not_mem_nil
  | insert key src allocates =>
    have oldest := pop_evict_oldest entryNbytes recent key (entryNbytes src)
    simp only [step, insert]
    split
    case isTrue => exact fun v member => absurd member List.not_mem_nil
    case isFalse =>
      split
      case isTrue => exact fun v member => absurd member List.not_mem_nil
      case isFalse =>
        split
        case isTrue => exact oldest
        case isFalse => split <;> exact oldest

end HotExpertCache

end Hot

/-- Both caches, after any operations: `used_bytes` is the sum of the resident entries and within
the capacity, the keys are distinct, and what the next operation evicts was longest unused. A
resident entry was used by the last operation that named its key. -/
theorem expert_caches_sound (capacityBytes : ℤ) :
    (∀ (ops : List (GGUFGpuExpertLRU.Op K)) (op : GGUFGpuExpertLRU.Op K),
      Sound GgufBlocks.nbytes (age GGUFGpuExpertLRU.Op.named ops)
        (GGUFGpuExpertLRU.run capacityBytes ops).cache
        ((GGUFGpuExpertLRU.run capacityBytes ops).step op).2) ∧
    ∀ (enabled : Bool) (ops : List (HotExpertCache.Op K)) (op : HotExpertCache.Op K),
      Sound entryNbytes (age HotExpertCache.Op.named ops)
        (HotExpertCache.run enabled capacityBytes ops).cache
        ((HotExpertCache.run enabled capacityBytes ops).step op).2 := by
  constructor
  · exact GGUFGpuExpertLRU.run_sound capacityBytes
  · intro enabled
    exact HotExpertCache.run_sound enabled capacityBytes

end PocketMoE.Runtime.ExpertCaches
