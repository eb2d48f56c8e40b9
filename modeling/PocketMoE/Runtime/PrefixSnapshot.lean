import PocketMoE.Lib.OrderedDict
import PocketMoE.Lib.Trans

/-!
# Prefix snapshots on several ranks

`PrefixSnapshotCache` (`runtime/prefix_snapshot.py`) is an LRU of snapshots under a hash of their
tokens. Every rank has its own, and all execute the same `restore` and `capture` calls; rank 0 also
looks hints up for its HTTP threads, between any two of its critical sections, and each hit makes an
entry the newest on that rank only.

`lockStep_iff`: the ranks stay in lock-step exactly when every capture evicts the same entries
everywhere. `Aligned` is the invariant: the caches are alike up to their order, and the running
capture stores the same on all ranks. The buffers of a snapshot, the ages, which are only logged, and
what a call does to the model are left out. The caches belong to their processes, so that a call may
be one step of all ranks.
-/

namespace PocketMoE.Runtime
open PocketMoE.Lib

/-- A snapshot without its buffers. -/
structure SnapshotEntry where
  pos : Nat
  tokenIds : List Nat
  length_eq : tokenIds.length = pos
  pos_pos : 0 < pos

/-- What `lookup_hint` returns. -/
structure SnapshotHint (K : Type*) where
  matchKey : Option K
  matchPos : Nat
  capturePositions : List Nat

/-- The settings of a `PrefixSnapshotCache`, and the hash of the first tokens. -/
structure PrefixSnapshotCache (K : Type*) where
  block : Nat
  block_pos : 0 < block
  maxEntries : Nat
  maxEntries_pos : 0 < maxEntries
  minTokens : Nat
  block_le_minTokens : block ≤ minTokens
  captureAll : Bool
  hash : Nat → List Nat → K

namespace PrefixSnapshotCache

variable {K : Type*} [DecidableEq K] (c : PrefixSnapshotCache K)

/-- The key of a prefix. -/
def key (tokenIds : List Nat) (n : Nat) : K := c.hash n (tokenIds.take n)

/-- The longest prefix of at most `blocks` blocks that has an entry, and its key. -/
def longestMatch (d : OrderedDict K SnapshotEntry) (tokenIds : List Nat) : Nat → Option (Nat × K)
  | 0 => none
  | blocks + 1 =>
    let n := (blocks + 1) * c.block
    match d.get (c.key tokenIds n) with
    | some entry =>
      if entry.tokenIds = tokenIds.take n then some (n, c.key tokenIds n)
      else longestMatch d tokenIds blocks
    | none => longestMatch d tokenIds blocks

/-- `lookup_hint`, with the entries after it. -/
def lookupHint (d : OrderedDict K SnapshotEntry) (tokenIds : List Nat) :
    Option (SnapshotHint K) × OrderedDict K SnapshotEntry :=
  let capturePos := tokenIds.length / c.block * c.block
  if tokenIds.isEmpty || capturePos < c.minTokens then (none, d)
  else
    let found := c.longestMatch d tokenIds ((tokenIds.length - 1) / c.block)
    let positions :=
      if c.captureAll then (List.range (tokenIds.length / c.block)).map fun i => (i + 1) * c.block
      else [capturePos]
    let hint : SnapshotHint K :=
      { matchKey := found.map Prod.snd
        matchPos := (found.map Prod.fst).getD 0
        capturePositions := positions }
    match found with
    | some (_, key) => (some hint, d.moveToEnd key)
    | none => (some hint, d)

/-- `restore`: the position, and the entries after it. -/
def restore (d : OrderedDict K SnapshotEntry) (hint : Option (SnapshotHint K))
    (tokenIds : List Nat) : Nat × OrderedDict K SnapshotEntry :=
  match hint with
  | none => (0, d)
  | some hint =>
    match hint.matchKey with
    | none => (0, d)
    | some key =>
      if hint.matchPos = 0 then (0, d)
      else
        match d.get key with
        | none => (0, d)
        | some entry =>
          if entry.pos ≠ hint.matchPos ∨ tokenIds.length ≤ entry.pos ∨
              entry.tokenIds ≠ tokenIds.take entry.pos then (0, d)
          else (entry.pos, d.moveToEnd key)

/-- The entry that a capture is about, unless its position is refused. -/
def captured (tokenIds : List Nat) (pos : Nat) : Option (K × SnapshotEntry) :=
  if h : 0 < pos ∧ pos ≤ tokenIds.length ∧ pos % c.block = 0 ∧ c.minTokens ≤ pos then
    some (c.key tokenIds pos,
      { pos := pos
        tokenIds := tokenIds.take pos
        length_eq := List.length_take_of_le h.2.1
        pos_pos := h.1 })
  else none

/-- The entry stands in the cache already. -/
def has (d : OrderedDict K SnapshotEntry) (key : K) (entry : SnapshotEntry) : Bool :=
  match d.get key with
  | none => false
  | some existing => existing.tokenIds = entry.tokenIds

/-- `capture` up to the copy of the buffers: the entries after it, and what is left to store. -/
def captureBegin (d : OrderedDict K SnapshotEntry) (tokenIds : List Nat) (pos : Nat) :
    OrderedDict K SnapshotEntry × Option (K × SnapshotEntry) :=
  match c.captured tokenIds pos with
  | none => (d, none)
  | some (key, entry) =>
    if has d key entry then (d.moveToEnd key, none) else (d, some (key, entry))

/-- The entries with the new one, before the eviction. -/
def stored (d : OrderedDict K SnapshotEntry) :
    Option (K × SnapshotEntry) → OrderedDict K SnapshotEntry
  | none => d
  | some (key, entry) => if has d key entry then d.moveToEnd key else d.insert key entry

/-- How many entries are more than `max_entries`. -/
def excess (d : OrderedDict K SnapshotEntry) : Nat := d.entries.length - c.maxEntries

/-- The entries that the capture evicts. -/
def evicted (d : OrderedDict K SnapshotEntry) (pending : Option (K × SnapshotEntry)) :
    List (K × SnapshotEntry) :=
  (stored d pending).oldest (c.excess (stored d pending))

/-- `capture` after the copy of the buffers. -/
def captureEnd (d : OrderedDict K SnapshotEntry) (pending : Option (K × SnapshotEntry)) :
    OrderedDict K SnapshotEntry :=
  (stored d pending).dropOldest (c.excess (stored d pending))

/-- `_prefix_snapshot_settings` of one prompt: where prefill resumes, and where it captures. -/
def prefixSnapshotSettings (d : OrderedDict K SnapshotEntry) (hint : Option (SnapshotHint K))
    (tokenIds : List Nat) : Nat × List Nat :=
  let restorePos := (restore d hint tokenIds).1
  let capturePos := tokenIds.length / c.block * c.block
  if capturePos < c.minTokens then (restorePos, [])
  else
    let hinted := (hint.map SnapshotHint.capturePositions).getD []
    if hinted.isEmpty then (restorePos, if restorePos < capturePos then [capturePos] else [])
    else (restorePos, hinted.filter fun pos => restorePos < pos && pos ≤ capturePos)

/-- The caches of the ranks, and what a running capture has left to store on each. -/
structure State (K ρ : Type*) where
  entries : ρ → OrderedDict K SnapshotEntry
  pending : ρ → Option (K × SnapshotEntry)
  capturing : Bool

/-- A call of all ranks, in its critical sections, or a lookup of the leading rank. -/
inductive Event (K : Type*) where
  | restore (hint : Option (SnapshotHint K)) (tokenIds : List Nat)
  | captureBegin (tokenIds : List Nat) (pos : Nat)
  | captureEnd
  | lookupHint (tokenIds : List Nat)

variable {ρ : Type*} [DecidableEq ρ] (leader : ρ)

/-- All caches are empty. -/
def init : State K ρ where
  entries := fun _ => .empty
  pending := fun _ => none
  capturing := false

/-- What a step does. -/
def next (s : State K ρ) : Event K → State K ρ
  | .restore hint tokenIds =>
    { s with entries := fun r => (restore (s.entries r) hint tokenIds).2 }
  | .captureBegin tokenIds pos =>
    { entries := fun r => (c.captureBegin (s.entries r) tokenIds pos).1
      pending := fun r => (c.captureBegin (s.entries r) tokenIds pos).2
      capturing := true }
  | .captureEnd =>
    { entries := fun r => c.captureEnd (s.entries r) (s.pending r)
      pending := fun _ => none
      capturing := false }
  | .lookupHint tokenIds =>
    { s with entries :=
        Function.update s.entries leader (c.lookupHint (s.entries leader) tokenIds).2 }

/-- One step: a rank's calls come one after the other, lookups at any time. -/
inductive Step : State K ρ → Event K → State K ρ → Prop where
  | restore {s : State K ρ} (hint : Option (SnapshotHint K)) (tokenIds : List Nat) :
    s.capturing = false → Step s (.restore hint tokenIds) (c.next leader s (.restore hint tokenIds))
  | captureBegin {s : State K ρ} (tokenIds : List Nat) (pos : Nat) : s.capturing = false →
    Step s (.captureBegin tokenIds pos) (c.next leader s (.captureBegin tokenIds pos))
  | captureEnd {s : State K ρ} : s.capturing = true →
    Step s .captureEnd (c.next leader s .captureEnd)
  | lookupHint {s : State K ρ} (tokenIds : List Nat) :
    Step s (.lookupHint tokenIds) (c.next leader s (.lookupHint tokenIds))

/-- Every restore that may be called returns the same position on all ranks. -/
def LockStep (s : State K ρ) : Prop :=
  ∀ r r' hint tokenIds, (restore (s.entries r) hint tokenIds).1 =
    (restore (s.entries r') hint tokenIds).1

/-- A capture evicts the same entries on all ranks. -/
def EvictsAlike (s : State K ρ) : Event K → Prop
  | .captureEnd => ∀ r r', (c.evicted (s.entries r) (s.pending r)).Perm
      (c.evicted (s.entries r') (s.pending r'))
  | _ => True

/-- The caches differ in the order of their entries only, and a running capture has the same to
store on all ranks. -/
structure Aligned (s : State K ρ) : Prop where
  alike : ∀ r r', (s.entries r).Alike (s.entries r')
  pending : ∀ r r', s.pending r = s.pending r'

variable {c leader} {s t : State K ρ} {d d' : OrderedDict K SnapshotEntry}

omit [DecidableEq ρ] in
/-- Ranks in lock-step resume prefill at the same token, and capture at the same positions. -/
theorem LockStep.settings (lockStep : LockStep s) (r r' : ρ) (hint : Option (SnapshotHint K))
    (tokenIds : List Nat) : c.prefixSnapshotSettings (s.entries r) hint tokenIds =
      c.prefixSnapshotSettings (s.entries r') hint tokenIds := by
  unfold prefixSnapshotSettings
  rw [lockStep r r' hint tokenIds]

lemma restore_alike (alike : d.Alike d') (hint : Option (SnapshotHint K)) (tokenIds : List Nat) :
    (restore d hint tokenIds).1 = (restore d' hint tokenIds).1 ∧
      (restore d hint tokenIds).2.Alike (restore d' hint tokenIds).2 := by
  unfold restore
  cases hint with
  | none => exact ⟨rfl, alike⟩
  | some hint =>
    obtain ⟨matchKey, matchPos, positions⟩ := hint
    cases matchKey with
    | none => exact ⟨rfl, alike⟩
    | some key =>
      simp only [alike.get key]
      split_ifs
      · exact ⟨rfl, alike⟩
      · cases d'.get key with
        | none => exact ⟨rfl, alike⟩
        | some entry =>
          dsimp only
          split_ifs
          · exact ⟨rfl, alike⟩
          · exact ⟨rfl, alike.moveToEnd key⟩

lemma restore_found {key : K} {entry : SnapshotEntry} (found : d.get key = some entry)
    (tokenIds : List Nat) (le : entry.pos < tokenIds.length)
    (prefixes : entry.tokenIds = tokenIds.take entry.pos) (positions : List Nat) :
    (restore d (some ⟨some key, entry.pos, positions⟩) tokenIds).1 = entry.pos := by
  have pos := entry.pos_pos
  simp only [restore, found]
  rw [if_neg (by omega), if_neg]
  rintro (differs | long | other)
  · exact differs rfl
  · omega
  · exact other prefixes

lemma restore_pos {hint : Option (SnapshotHint K)} {prompt : List Nat}
    (pos : (restore d hint prompt).1 ≠ 0) :
    ∃ hinted key entry, hint = some hinted ∧ hinted.matchKey = some key ∧
      d.get key = some entry ∧
      (restore d hint prompt).1 = entry.pos ∧
      entry.pos < prompt.length ∧ entry.tokenIds = prompt.take entry.pos := by
  unfold restore at pos ⊢
  cases hint with
  | none => exact absurd rfl pos
  | some hinted =>
    cases keyed : hinted.matchKey with
    | none => simp only [keyed, ne_eq, not_true_eq_false] at pos
    | some key =>
      simp only [keyed] at pos ⊢
      split_ifs at pos ⊢ with zero
      · exact absurd rfl pos
      · cases found : d.get key with
        | none => simp only [found, ne_eq, not_true_eq_false] at pos
        | some entry =>
          simp only [found] at pos ⊢
          split_ifs at pos ⊢ with refused
          · exact absurd rfl pos
          · obtain ⟨-, short, same⟩ := (not_or.trans (and_congr_right fun _ => not_or)).mp refused
            exact ⟨hinted, key, entry, rfl, keyed, found, rfl, Nat.lt_of_not_le short,
              not_not.mp same⟩

lemma found_of_restore {key : K} {n : Nat} (pos : 0 < n) {positions tokenIds : List Nat}
    (eq : (restore d (some ⟨some key, n, positions⟩) tokenIds).1 = n) :
    ∃ entry, d.get key = some entry ∧ entry.tokenIds = tokenIds.take n := by
  unfold restore at eq
  cases found : d.get key with
  | none =>
    simp only [found] at eq
    split_ifs at eq
    · omega
    · omega
  | some entry =>
    simp only [found] at eq
    split_ifs at eq with zero refused
    · omega
    · omega
    · refine ⟨entry, rfl, ?_⟩
      by_contra other
      rw [← eq] at other
      exact refused (Or.inr (Or.inr other))

lemma SnapshotEntry.eq_of_tokenIds {e e' : SnapshotEntry} (same : e.tokenIds = e'.tokenIds) :
    e = e' := by
  cases e with
  | mk pos tokenIds length pos_pos =>
    cases e' with
    | mk pos' tokenIds' length' pos_pos' =>
      obtain rfl : tokenIds = tokenIds' := same
      obtain rfl : pos = pos' := length.symm.trans length'
      rfl

lemma get_of_restores (restores : ∀ hint tokenIds, (restore d hint tokenIds).1 =
      (restore d' hint tokenIds).1) {key : K} {entry : SnapshotEntry}
    (found : d.get key = some entry) : d'.get key = some entry := by
  -- a prompt one token longer than the entry
  have length : (entry.tokenIds ++ [0]).length = entry.pos + 1 := by
    rw [List.length_append, entry.length_eq, List.length_singleton]
  have prefixes : entry.tokenIds = (entry.tokenIds ++ [0]).take entry.pos := by
    rw [List.take_left' entry.length_eq]
  have here := restore_found found (entry.tokenIds ++ [0]) (by omega) prefixes []
  obtain ⟨entry', there, same⟩ := found_of_restore entry.pos_pos
    ((restores _ _).symm.trans here)
  rw [there, SnapshotEntry.eq_of_tokenIds (same.trans prefixes.symm)]

omit [DecidableEq ρ] in
lemma lockStep_iff_alike : LockStep s ↔ ∀ r r', (s.entries r).Alike (s.entries r') := by
  constructor
  · intro lockStep r r'
    refine OrderedDict.alike_of_get fun key => Option.ext fun entry => ⟨?_, ?_⟩
    · exact get_of_restores fun hint tokenIds => lockStep r r' hint tokenIds
    · exact get_of_restores fun hint tokenIds => lockStep r' r hint tokenIds
  · exact fun alike r r' hint tokenIds => (restore_alike (alike r r') hint tokenIds).1

lemma has_alike (alike : d.Alike d') (key : K) (entry : SnapshotEntry) :
    has d key entry = has d' key entry := by
  unfold has
  rw [alike.get key]

lemma captureBegin_alike (alike : d.Alike d') (tokenIds : List Nat) (pos : Nat) :
    (c.captureBegin d tokenIds pos).1.Alike (c.captureBegin d' tokenIds pos).1 ∧
      (c.captureBegin d tokenIds pos).2 = (c.captureBegin d' tokenIds pos).2 := by
  unfold captureBegin
  cases c.captured tokenIds pos with
  | none => exact ⟨alike, rfl⟩
  | some found =>
    obtain ⟨key, entry⟩ := found
    simp only [has_alike alike key entry]
    split_ifs
    · exact ⟨alike.moveToEnd key, rfl⟩
    · exact ⟨alike, rfl⟩

lemma stored_alike (alike : d.Alike d') (pending : Option (K × SnapshotEntry)) :
    (stored d pending).Alike (stored d' pending) := by
  cases pending with
  | none => exact alike
  | some found =>
    obtain ⟨key, entry⟩ := found
    simp only [stored, has_alike alike key entry]
    split_ifs
    · exact alike.moveToEnd key
    · exact alike.insert key entry

lemma captureEnd_alike_iff (alike : d.Alike d') (pending : Option (K × SnapshotEntry)) :
    (c.captureEnd d pending).Alike (c.captureEnd d' pending) ↔
      (c.evicted d pending).Perm (c.evicted d' pending) := by
  have stores := stored_alike alike pending
  have count : c.excess (stored d pending) = c.excess (stored d' pending) := by
    unfold excess
    rw [List.Perm.length_eq stores]
  unfold captureEnd evicted
  rw [count]
  exact stores.dropOldest_iff _

lemma lookupHint_alike (d : OrderedDict K SnapshotEntry) (tokenIds : List Nat) :
    (c.lookupHint d tokenIds).2.Alike d := by
  unfold lookupHint
  dsimp only
  by_cases short : (tokenIds.isEmpty ||
      decide (tokenIds.length / c.block * c.block < c.minTokens)) = true
  · rw [if_pos short]
    exact .refl d
  · rw [if_neg short]
    cases c.longestMatch d tokenIds ((tokenIds.length - 1) / c.block) with
    | none => exact .refl d
    | some found => exact OrderedDict.alike_moveToEnd d found.2

omit [DecidableEq K] [DecidableEq ρ] in
lemma Aligned.init : Aligned (init : State K ρ) where
  alike := fun _ _ => .refl _
  pending := fun _ _ => rfl

lemma Aligned.step (aligned : Aligned s) {e : Event K} (st : Step c leader s e t)
    (evicts : EvictsAlike c s e) : Aligned t := by
  have alike := aligned.alike
  cases st with
  | restore hint tokenIds idle =>
    exact ⟨fun r r' => (restore_alike (alike r r') hint tokenIds).2, aligned.pending⟩
  | captureBegin tokenIds pos idle =>
    exact ⟨fun r r' => (captureBegin_alike (alike r r') tokenIds pos).1,
      fun r r' => (captureBegin_alike (alike r r') tokenIds pos).2⟩
  | captureEnd busy =>
    refine ⟨fun r r' => ?_, fun _ _ => rfl⟩
    have perm := evicts r r'
    show (c.captureEnd (s.entries r) (s.pending r)).Alike (c.captureEnd (s.entries r') (s.pending r'))
    rw [aligned.pending r r'] at perm ⊢
    exact (captureEnd_alike_iff (alike r r') _).mpr perm
  | lookupHint tokenIds =>
    refine ⟨?_, aligned.pending⟩
    have same : ∀ r, (Function.update s.entries leader
        (c.lookupHint (s.entries leader) tokenIds).2 r).Alike (s.entries r) := by
      refine (Function.forall_update_iff s.entries fun r d => d.Alike (s.entries r)).mpr ⟨?_, ?_⟩
      · exact lookupHint_alike _ tokenIds
      · exact fun r _ => .refl _
    exact fun r r' => ((same r).trans (alike r r')).trans (same r').symm

lemma Aligned.evictsAlike (aligned : Aligned s) {e : Event K} (st : Step c leader s e t)
    (lockStep : LockStep t) : EvictsAlike c s e := by
  cases st with
  | captureEnd busy =>
    intro r r'
    have after : (c.captureEnd (s.entries r) (s.pending r)).Alike
        (c.captureEnd (s.entries r') (s.pending r')) := lockStep_iff_alike.mp lockStep r r'
    rw [aligned.pending r r'] at after ⊢
    exact (captureEnd_alike_iff (aligned.alike r r') _).mp after
  | _ => trivial

lemma Step.unique {e : Event K} {t' : State K ρ} (st : Step c leader s e t)
    (st' : Step c leader s e t') : t = t' := by
  cases st with
  | restore => cases st' with
    | restore => rfl
  | captureBegin => cases st' with
    | captureBegin => rfl
  | captureEnd => cases st' with
    | captureEnd => rfl
  | lookupHint => cases st' with
    | lookupHint => rfl

/-- For any settings, any hash and any number of ranks: in a run, with any lookups of the leading
rank between the calls, every restore returns the same position on all ranks exactly when every
capture evicts the same entries on all ranks. -/
theorem lockStep_iff (c : PrefixSnapshotCache K) (leader : ρ)
    {trace : List (State K ρ × Event K)} {last : State K ρ}
    (run : Run (Step c leader) init trace last) :
    Meets (EvictsAlike c) trace ↔ Throughout LockStep trace last := by
  constructor
  · intro evicts
    have all := run.invariant Aligned.init (fun aligned here st => aligned.step st here) evicts
    exact all.imp fun aligned => lockStep_iff_alike.mpr aligned.alike
  · intro lockStep
    have after := run.meets (C := fun s e => ∀ t, Step c leader s e t → LockStep t)
      (fun _ st here t st' => st.unique st' ▸ here) lockStep
    have aligned := run.invariant Aligned.init
      (fun aligned here st => aligned.step st (aligned.evictsAlike st (here _ st))) after
    exact run.meets (fun before st here => before.1.evictsAlike st here.2)
      (aligned.and lockStep)

/-! ## A hit before an eviction -/

/-- A cache of two snapshots of one token each. -/
def twoSnapshots : PrefixSnapshotCache (List Nat) where
  block := 1
  block_pos := Nat.one_pos
  maxEntries := 2
  maxEntries_pos := Nat.two_pos
  minTokens := 1
  block_le_minTokens := Nat.le_refl 1
  captureAll := false
  hash := fun _ tokenIds => tokenIds

/-- Two ranks capture 1, 2 and 3; before the last capture the leading rank looks up 1, and then
evicts 2 where the other one evicts 1. -/
lemma twoSnapshots_apart : ∃ trace, ∃ last : State (List Nat) Bool,
    Run (Step twoSnapshots false) init trace last ∧
      (restore (last.entries false) (some ⟨some [1], 1, []⟩) [1, 0]).1 = 1 ∧
      (restore (last.entries true) (some ⟨some [1], 1, []⟩) [1, 0]).1 = 0 := by
  have run : Run (Step twoSnapshots false) (init : State (List Nat) Bool) _ _ :=
    .cons (.captureBegin [1] 1 rfl) <| .cons (.captureEnd rfl) <|
    .cons (.captureBegin [2] 1 rfl) <| .cons (.captureEnd rfl) <|
    .cons (.lookupHint [1, 0]) <|
    .cons (.captureBegin [3] 1 rfl) <| .cons (.captureEnd rfl) <| .nil _
  exact ⟨_, _, run, by decide +kernel, by decide +kernel⟩

theorem lockStep_iff_apart : ∃ trace, ∃ last : State (List Nat) Bool,
    Run (Step twoSnapshots false) init trace last ∧
      (Meets (EvictsAlike twoSnapshots) trace ↔ Throughout LockStep trace last) := by
  obtain ⟨trace, last, run, _⟩ := twoSnapshots_apart
  exact ⟨trace, last, run, lockStep_iff twoSnapshots false run⟩

/-- One rank would resume prefill at token 1, the other at token 0. -/
theorem not_lockStep_apart : ¬ ∀ trace, ∀ last : State (List Nat) Bool,
    Run (Step twoSnapshots false) init trace last → Throughout LockStep trace last := by
  intro claim
  obtain ⟨trace, last, run, hit, miss⟩ := twoSnapshots_apart
  have same := (claim trace last run).2 false true (some ⟨some [1], 1, []⟩) [1, 0]
  rw [hit, miss] at same
  exact absurd same (by decide)

end PrefixSnapshotCache

end PocketMoE.Runtime
