import Mathlib.Order.Nat
import PocketMoE.Runtime.PrefixSnapshot

/-!
# Runs of the snapshot cache

One `PrefixSnapshotCache` that several threads call (`prefix_snapshot.py`). A lookup and a restore
are one critical section, a capture is two, and between these the other threads go on. The hash of a
prefix is any function, so that different prefixes may have one key.

`Kept` is what every operation keeps: no more entries than allowed, each under the key of its own
tokens and at a place where a capture is allowed. From it follow what a restore may return, that a
lookup finds the longest prefix, and what a capture may push out (`snapshot_runs`).
-/

namespace PocketMoE.Runtime.PrefixSnapshotCache
open PocketMoE.Lib

variable {K τ : Type*} [DecidableEq K] [DecidableEq τ] (c : PrefixSnapshotCache K)

/-- The cache, and what each thread's capture has left to store. -/
structure Shared (K τ : Type*) where
  entries : OrderedDict K SnapshotEntry
  pending : τ → Option (K × SnapshotEntry)

/-- A critical section of a thread. -/
inductive Section (K τ : Type*) where
  | restore (hint : Option (SnapshotHint K)) (tokenIds : List Nat)
  | lookupHint (tokenIds : List Nat)
  | captureBegin (thread : τ) (tokenIds : List Nat) (pos : Nat)
  | captureEnd (thread : τ)

/-- The cache as it is constructed. -/
def Shared.init : Shared K τ := ⟨.empty, fun _ => none⟩

/-- One critical section: a capture that has begun stores its entry later on. -/
inductive Shared.Step : Shared K τ → Section K τ → Shared K τ → Prop where
  | restore {s : Shared K τ} (hint : Option (SnapshotHint K)) (tokenIds : List Nat) :
    Step s (.restore hint tokenIds)
      { s with entries := (PrefixSnapshotCache.restore s.entries hint tokenIds).2 }
  | lookupHint {s : Shared K τ} (tokenIds : List Nat) :
    Step s (.lookupHint tokenIds) { s with entries := (c.lookupHint s.entries tokenIds).2 }
  | captureBegin {s : Shared K τ} (thread : τ) (tokenIds : List Nat) (pos : Nat) :
    s.pending thread = none →
    Step s (.captureBegin thread tokenIds pos)
      { entries := (c.captureBegin s.entries tokenIds pos).1
        pending := Function.update s.pending thread (c.captureBegin s.entries tokenIds pos).2 }
  | captureEnd {s : Shared K τ} (thread : τ) : s.pending thread ≠ none →
    Step s (.captureEnd thread)
      { entries := c.captureEnd s.entries (s.pending thread)
        pending := Function.update s.pending thread none }

/-- An entry under the key of its own tokens, at a place where a capture is allowed. -/
structure Sound (key : K) (entry : SnapshotEntry) : Prop where
  key_eq : key = c.key entry.tokenIds entry.tokenIds.length
  pos_eq : entry.pos = entry.tokenIds.length
  pos_pos : 0 < entry.pos
  block : c.block ∣ entry.pos
  minTokens : c.minTokens ≤ entry.pos

/-- The cache holds no more entries than it may, and they are sound. -/
structure Kept (d : OrderedDict K SnapshotEntry) : Prop where
  length_le : d.entries.length ≤ c.maxEntries
  sound : ∀ key entry, (key, entry) ∈ d.entries → c.Sound key entry

/-- The first `n` tokens of a prompt are a proper prefix of whole blocks that has an entry. -/
def Resident (d : OrderedDict K SnapshotEntry) (tokenIds : List Nat) (n : Nat) : Prop :=
  c.block ∣ n ∧ n < tokenIds.length ∧
    ∃ key entry, (key, entry) ∈ d.entries ∧ entry.tokenIds = tokenIds.take n

/-- The position of a hint; no hint is one without a match. -/
def matched (hint : Option (SnapshotHint K)) : Nat := (hint.map SnapshotHint.matchPos).getD 0

variable {c} {d d' : OrderedDict K SnapshotEntry} {key : K} {entry : SnapshotEntry}

omit [DecidableEq K] in
lemma Kept.of_alike (kept : c.Kept d) (alike : d'.Alike d) : c.Kept d' where
  length_le := alike.length_eq ▸ kept.length_le
  sound key entry member := kept.sound key entry (alike.mem_iff.mp member)

omit [DecidableEq K] in
lemma Kept.empty : c.Kept .empty := ⟨Nat.zero_le _, nofun⟩

/-! ## What the operations leave -/

lemma alike_restore (d : OrderedDict K SnapshotEntry) (hint : Option (SnapshotHint K))
    (tokenIds : List Nat) : (restore d hint tokenIds).2.Alike d := by
  unfold restore
  cases hint with
  | none => exact .refl d
  | some hinted =>
    dsimp only
    cases hinted.matchKey with
    | none => exact .refl d
    | some key =>
      dsimp only
      split_ifs
      · exact .refl d
      · cases d.get key with
        | none => exact .refl d
        | some entry =>
          dsimp only
          split_ifs
          · exact .refl d
          · exact OrderedDict.alike_moveToEnd d key

lemma alike_captureBegin (d : OrderedDict K SnapshotEntry) (tokenIds : List Nat) (pos : Nat) :
    (c.captureBegin d tokenIds pos).1.Alike d := by
  unfold captureBegin
  split
  · exact .refl d
  · split_ifs
    · exact OrderedDict.alike_moveToEnd d _
    · exact .refl d

omit [DecidableEq K] in
lemma sound_captured {tokenIds : List Nat} {pos : Nat}
    (captured : c.captured tokenIds pos = some (key, entry)) : c.Sound key entry := by
  unfold PrefixSnapshotCache.captured at captured
  split_ifs at captured with allowed
  obtain ⟨rfl, rfl⟩ := Prod.mk.inj (Option.some.inj captured)
  obtain ⟨pos_pos, le, block, min⟩ := allowed
  have length : (tokenIds.take pos).length = pos := List.length_take_of_le le
  refine ⟨?_, length.symm, pos_pos, Nat.dvd_of_mod_eq_zero block, min⟩
  rw [length, PrefixSnapshotCache.key, PrefixSnapshotCache.key, List.take_take, Nat.min_self]

lemma sound_captureBegin {tokenIds : List Nat} {pos : Nat}
    (pending : (c.captureBegin d tokenIds pos).2 = some (key, entry)) : c.Sound key entry := by
  unfold captureBegin at pending
  split at pending
  next => cases pending
  next captured =>
    split_ifs at pending
    obtain ⟨rfl, rfl⟩ := Prod.mk.inj (Option.some.inj pending)
    exact sound_captured captured

lemma has_iff : has d key entry = true ↔ (key, entry) ∈ d.entries := by
  rw [← OrderedDict.get_eq_some, has]
  cases d.get key with
  | none => exact ⟨nofun, nofun⟩
  | some existing =>
    rw [decide_eq_true_iff]
    constructor
    · intro same
      rw [SnapshotEntry.eq_of_tokenIds same]
    · intro same
      rw [Option.some.inj same]

lemma mem_stored {e : K × SnapshotEntry} : e ∈ (stored d (some (key, entry))).entries ↔
    e = (key, entry) ∨ e.1 ≠ key ∧ e ∈ d.entries := by
  unfold stored
  dsimp only
  split_ifs with there
  · rw [(OrderedDict.alike_moveToEnd d key).mem_iff]
    have here := has_iff.mp there
    constructor
    · intro member
      rcases eq_or_ne e.1 key with same | other
      · exact Or.inl (List.inj_on_of_nodup_map d.nodup member here same)
      · exact Or.inr ⟨other, member⟩
    · rintro (rfl | ⟨-, member⟩)
      · exact here
      · exact member
  · exact OrderedDict.mem_insert

lemma Kept.captureEnd (kept : c.Kept d) (sound : c.Sound key entry) :
    c.Kept (c.captureEnd d (some (key, entry))) where
  length_le := by
    rw [PrefixSnapshotCache.captureEnd, OrderedDict.dropOldest, List.length_drop, excess]
    omega
  sound key' entry' member := by
    have before := List.mem_of_mem_drop member
    rcases mem_stored.mp before with new | ⟨-, old⟩
    · obtain ⟨rfl, rfl⟩ := Prod.mk.inj new
      exact sound
    · exact kept.sound key' entry' old

lemma mem_captureEnd {e : K × SnapshotEntry} (member : e ∈ d.entries) :
    e ∈ (c.captureEnd d (some (key, entry))).entries ∨ e ∈ c.evicted d (some (key, entry)) ∨
      e.1 = key ∧ e.2.tokenIds ≠ entry.tokenIds := by
  by_cases collides : e.1 = key ∧ e.2.tokenIds ≠ entry.tokenIds
  · exact Or.inr (Or.inr collides)
  · have kept : e ∈ (stored d (some (key, entry))).entries := by
      refine mem_stored.mpr ?_
      rcases eq_or_ne e.1 key with same | other
      · have tokens := not_not.mp (not_and.mp collides same)
        exact Or.inl (Prod.ext same (SnapshotEntry.eq_of_tokenIds tokens))
      · exact Or.inr ⟨other, member⟩
    have parts := List.take_append_drop (c.excess (stored d (some (key, entry))))
      (stored d (some (key, entry))).entries
    rw [← parts, List.mem_append] at kept
    rcases kept with oldest | rest
    · exact Or.inr (Or.inl oldest)
    · exact Or.inl rest

/-! ## Lookups -/

lemma longestMatch_mem {tokenIds : List Nat} {blocks n : Nat} {found : K}
    (eq : c.longestMatch d tokenIds blocks = some (n, found)) :
    found = c.key tokenIds n ∧ ∃ b, n = b * c.block ∧ 0 < b ∧ b ≤ blocks ∧
      ∃ entry, d.get found = some entry ∧ entry.tokenIds = tokenIds.take n := by
  induction blocks with
  | zero => cases eq
  | succ blocks ih =>
    have later (eq : c.longestMatch d tokenIds blocks = some (n, found)) :
        found = c.key tokenIds n ∧ ∃ b, n = b * c.block ∧ 0 < b ∧ b ≤ blocks + 1 ∧
          ∃ entry, d.get found = some entry ∧ entry.tokenIds = tokenIds.take n := by
      obtain ⟨keyed, b, whole, pos, le, hit⟩ := ih eq
      exact ⟨keyed, b, whole, pos, le.trans (Nat.le_succ _), hit⟩
    unfold longestMatch at eq
    dsimp only at eq
    cases got : d.get (c.key tokenIds ((blocks + 1) * c.block)) with
    | none =>
      rw [got] at eq
      exact later eq
    | some entry =>
      rw [got] at eq
      dsimp only at eq
      split_ifs at eq with same
      · obtain ⟨rfl, rfl⟩ := Prod.mk.inj (Option.some.inj eq)
        exact ⟨rfl, blocks + 1, rfl, Nat.succ_pos _, le_rfl, entry, got, same⟩
      · exact later eq

lemma le_longestMatch {tokenIds : List Nat} {b : Nat} (pos : 0 < b)
    (got : d.get (c.key tokenIds (b * c.block)) = some entry)
    (same : entry.tokenIds = tokenIds.take (b * c.block)) {blocks : Nat} (le : b ≤ blocks) :
    ∃ n found, c.longestMatch d tokenIds blocks = some (n, found) ∧ b * c.block ≤ n := by
  induction blocks with
  | zero => omega
  | succ blocks ih =>
    unfold longestMatch
    dsimp only
    rcases Nat.lt_or_ge blocks b with last | before
    · obtain rfl : b = blocks + 1 := by omega
      rw [got]
      dsimp only
      rw [if_pos same]
      exact ⟨_, _, rfl, le_rfl⟩
    · obtain ⟨n, found, eq, le'⟩ := ih before
      have longer : b * c.block ≤ (blocks + 1) * c.block := Nat.mul_le_mul_right _ (by omega)
      split
      · split_ifs
        · exact ⟨_, _, rfl, longer⟩
        · exact ⟨n, found, eq, le'⟩
      · exact ⟨n, found, eq, le'⟩

lemma Resident.blocks (kept : c.Kept d) {tokenIds : List Nat} {n : Nat}
    (resident : c.Resident d tokenIds n) : ∃ b entry, n = b * c.block ∧ 0 < b ∧
      b ≤ (tokenIds.length - 1) / c.block ∧ c.minTokens ≤ n ∧
      d.get (c.key tokenIds n) = some entry ∧ entry.tokenIds = tokenIds.take n := by
  obtain ⟨⟨b, whole⟩, proper, key, entry, member, same⟩ := resident
  have sound := kept.sound key entry member
  have length : entry.tokenIds.length = n := by
    rw [same, List.length_take_of_le proper.le]
  have pos : entry.pos = n := sound.pos_eq.trans length
  have keyed : key = c.key tokenIds n := by
    rw [sound.key_eq, length, same, PrefixSnapshotCache.key, PrefixSnapshotCache.key,
      List.take_take, Nat.min_self]
  have whole' : n = b * c.block := by rw [whole, Nat.mul_comm]
  refine ⟨b, entry, whole', ?_, ?_, pos ▸ sound.minTokens, ?_, same⟩
  · refine Nat.pos_of_ne_zero fun zero => ?_
    have positive := sound.pos_pos
    rw [pos, whole', zero, Nat.zero_mul] at positive
    exact absurd positive (lt_irrefl 0)
  · exact (Nat.le_div_iff_mul_le c.block_pos).mpr (by omega)
  · rw [← keyed]
    exact OrderedDict.get_eq_some.mpr member

/-- What the calls return from a cache. -/
structure Serves (c : PrefixSnapshotCache K) (d : OrderedDict K SnapshotEntry) : Prop where
  restore : ∀ hint tokenIds, (restore d hint tokenIds).1 = 0 ∨ ∃ key entry,
    (key, entry) ∈ d.entries ∧ entry.tokenIds = tokenIds.take (restore d hint tokenIds).1 ∧
      0 < (restore d hint tokenIds).1 ∧ (restore d hint tokenIds).1 < tokenIds.length
  lookup : ∀ tokenIds, matched (c.lookupHint d tokenIds).1 = 0 ∨
    c.Resident d tokenIds (matched (c.lookupHint d tokenIds).1)
  longest : ∀ tokenIds n, c.Resident d tokenIds n → n ≤ matched (c.lookupHint d tokenIds).1

lemma matched_lookupHint (tokenIds : List Nat) :
    matched (c.lookupHint d tokenIds).1 =
      if tokenIds.isEmpty || tokenIds.length / c.block * c.block < c.minTokens then 0
      else ((c.longestMatch d tokenIds ((tokenIds.length - 1) / c.block)).map Prod.fst).getD 0 := by
  by_cases early : (tokenIds.isEmpty ||
      decide (tokenIds.length / c.block * c.block < c.minTokens)) = true
  · rw [lookupHint, if_pos early, if_pos early]
    rfl
  · rw [lookupHint, if_neg early, if_neg early]
    cases c.longestMatch d tokenIds ((tokenIds.length - 1) / c.block) with
    | none => rfl
    | some found => rfl

lemma Kept.serves (kept : c.Kept d) : c.Serves d where
  restore hint tokenIds := by
    by_cases zero : (PrefixSnapshotCache.restore d hint tokenIds).1 = 0
    · exact Or.inl zero
    · obtain ⟨hinted, key, entry, -, -, found, pos, proper, tokens⟩ := restore_pos zero
      refine Or.inr ⟨key, entry, OrderedDict.get_eq_some.mp found, ?_, ?_, ?_⟩
      · rw [pos, tokens]
      · exact Nat.pos_of_ne_zero zero
      · rw [pos]
        exact proper
  lookup tokenIds := by
    rw [matched_lookupHint]
    split_ifs with early
    · exact Or.inl rfl
    · cases found : c.longestMatch d tokenIds ((tokenIds.length - 1) / c.block) with
      | none => exact Or.inl rfl
      | some hit =>
        obtain ⟨n, key⟩ := hit
        obtain ⟨-, b, rfl, -, le, entry, got, same⟩ := longestMatch_mem found
        refine Or.inr ⟨Nat.dvd_mul_left .., ?_, key, entry, OrderedDict.get_eq_some.mp got, same⟩
        rw [Bool.or_eq_true, List.isEmpty_iff] at early
        have some : 0 < tokenIds.length := List.length_pos_iff.mpr (not_or.mp early).1
        have inside : b * c.block ≤ tokenIds.length - 1 :=
          (Nat.le_div_iff_mul_le c.block_pos).mp le
        show b * c.block < tokenIds.length
        omega
  longest tokenIds n resident := by
    obtain ⟨b, entry, rfl, pos, le, min, got, same⟩ := resident.blocks kept
    rw [matched_lookupHint, if_neg]
    · obtain ⟨n, found, eq, le'⟩ := le_longestMatch pos got same le
      rw [eq]
      exact le'
    · rw [Bool.or_eq_true, List.isEmpty_iff, decide_eq_true_iff]
      have proper := resident.2.1
      rintro (none | short)
      · rw [none] at proper
        exact absurd proper (Nat.not_lt_zero _)
      · have inside : b ≤ tokenIds.length / c.block :=
          (Nat.le_div_iff_mul_le c.block_pos).mpr proper.le
        have le'' : b * c.block ≤ tokenIds.length / c.block * c.block :=
          Nat.mul_le_mul_right _ inside
        omega

/-! ## Runs -/

variable {s t : Shared K τ}

/-- The invariant of a run: the cache is kept, and so is what captures have left to store. -/
structure SharedInv (c : PrefixSnapshotCache K) (s : Shared K τ) : Prop where
  kept : c.Kept s.entries
  pending : ∀ thread key entry, s.pending thread = some (key, entry) → c.Sound key entry

omit [DecidableEq K] [DecidableEq τ] in
lemma SharedInv.init : SharedInv c (Shared.init : Shared K τ) := ⟨Kept.empty, nofun⟩

lemma SharedInv.step {e : Section K τ} (inv : SharedInv c s) (st : Shared.Step c s e t) :
    SharedInv c t := by
  cases st with
  | restore hint tokenIds => exact ⟨inv.kept.of_alike (alike_restore _ hint tokenIds), inv.pending⟩
  | lookupHint tokenIds => exact ⟨inv.kept.of_alike (lookupHint_alike _ tokenIds), inv.pending⟩
  | captureBegin thread tokenIds pos idle =>
    refine ⟨inv.kept.of_alike (alike_captureBegin _ tokenIds pos), fun other key entry left => ?_⟩
    dsimp only at left
    rcases eq_or_ne other thread with rfl | differs
    · rw [Function.update_self] at left
      exact sound_captureBegin left
    · rw [Function.update_of_ne differs] at left
      exact inv.pending other key entry left
  | captureEnd thread begun =>
    obtain ⟨⟨key, entry⟩, left⟩ := Option.ne_none_iff_exists'.mp begun
    refine ⟨?_, fun other key' entry' left' => ?_⟩
    · show c.Kept (c.captureEnd s.entries (s.pending thread))
      rw [left]
      exact inv.kept.captureEnd (inv.pending thread key entry left)
    · dsimp only at left'
      rcases eq_or_ne other thread with rfl | differs
      · rw [Function.update_self] at left'
        cases left'
      · rw [Function.update_of_ne differs] at left'
        exact inv.pending other key' entry' left'

/-- What the end of a capture does to the entries: the new one is there, all others were there, and
an entry goes only if it is among the oldest, or if its key is the new entry's. -/
structure Captures (c : PrefixSnapshotCache K) (d : OrderedDict K SnapshotEntry) (key : K)
    (entry : SnapshotEntry) : Prop where
  here : (key, entry) ∈ (c.captureEnd d (some (key, entry))).entries
  others : ∀ e ∈ (c.captureEnd d (some (key, entry))).entries, e = (key, entry) ∨ e ∈ d.entries
  keeps : ∀ e ∈ d.entries, e ∈ (c.captureEnd d (some (key, entry))).entries ∨
    e ∈ c.evicted d (some (key, entry)) ∨ e.1 = key ∧ e.2.tokenIds ≠ entry.tokenIds

lemma stored_cases (d : OrderedDict K SnapshotEntry) (key : K) (entry : SnapshotEntry) :
    (stored d (some (key, entry))).entries.length = d.entries.length ∨
      (stored d (some (key, entry))).entries = d.entries ++ [(key, entry)] := by
  unfold stored
  dsimp only
  split_ifs
  · exact Or.inl (OrderedDict.alike_moveToEnd d key).length_eq
  · unfold OrderedDict.insert
    dsimp only
    split_ifs
    · exact Or.inl (List.length_map ..)
    · exact Or.inr rfl

lemma Kept.captures (kept : c.Kept d) (key : K) (entry : SnapshotEntry) :
    c.Captures d key entry where
  here := by
    have stored : (key, entry) ∈ (stored d (some (key, entry))).entries :=
      mem_stored.mpr (Or.inl rfl)
    have room := kept.length_le
    have one := c.maxEntries_pos
    rw [PrefixSnapshotCache.captureEnd, OrderedDict.dropOldest, excess]
    dsimp only
    rcases stored_cases d key entry with same | newest
    · rw [same, Nat.sub_eq_zero_of_le room]
      exact stored
    · have old : (d.entries ++ [(key, entry)]).length - c.maxEntries ≤ d.entries.length := by
        rw [List.length_append, List.length_singleton]
        omega
      rw [newest, List.drop_append_of_le_length old]
      exact List.mem_append_right _ (List.mem_singleton_self _)
  others e member := (mem_stored.mp (List.mem_of_mem_drop member)).imp_right And.right
  keeps _ member := mem_captureEnd member

/-- In every state of every run the cache is kept, serves the right prefixes, and a capture replaces
an entry only if their keys collide. -/
theorem snapshot_runs (c : PrefixSnapshotCache K) {trace : List (Shared K τ × Section K τ)}
    {last : Shared K τ} (run : Run (Shared.Step c) Shared.init trace last) :
    Throughout (fun s => c.Kept s.entries ∧ c.Serves s.entries ∧
      ∀ thread key entry, s.pending thread = some (key, entry) → c.Captures s.entries key entry)
      trace last := by
  have always : Meets (fun (_ : Shared K τ) (_ : Section K τ) => True) trace := fun _ _ => trivial
  refine (run.invariant SharedInv.init (fun inv _ st => inv.step st) always).imp fun inv => ?_
  exact ⟨inv.kept, inv.kept.serves, fun _ key entry _ => inv.kept.captures key entry⟩

/-- Two snapshots under one key. -/
def oneKey : PrefixSnapshotCache Unit where
  block := 1
  block_pos := Nat.one_pos
  maxEntries := 2
  maxEntries_pos := Nat.two_pos
  minTokens := 1
  block_le_minTokens := le_rfl
  captureAll := false
  hash := fun _ _ => ()

/-- Two threads capture 1 and 2 at the same time; the later entry replaces the other one. -/
theorem snapshot_runs_collide : ∃ trace, ∃ last : Shared Unit Bool,
    Run (Shared.Step oneKey) Shared.init trace last ∧
      (restore last.entries (some ⟨some (), 1, []⟩) [1, 0]).1 = 0 ∧
      (restore last.entries (some ⟨some (), 1, []⟩) [2, 0]).1 = 1 ∧
      Throughout (fun s => oneKey.Kept s.entries ∧ oneKey.Serves s.entries ∧
        ∀ thread key entry, s.pending thread = some (key, entry) →
          oneKey.Captures s.entries key entry) trace last := by
  have run : Run (Shared.Step oneKey) (Shared.init : Shared Unit Bool) _ _ :=
    .cons (.captureBegin false [1] 1 rfl) <| .cons (.captureBegin true [2] 1 rfl) <|
    .cons (.captureEnd false (by decide)) <| .cons (.lookupHint [1, 0]) <|
    .cons (.captureEnd true (by decide)) <| .nil _
  exact ⟨_, _, run, by decide +kernel, by decide +kernel, snapshot_runs oneKey run⟩

end PocketMoE.Runtime.PrefixSnapshotCache
