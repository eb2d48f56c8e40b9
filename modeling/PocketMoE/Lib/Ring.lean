import Mathlib.Data.List.Basic
import Mathlib.Data.List.Nodup
import Mathlib.Data.List.Range
import Mathlib.Logic.Function.Basic
import Mathlib.Tactic.Lemma

/-!
# Ring memories

A ring of `w` slots keeps the row of position `p` in slot `p % w`. `Holds w row mem lo n` says that
`mem` is what is left after the rows of the positions `lo .. n - 1` went through the ring: every
position that no later one shares its slot with is still there. A write of the next position keeps
it (`Holds.write`), hence so does a run of writes (`Holds.writeRows`).
-/

namespace PocketMoE.Ring

variable {α : Type*} {w lo n : Nat} {row : Nat → α} {mem : Nat → α}

lemma slot_ne {p q : Nat} (lt : p < q) (near : q < p + w) : p % w ≠ q % w := by
  intro e
  have dvd : w ∣ q - p := Nat.dvd_of_mod_eq_zero (Nat.sub_mod_eq_zero_of_mod_eq e.symm)
  have := Nat.le_of_dvd (by omega) dvd
  omega

lemma exists_slot {slot : Nat} (hs : slot < w) (base : Nat) :
    ∃ p, base ≤ p ∧ p < base + w ∧ p % w = slot := by
  have hw : 0 < w := by omega
  have hb : base % w < w := Nat.mod_lt _ hw
  by_cases h : base % w ≤ slot
  · refine ⟨base + (slot - base % w), by omega, by omega, ?_⟩
    rw [Nat.add_mod, Nat.mod_eq_of_lt (show slot - base % w < w from by omega),
      show base % w + (slot - base % w) = slot from by omega, Nat.mod_eq_of_lt hs]
  · refine ⟨base + (w + slot - base % w), by omega, by omega, ?_⟩
    rw [Nat.add_mod, Nat.mod_eq_of_lt (show w + slot - base % w < w from by omega),
      show base % w + (w + slot - base % w) = slot + w from by omega, Nat.add_mod_right,
      Nat.mod_eq_of_lt hs]

/-- Write the rows of the positions `start`, `start + 1`, … in this order. -/
def writeRows (w : Nat) (mem : Nat → α) : Nat → List α → (Nat → α)
  | _, [] => mem
  | start, r :: rs => writeRows w (Function.update mem (start % w) r) (start + 1) rs

/-- `mem` is what a ring of `w` slots keeps of the rows of the positions `lo .. n - 1`. -/
def Holds (w : Nat) (row : Nat → α) (mem : Nat → α) (lo n : Nat) : Prop :=
  ∀ p, lo ≤ p → p < n → n ≤ p + w → mem (p % w) = row p

lemma Holds.start : Holds w row mem n n := by
  intro p ge lt
  omega

lemma Holds.mono {lo' : Nat} (hold : Holds w row mem lo n) (le : lo ≤ lo') :
    Holds w row mem lo' n :=
  fun p ge => hold p (le.trans ge)

lemma Holds.congr {mem' : Nat → α} (hold : Holds w row mem lo n) (hw : 0 < w)
    (same : ∀ slot, slot < w → mem' slot = mem slot) : Holds w row mem' lo n := by
  intro p ge lt near
  rw [same _ (Nat.mod_lt p hw)]
  exact hold p ge lt near

lemma Holds.write (hold : Holds w row mem lo n) :
    Holds w row (Function.update mem (n % w) (row n)) lo (n + 1) := by
  intro p ge lt near
  rcases Nat.lt_succ_iff_lt_or_eq.mp lt with older | rfl
  · rw [Function.update_of_ne (slot_ne older (by omega))]
    exact hold p ge older (by omega)
  · rw [Function.update_self]

lemma Holds.writeRows {k : Nat} (hold : Holds w row mem lo n) :
    Holds w row (writeRows w mem n ((List.range k).map fun i => row (n + i))) lo (n + k) := by
  induction k generalizing n mem with
  | zero => simpa [Ring.writeRows] using hold
  | succ k ih =>
    have next := ih hold.write
    rw [List.range_succ_eq_map]
    simpa [Ring.writeRows, Function.comp_def, Nat.add_assoc, Nat.add_comm 1] using next

lemma writeRows_of_ne {start slot : Nat} {rows : List α}
    (ne : ∀ i, i < rows.length → (start + i) % w ≠ slot) :
    Ring.writeRows w mem start rows slot = mem slot := by
  induction rows generalizing start mem with
  | nil => rfl
  | cons r rs ih =>
    rw [Ring.writeRows, ih]
    · exact Function.update_of_ne (Ne.symm (ne 0 (by simp))) _ _
    · intro i lt
      have := ne (i + 1) (by simpa using lt)
      rwa [show start + 1 + i = start + (i + 1) from by omega]

lemma writeRows_append (start : Nat) (rows rows' : List α) :
    Ring.writeRows w mem start (rows ++ rows') =
      Ring.writeRows w (Ring.writeRows w mem start rows) (start + rows.length) rows' := by
  induction rows generalizing mem start with
  | nil => rfl
  | cons r rs ih =>
    rw [List.cons_append, Ring.writeRows, ih, Ring.writeRows, List.length_cons,
      Nat.add_right_comm, Nat.add_assoc]

lemma writeRows_at {start r : Nat} {rows : List α} {a : α} (few : rows.length ≤ w)
    (row : rows[r]? = some a) : Ring.writeRows w mem start rows ((start + r) % w) = a := by
  induction rows generalizing mem start r with
  | nil => simp at row
  | cons b rs ih =>
    rw [List.length_cons] at few
    cases r with
    | zero =>
      obtain rfl : b = a := by simpa using row
      rw [Ring.writeRows, writeRows_of_ne]
      · exact Function.update_self _ _ _
      · exact fun i lt => (slot_ne (by omega) (by omega)).symm
    | succ r =>
      have later := @ih (Function.update mem (start % w) b) (start + 1) r (by omega)
        (by simpa using row)
      rwa [Nat.add_assoc, Nat.add_comm 1] at later

lemma writeRows_full {mem' : Nat → α} {start : Nat} {rows : List α} (full : rows.length = w)
    (agree : ∀ slot, w ≤ slot → mem slot = mem' slot) :
    Ring.writeRows w mem start rows = Ring.writeRows w mem' start rows := by
  funext slot
  cases Nat.lt_or_ge slot w with
  | inl inside =>
    obtain ⟨p, ge, lt, rfl⟩ := exists_slot inside start
    obtain ⟨r, rfl⟩ := Nat.exists_eq_add_of_le ge
    have row := List.getElem?_eq_getElem (show r < rows.length from by omega)
    rw [writeRows_at full.le row, writeRows_at full.le row]
  | inr outside =>
    have ne : ∀ i, i < rows.length → (start + i) % w ≠ slot := by
      intro i lt
      have := Nat.mod_lt (start + i) (show 0 < w from by omega)
      omega
    rw [writeRows_of_ne ne, writeRows_of_ne ne]
    exact agree slot outside

/-! ## Two memories -/

/-- Memories that agree on the slots that the positions before `n` take. -/
def Agree (w : Nat) (mem mem' : Nat → α) (n : Nat) : Prop :=
  ∀ slot, slot < w → slot < n → mem slot = mem' slot

variable {mem' : Nat → α}

lemma Agree.write (agree : Agree w mem mem' n) (r : α) :
    Agree w (Function.update mem (n % w) r) (Function.update mem' (n % w) r) (n + 1) := by
  intro slot lt le
  by_cases here : slot = n % w
  · rw [here, Function.update_self, Function.update_self]
  · rw [Function.update_of_ne here, Function.update_of_ne here]
    -- a slot of its own number that is not written now was written before
    refine agree slot lt (Nat.lt_of_le_of_ne (Nat.le_of_lt_succ le) fun same => here ?_)
    rw [← same, Nat.mod_eq_of_lt lt]

lemma Agree.writeRows (agree : Agree w mem mem' n) (rows : List α) :
    Agree w (writeRows w mem n rows) (writeRows w mem' n rows) (n + rows.length) := by
  induction rows generalizing mem mem' n with
  | nil => exact agree
  | cons r rows ih =>
    rw [List.length_cons, Nat.add_comm rows.length, ← Nat.add_assoc]
    exact ih (agree.write r)

lemma slots_perm (hw : 0 < w) (p : Nat) :
    ((List.range (min (p + 1) w)).map fun i => (p + 1 - min (p + 1) w + i) % w).Perm
      (List.range (min (p + 1) w)) := by
  cases Nat.lt_or_ge p w with
  | inl low =>
    have same : ∀ i ∈ List.range (min (p + 1) w),
        (p + 1 - min (p + 1) w + i) % w = i := by
      intro i member
      have lt := List.mem_range.mp member
      rw [Nat.min_eq_left (by omega), Nat.sub_self, Nat.zero_add, Nat.mod_eq_of_lt (by omega)]
    rw [List.map_congr_left same, List.map_id']
  | inr high =>
    rw [Nat.min_eq_right (by omega)]
    refine (List.perm_ext_iff_of_nodup ?_ List.nodup_range).mpr fun slot => ?_
    · refine List.Nodup.map_on ?_ List.nodup_range
      intro i hi j hj eq
      have hi := List.mem_range.mp hi
      have hj := List.mem_range.mp hj
      rcases Nat.lt_trichotomy i j with lt | same | gt
      · exact absurd eq (slot_ne (by omega) (by omega))
      · exact same
      · exact absurd eq.symm (slot_ne (by omega) (by omega))
    · rw [List.mem_range, List.mem_map]
      constructor
      · rintro ⟨i, -, rfl⟩
        exact Nat.mod_lt _ hw
      · intro lt
        obtain ⟨q, ge, lt', rfl⟩ := exists_slot lt (p + 1 - w)
        exact ⟨q - (p + 1 - w), List.mem_range.mpr (by omega),
          by rw [Nat.add_sub_cancel' ge]⟩

end PocketMoE.Ring
