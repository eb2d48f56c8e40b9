import Mathlib.Algebra.GroupWithZero.Nat
import PocketMoE.Backend.HostReduceSafety

/-!
# All calls of the reduction return

From any state some rank can go on until all have returned, and each step that does something takes the
remaining steps down. A call with elements after one without waits for ever, since the empty one was not
counted but has a slot.
-/

namespace PocketMoE.Backend

open Lib

section

variable {R : Type} [AddCommMonoid R] {job : Job R} {w : World job.worldSize R}
variable {r : Fin job.worldSize} {count : Nat}

omit [AddCommMonoid R] in
lemma moves {segment : Segment R} {self : Rank R}
    (other : self.pc ≠ (w.rank r).pc ∨ self.slot ≠ (w.rank r).slot) : w.put r segment self ≠ w := by
  intro same
  have stays : self = w.rank r :=
    (put_self w r segment self).symm.trans (congrArg (World.rank · r) same)
  rcases other with pc | slot
  · exact pc (congrArg Rank.pc stays)
  · exact slot (congrArg Rank.slot stays)

lemma stays (same : step job r w = w) : job.counts.length ≤ (w.rank r).slot ∨
    ∃ count, job.Live (w.rank r).slot count ∧ Waits w r count := by
  have next := steps r w
  generalize step job r w = w' at next same
  cases next with
  | ended all => exact .inl all
  | wait live waits => exact .inr ⟨_, live, waits⟩
  | skip | leave => exact absurd same (moves (.inr (Nat.succ_ne_self _)))
  | store live pc | load live pc | element live pc =>
    exact absurd same (moves (.inl (by rw [pc]; simp)))
  | truncate live pc | opened live pc | send live pc | sum live pc | receive live pc =>
    exact absurd same (moves (.inl (by rw [pc]; exact nofun)))
  | fault live pc =>
    rcases pc with ⟨pc, -⟩ | ⟨acc, pc⟩ <;> exact absurd same (moves (.inl (by rw [pc]; exact nofun)))

lemma not_counter1 (inv : Inv job w) (orderly : job.Orderly) (idle : ∀ r, step job r w = w)
    (live : job.Live (w.rank r).slot count) (pc : (w.rank r).pc = .await1) :
    ¬ w.segment.counter1 < job.target (w.rank r).slot := by
  intro short
  have round := live.rounds_eq orderly
  have read : (w.rank r).read job = (w.rank r).slot + 1 := by
    rw [Rank.read, round, pc]
    rfl
  rw [Job.target, Nat.mod_eq_of_lt (live.target orderly), inv.counted.counter1] at short
  obtain ⟨r', late⟩ := some_below short
  have sent := inv.counted.read r r'
  obtain ⟨count', live', reading, slot, sent'⟩ := sent_unread (r := r') inv orderly (by omega)
  have least := inv.counted.slot r r'
  rcases stays (idle r') with finished | ⟨count'', live'', waits⟩
  · have inside := (List.getElem?_eq_some_iff.mp live'.is).1
    omega
  cases waits with
  | size pc' =>
    rw [Rank.sent, pc'] at sent'
    exact absurd sent' (Nat.succ_ne_self _).symm
  | counter0 pc' short' =>
    rw [Job.target, Nat.mod_eq_of_lt (live''.target orderly), inv.counted.counter0] at short'
    obtain ⟨r'', unsent⟩ := some_below short'
    have all := inv.counted.read r r''
    omega
  | counter1 pc' =>
    rw [pc'] at reading
    cases reading
  | killed pc' => exact not_killed inv r' pc'

lemma not_size (inv : Inv job w) (orderly : job.Orderly) (idle : ∀ r, step job r w = w)
    (live : job.Live (w.rank r).slot count) (pc : (w.rank r).pc = .enter) :
    ¬ w.segment.size < job.bytes count := by
  intro short
  have round := live.rounds_eq orderly
  have several := live.several
  have read : (w.rank r).read job = (w.rank r).slot := by
    rw [Rank.read, round, pc]
    rfl
  rcases stays (idle ⟨0, by omega⟩) with finished | ⟨count', live', waits⟩
  · -- it has not passed this call
    have inside := (List.getElem?_eq_some_iff.mp live.is).1
    have passed := rounds_mono job (Nat.le_trans inside finished)
    have most := inv.counted.slot ⟨0, by omega⟩ r
    rw [live.succ, round] at passed
    omega
  cases waits with
  | size pc' other => exact other rfl
  | counter0 pc' =>
    have slots := same_call inv orderly live live' (pc ▸ rfl) (pc' ▸ rfl)
    obtain rfl := Option.some.inj (live.is.symm.trans (slots ▸ live'.is))
    have ok := inv.live _ _ live'
    rw [PcOk, pc'] at ok
    exact absurd ok (Nat.not_le.mpr short)
  | killed pc' => exact not_killed inv _ pc'
  | counter1 pc' short' => exact not_counter1 inv orderly idle live' pc' short'

lemma not_counter0 (inv : Inv job w) (orderly : job.Orderly) (idle : ∀ r, step job r w = w)
    (live : job.Live (w.rank r).slot count) (pc : (w.rank r).pc = .await0) :
    ¬ w.segment.counter0 < job.target (w.rank r).slot := by
  intro short
  have round := live.rounds_eq orderly
  have read : (w.rank r).read job = (w.rank r).slot := by
    rw [Rank.read, round, pc]
    rfl
  rw [Job.target, Nat.mod_eq_of_lt (live.target orderly), inv.counted.counter0] at short
  obtain ⟨r', late⟩ := some_below short
  rcases stays (idle r') with finished | ⟨count', live', waits⟩
  · have inside := (List.getElem?_eq_some_iff.mp live.is).1
    have passed := rounds_mono job (Nat.le_trans inside finished)
    have most : job.rounds (w.rank r').slot ≤ (w.rank r').sent job := Nat.le_add_right _ _
    rw [live.succ, round] at passed
    omega
  cases waits with
  | size pc' other short' => exact not_size inv orderly idle live' pc' short'
  | counter0 pc' =>
    have slots := same_call inv orderly live live' (pc ▸ rfl) (pc' ▸ rfl)
    have sent : (w.rank r').sent job = job.rounds (w.rank r').slot + 1 := by
      rw [Rank.sent, pc']
      rfl
    rw [← slots, round] at sent
    omega
  | killed pc' => exact not_killed inv _ pc'
  | counter1 pc' short' => exact not_counter1 inv orderly idle live' pc' short'

/-- Some rank can go on. -/
theorem progress (inv : Inv job w) (orderly : job.Orderly) (more : ¬ Done job w) :
    ∃ r, step job r w ≠ w := by
  by_contra! idle
  refine more fun r => ?_
  rcases stays (idle r) with finished | ⟨count, live, waits⟩
  · exact finished
  cases waits with
  | size pc other short => exact absurd short (not_size inv orderly idle live pc)
  | counter0 pc short => exact absurd short (not_counter0 inv orderly idle live pc)
  | counter1 pc short => exact absurd short (not_counter1 inv orderly idle live pc)
  | killed pc => exact absurd pc (not_killed inv r)

end

section

variable {R : Type} [AddCommMonoid R] (job : Job R)

/-- A bound of the steps of a call. -/
def Job.cost (count : Nat) : Nat :=
  5 + count + count * (job.worldSize + 1) + job.worldSize

/-- The steps that a call has made. -/
def Pc.made (count : Nat) : Pc R → Nat
  | .enter => 0
  | .copy i => 1 + i
  | .await0 => 2 + count
  | .sum i r _ => 3 + count + i * (job.worldSize + 1) + r
  | .await1 => 4 + count + count * (job.worldSize + 1) + job.worldSize
  | .killed => 0

/-- A bound of the steps that a rank has still to make. -/
def Rank.remaining (self : Rank R) : Nat :=
  ((job.counts.drop self.slot).map job.cost).sum - self.pc.made job (job.counts.getD self.slot 0)

/-- A bound of the steps that all ranks have still to make. -/
def remaining (w : World job.worldSize R) : Nat := ∑ r, (w.rank r).remaining job

end

section

variable {R : Type} {job : Job R} {w : World job.worldSize R} {r : Fin job.worldSize} {count : Nat}

lemma remaining_eq {self : Rank R} (is : job.counts[self.slot]? = some count) :
    self.remaining job = job.cost count + ((job.counts.drop (self.slot + 1)).map job.cost).sum -
      self.pc.made job count := by
  obtain ⟨inside, eq⟩ := List.getElem?_eq_some_iff.mp is
  rw [Rank.remaining, List.drop_eq_getElem_cons inside, eq, List.map_cons, List.sum_cons,
    List.getD_eq_getElem?_getD, is, Option.getD_some]

lemma less_within {segment : Segment R} {self : Rank R}
    (is : job.counts[(w.rank r).slot]? = some count) (slot : self.slot = (w.rank r).slot)
    (more : (w.rank r).pc.made job count < self.pc.made job count)
    (bound : self.pc.made job count ≤ job.cost count) :
    remaining job (w.put r segment self) < remaining job w := by
  have is' : job.counts[self.slot]? = some count := slot ▸ is
  refine sum_less (i := r) ?_ fun r' other => by rw [put_other w other]
  rw [put_self, remaining_eq is, remaining_eq is', slot]
  omega

lemma less_return {segment : Segment R} (is : job.counts[(w.rank r).slot]? = some count)
    (bound : (w.rank r).pc.made job count < job.cost count) :
    remaining job (w.put r segment ((w.rank r).return job r)) < remaining job w := by
  refine sum_less (i := r) ?_ fun r' other => by rw [put_other w other]
  rw [put_self, remaining_eq is]
  have after : ((w.rank r).return job r).remaining job =
      ((job.counts.drop ((w.rank r).slot + 1)).map job.cost).sum := Nat.sub_zero _
  rw [after]
  omega

end

section

variable {R : Type} [AddCommMonoid R] {job : Job R} {w : World job.worldSize R}

theorem remaining_less (r : Fin job.worldSize) (w : World job.worldSize R) (inv : Inv job w) (moves : step job r w ≠ w) :
    remaining job (step job r w) < remaining job w := by
  have next := steps r w
  generalize step job r w = w' at next moves
  have cost (count) : job.cost count =
    5 + count + count * (job.worldSize + 1) + job.worldSize := rfl
  cases next with
  | ended | wait => exact absurd rfl moves
  | skip is skipped =>
    have idle := inv.idle r fun count' live => by
      obtain rfl := Option.some.inj (is.symm.trans live.is)
      have filled := live.filled
      have several := live.several
      omega
    exact less_return is (by rw [idle, cost, Pc.made]; omega)
  | truncate live pc | opened live pc =>
    exact less_within live.is rfl (by rw [pc, Pc.made, Pc.made]; omega) (by rw [Pc.made, cost]; omega)
  | store live pc | send live pc =>
    have ok := inv.live r _ live
    rw [PcOk, pc] at ok
    have most := ok.1
    exact less_within live.is rfl (by rw [pc, Pc.made, Pc.made]; omega) (by rw [Pc.made, cost]; omega)
  | sum live pc =>
    exact less_within live.is rfl (by rw [pc, Pc.made, Pc.made]; omega) (by rw [Pc.made, cost]; omega)
  | load live pc inside next =>
    have row := Nat.mul_le_mul_right (job.worldSize + 1) inside
    rw [Nat.succ_mul] at row
    exact less_within live.is rfl (by rw [pc, Pc.made, Pc.made]; omega) (by rw [Pc.made, cost]; omega)
  | element live pc inside =>
    have ok := inv.live r _ live
    rw [PcOk, pc] at ok
    obtain ⟨-, -, most, -⟩ := ok
    have row := Nat.mul_le_mul_right (job.worldSize + 1) inside
    rw [Nat.succ_mul] at row
    exact less_within live.is rfl (by rw [pc, Pc.made, Pc.made, Nat.succ_mul]; omega)
      (by rw [Pc.made, cost, Nat.succ_mul]; omega)
  | receive live pc outside =>
    have ok := inv.live r _ live
    rw [PcOk, pc] at ok
    obtain ⟨-, most, most', -⟩ := ok
    have rows := Nat.mul_le_mul_right (job.worldSize + 1) most
    exact less_within live.is rfl (by rw [pc, Pc.made, Pc.made]; omega) (by rw [Pc.made, cost]; omega)
  | leave live pc => exact less_return live.is (by rw [pc, Pc.made, cost]; omega)
  | fault live pc inside row outside => exact absurd (PcOk.holds inv live pc inside row) outside

lemma unread (inv : Inv job w) (orderly : job.Orderly) : Unread job w := by
  intro r r' i pc reading
  have live : ∃ count, job.Live (w.rank r).slot count := by
    by_contra! none
    rw [inv.idle r none] at pc
    cases pc
  obtain ⟨count, live⟩ := live
  have least := inv.counted.slot r r'
  have most := rounds_le job (w.rank r').slot
  have read : (w.rank r').read job = job.rounds (w.rank r').slot := by
    rw [Rank.read]
    cases pc' : (w.rank r').pc <;> first | rfl | (rw [pc'] at reading; cases reading)
  rw [live.rounds_eq orderly, read] at least
  omega

lemma orderly_collective (orderly : job.Orderly) : Collective job := by
  intro schedule
  constructor
  · intro n
    have inv := at_invariant (inv_start job) (inv_step orderly) schedule n
    exact ⟨inv.correct, unread inv orderly, not_killed inv⟩
  · exact fair_done (inv_start job) (inv_step orderly) (remaining job) remaining_less
      fun w inv more => progress inv orderly more

end

section

variable {R : Type} {job : Job R}

/-- The rank is before the sums of its call. -/
def Pc.early : Pc R → Bool
  | .sum .. => false
  | .await1 => false
  | _ => true

/-- No rank gets past a call. -/
structure Behind (job : Job R) (slot : Nat) (w : World job.worldSize R) : Prop where
  counter0 : w.segment.counter0 ≤ ∑ r, (w.rank r).sent job
  place : ∀ r, (w.rank r).slot < slot ∨ (w.rank r).slot = slot ∧ (w.rank r).pc.early
  idle : ∀ r, (∀ count, ¬ job.Live (w.rank r).slot count) → (w.rank r).pc = .enter

variable {w : World job.worldSize R} {r : Fin job.worldSize} {slot count : Nat}

lemma Pc.sent_le (pc : Pc R) : pc.sent ≤ 1 := by
  cases pc <;> first | exact Nat.le_refl 1 | exact Nat.zero_le 1

lemma Behind.put (behind : Behind job slot w) {segment : Segment R} {self : Rank R}
    (counter0 : segment.counter0 + (w.rank r).sent job ≤ w.segment.counter0 + self.sent job)
    (place : self.slot < slot ∨ self.slot = slot ∧ self.pc.early)
    (idle : (∀ count, ¬ job.Live self.slot count) → self.pc = .enter) :
    Behind job slot (w.put r segment self) := by
  refine ⟨?_, fun r' => ?_, fun r' none => ?_⟩
  · have swap : ∑ r', ((w.put r segment self).rank r').sent job + (w.rank r).sent job =
        ∑ r', (w.rank r').sent job + ((w.put r segment self).rank r).sent job :=
      sum_swap (i := r) (f := fun r' => (w.rank r').sent job)
        (g := fun r' => ((w.put r segment self).rank r').sent job) fun r' other => by
          rw [put_other w other]
    have before := behind.counter0
    rw [put_self] at swap
    show segment.counter0 ≤ _
    omega
  · by_cases same : r' = r
    · rw [same, put_self]
      exact place
    · rw [put_other w same]
      exact behind.place r'
  · by_cases same : r' = r
    · rw [same, put_self] at none ⊢
      exact idle none
    · rw [put_other w same] at none ⊢
      exact behind.idle r' none

lemma Behind.call (behind : Behind job slot w) (live : job.Live (w.rank r).slot count)
    {segment : Segment R} {self : Rank R} (same : self.slot = (w.rank r).slot)
    (counter0 : segment.counter0 + (w.rank r).pc.sent ≤ w.segment.counter0 + self.pc.sent)
    (place : (w.rank r).slot = slot → self.pc.early) :
    Behind job slot (w.put r segment self) := by
  refine behind.put ?_ ?_ fun none => absurd (same ▸ live) (none count)
  · rw [Rank.sent, Rank.sent, same]
    omega
  · rcases behind.place r with early | ⟨here, -⟩
    · exact .inl (same ▸ early)
    · exact .inr ⟨same.trans here, place here⟩

lemma fetchAndAdd_le (counter : Nat) : fetchAndAdd counter ≤ counter + 1 := Nat.mod_le _ _

lemma Behind.short (behind : Behind job slot w) (live : job.Live slot count)
    (uncounted : job.rounds slot < slot) (few : job.counts.length * job.worldSize < 2 ^ 64) :
    w.segment.counter0 < job.target slot := by
  obtain ⟨inside, -⟩ := List.getElem?_eq_some_iff.mp live.is
  have bound : (slot + 1) * job.worldSize < 2 ^ 64 :=
    Nat.lt_of_le_of_lt (Nat.mul_le_mul_right _ inside) few
  have each : ∀ r', (w.rank r').sent job ≤ slot := by
    intro r'
    have most := (w.rank r').pc.sent_le
    have here := rounds_le job (w.rank r').slot
    rw [Rank.sent]
    rcases behind.place r' with early | ⟨here', -⟩
    · omega
    · rw [here']
      omega
  have total := behind.counter0.trans (sum_le_bound each)
  have several := live.several
  rw [Job.target, Nat.mod_eq_of_lt bound, Nat.succ_mul]
  omega

lemma behind_step [AddCommMonoid R] (live : job.Live slot count) (uncounted : job.rounds slot < slot)
    (few : job.counts.length * job.worldSize < 2 ^ 64) (r : Fin job.worldSize)
    (w : World job.worldSize R) (behind : Behind job slot w) : Behind job slot (step job r w) := by
  have next := steps r w
  generalize step job r w = w' at next
  -- past a call that is not the one
  have past (early : (w.rank r).slot < slot) : (w.rank r).slot + 1 < slot ∨
      (w.rank r).slot + 1 = slot ∧ (Pc.enter : Pc R).early := by
    rcases Nat.lt_or_eq_of_le (Nat.succ_le_of_lt early) with less | here
    · exact .inl less
    · exact .inr ⟨here, rfl⟩
  have before (late : (w.rank r).pc.early = false) : (w.rank r).slot < slot := by
    rcases behind.place r with less | ⟨-, early⟩
    · exact less
    · rw [late] at early
      cases early
  cases next with
  | ended | wait => exact behind
  | @skip count' is skipped =>
    have dead : ∀ count'', ¬ job.Live (w.rank r).slot count'' := by
      intro count'' live'
      obtain rfl := Option.some.inj (is.symm.trans live'.is)
      have filled := live'.filled
      have several := live'.several
      omega
    refine behind.put ?_ (past ?_) fun _ => rfl
    · rw [Rank.sent, behind.idle r dead]
      exact Nat.add_le_add_left (rounds_mono job (Nat.le_succ _)) _
    · rcases behind.place r with early | ⟨here, -⟩
      · exact early
      · exact absurd live (here ▸ dead count)
  | truncate live' pc | opened live' pc | store live' pc =>
    exact behind.call live' rfl (pc ▸ Nat.le_refl _) fun _ => rfl
  | send live' pc => exact behind.call live' rfl (pc ▸ fetchAndAdd_le _) fun _ => rfl
  | sum live' pc counted =>
    refine behind.call live' rfl (pc ▸ Nat.le_refl _) fun here => ?_
    rw [here] at counted
    exact absurd (behind.short live uncounted few) counted
  | load live' pc | element live' pc | receive live' pc =>
    exact behind.call live' rfl (pc ▸ Nat.le_refl _) fun here =>
      absurd here (Nat.ne_of_lt (before (pc ▸ rfl)))
  | leave live' pc =>
    refine behind.put ?_ (past (before (pc ▸ rfl))) fun _ => rfl
    rw [Rank.sent, pc]
    exact Nat.add_le_add_left (Nat.le_of_eq live'.succ.symm) _
  | fault live' pc =>
    refine behind.call live' rfl ?_ fun _ => rfl
    exact Nat.add_le_add_left (w.rank r).pc.sent_le _

lemma rounds_lt (job : Job R) {early slot : Nat} (before : early < slot)
    (empty : job.counts[early]? = some 0) : job.rounds slot < slot := by
  have skipped := rounds_skipped empty (.inl rfl)
  have least := rounds_le job early
  have later : ∀ slot, early < slot → job.rounds slot < slot := by
    intro slot before
    induction slot, before using Nat.le_induction with
    | base => exact Nat.lt_succ_of_le (skipped.le.trans least)
    | succ slot before ih =>
      have one : job.rounds (slot + 1) ≤ job.rounds slot + 1 := by
        rw [Job.rounds, Job.rounds]
        split
        · exact Nat.zero_le _
        · rw [List.take_add_one, List.countP_append]
          exact Nat.add_le_add_left (List.countP_le_length.trans (by cases job.counts[slot]? <;> simp)) _
      omega
  exact later slot before

/-- The ranks in turn. -/
def inTurn {n : Nat} (several : 0 < n) (i : Nat) : Fin n := ⟨i % n, Nat.mod_lt i several⟩

lemma fair_inTurn {n : Nat} (several : 0 < n) : Fair (inTurn several) := by
  intro p m
  refine ⟨m * n + p, Nat.le_trans (Nat.le_mul_of_pos_right m several) (Nat.le_add_right _ _), ?_⟩
  refine Fin.ext ?_
  show (m * n + p) % n = p
  exact Nat.mul_add_mod_of_lt p.isLt

lemma never_done [AddCommMonoid R] (live : job.Live slot count) (uncounted : job.rounds slot < slot)
    (few : job.counts.length * job.worldSize < 2 ^ 64) (schedule : Nat → Fin job.worldSize) (n : Nat) :
    ¬ Done job (stateAt (step job) schedule (start job) n) := by
  intro done
  have first : Behind job slot (start job) :=
    ⟨Nat.zero_le _, fun _ => .inl (Nat.zero_lt_of_lt uncounted), fun _ _ => rfl⟩
  have behind := at_invariant first (behind_step live uncounted few) schedule n
  have several := live.several
  obtain ⟨inside, -⟩ := List.getElem?_eq_some_iff.mp live.is
  have all := done ⟨0, by omega⟩
  rcases behind.place ⟨0, by omega⟩ with early | ⟨here, -⟩ <;> omega

/-- The reduction is a collective if and only if no call with elements comes after one without. -/
theorem allreduce_iff [AddCommMonoid R] (job : Job R)
    (few : job.counts.length * job.worldSize < 2 ^ 64) :
    Collective job ↔ job.Filled := by
  constructor
  · intro collective
    by_contra empty
    rw [Job.Filled, not_or, List.pairwise_iff_getElem] at empty
    push Not at empty
    obtain ⟨several, early, slot, inside, inside', before, filled, none⟩ := empty
    have live : job.Live slot job.counts[slot] :=
      ⟨List.getElem?_eq_getElem inside', filled, several⟩
    have uncounted := rounds_lt job before
      ((List.getElem?_eq_getElem inside).trans (congrArg some (Nat.le_zero.mp none)))
    have positive : 0 < job.worldSize := by omega
    obtain ⟨n, done⟩ := (collective (inTurn positive)).2 (fair_inTurn positive)
    exact never_done live uncounted few _ n done
  · exact fun filled => orderly_collective ⟨few, filled⟩

end

/-- Two ranks reduce a tensor of no elements, and then one of one element. -/
def emptyFirst : Job Int where
  worldSize := 2
  counts := [0, 1]
  input _ _ _ := 1

/-- Two ranks reduce a tensor of one element, and then one of two. -/
def growing : Job Int where
  worldSize := 2
  counts := [1, 2]
  input rank call i := rank + call + i

theorem allreduce_iff_growing : growing.counts.length * growing.worldSize < 2 ^ 64 ∧
    Collective growing ∧ growing.Filled := by
  have few : growing.counts.length * growing.worldSize < 2 ^ 64 := by decide
  have filled : growing.Filled := .inr (by decide)
  exact ⟨few, (allreduce_iff growing few).mpr filled, filled⟩

/-- After the empty tensor both ranks wait for ever. -/
theorem waits_forever : ¬ ∃ schedule n, Done emptyFirst (stateAt (step emptyFirst) schedule
    (start emptyFirst) n) := by
  have live : emptyFirst.Live 1 1 := ⟨rfl, by decide, by decide⟩
  rintro ⟨schedule, n, done⟩
  exact never_done live (by decide) (by decide) schedule n done

end PocketMoE.Backend
