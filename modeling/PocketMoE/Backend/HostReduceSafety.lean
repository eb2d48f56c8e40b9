import PocketMoE.Backend.HostReduce
import Mathlib.Data.List.TakeDrop

/-!
# The reduction is a collective

No rank is further than one phase ahead of another (`Counted`), so what a rank reads is what the others
wrote for the same call (`Inv.contribution`), and while a rank reads nothing is overwritten.
-/

namespace PocketMoE.Backend

open Lib

section

variable {R : Type} (job : Job R)

/-- The segment and a rank change. -/
def World.put {n : Nat} (w : World n R) (r : Fin n) (segment : Segment R) (self : Rank R) :
    World n R where
  segment := segment
  rank := Function.update w.rank r self

lemma put_self {n : Nat} (w : World n R) (r : Fin n) (segment : Segment R) (self : Rank R) :
    (w.put r segment self).rank r = self := Function.update_self ..

lemma put_other {n : Nat} (w : World n R) {r r' : Fin n} (other : r' ≠ r) (segment : Segment R)
    (self : Rank R) : (w.put r segment self).rank r' = w.rank r' := Function.update_of_ne other ..

/-- The call takes part in the counting. -/
structure Job.Live (slot count : Nat) : Prop where
  is : job.counts[slot]? = some count
  filled : 0 < count
  several : 1 < job.worldSize

/-- The calls before a slot that take part. -/
def Job.rounds (slot : Nat) : Nat :=
  if job.worldSize ≤ 1 then 0 else (job.counts.take slot).countP (0 < ·)

/-- What a rank has added to `counters[0]` in its call, or more where it was killed. -/
def Pc.sent : Pc R → Nat
  | .enter => 0
  | .copy _ => 0
  | _ => 1

/-- What a rank has added to `counters[1]` in its call, or more where it was killed. -/
def Pc.read : Pc R → Nat
  | .await1 => 1
  | .killed => 1
  | _ => 0

/-- What a rank has added to `counters[0]`. -/
def Rank.sent (self : Rank R) : Nat := job.rounds self.slot + self.pc.sent

/-- What a rank has added to `counters[1]`. -/
def Rank.read (self : Rank R) : Nat := job.rounds self.slot + self.pc.read

end

section

variable {R : Type} {job : Job R} {slot count : Nat}

lemma rounds_le (job : Job R) (slot : Nat) : job.rounds slot ≤ slot := by
  rw [Job.rounds]
  split
  · exact Nat.zero_le slot
  · exact List.countP_le_length.trans (List.length_take_le slot job.counts)

lemma rounds_mono (job : Job R) {slot slot' : Nat} (le : slot ≤ slot') :
    job.rounds slot ≤ job.rounds slot' := by
  rw [Job.rounds, Job.rounds]
  split
  · exact Nat.le_refl 0
  · exact (List.take_sublist_take_left le).countP_le

lemma Job.Live.succ (live : job.Live slot count) : job.rounds (slot + 1) = job.rounds slot + 1 := by
  have several := Nat.not_le.mpr live.several
  rw [Job.rounds, Job.rounds, if_neg several, if_neg several, List.take_add_one, live.is,
    List.countP_append]
  congr 1
  exact List.countP_cons_of_pos (decide_eq_true live.filled)

lemma rounds_skipped (is : job.counts[slot]? = some count)
    (skipped : count = 0 ∨ job.worldSize ≤ 1) : job.rounds (slot + 1) = job.rounds slot := by
  rw [Job.rounds, Job.rounds]
  split
  · rfl
  rename_i several
  obtain rfl := skipped.resolve_right several
  rw [List.take_add_one, is, List.countP_append]
  rfl

lemma Job.Live.rounds_eq (live : job.Live slot count) (orderly : job.Orderly) :
    job.rounds slot = slot := by
  obtain ⟨inside, is⟩ := List.getElem?_eq_some_iff.mp live.is
  have pairwise := orderly.filled.resolve_left (Nat.not_le.mpr live.several)
  rw [Job.rounds, if_neg (Nat.not_le.mpr live.several)]
  have all : ∀ c ∈ job.counts.take slot, decide (0 < c) = true := by
    intro c member
    obtain ⟨i, before, rfl⟩ := List.mem_take_iff_getElem.mp member
    have early : i < slot := by omega
    exact decide_eq_true (List.pairwise_iff_getElem.mp pairwise i slot _ inside early
      (is ▸ live.filled))
  rw [List.countP_eq_length.mpr all, List.length_take]
  omega

lemma Job.Live.target (live : job.Live slot count) (orderly : job.Orderly) :
    (slot + 1) * job.worldSize < 2 ^ 64 := by
  obtain ⟨inside, -⟩ := List.getElem?_eq_some_iff.mp live.is
  exact Nat.lt_of_le_of_lt (Nat.mul_le_mul_right _ inside) orderly.few

end

section

variable {R : Type} [AddCommMonoid R] {job : Job R}

/-- A rank that waits, or is no more. -/
inductive Waits (w : World job.worldSize R) (r : Fin job.worldSize) (count : Nat) : Prop
  | size (pc : (w.rank r).pc = .enter) (other : r.val ≠ 0)
    (short : w.segment.size < job.bytes count)
  | counter0 (pc : (w.rank r).pc = .await0)
    (short : w.segment.counter0 < job.target (w.rank r).slot)
  | counter1 (pc : (w.rank r).pc = .await1)
    (short : w.segment.counter1 < job.target (w.rank r).slot)
  | killed (pc : (w.rank r).pc = .killed)

/-- What a step of a rank can be. -/
inductive Steps (w : World job.worldSize R) (r : Fin job.worldSize) : World job.worldSize R → Prop
  | ended (all : job.counts.length ≤ (w.rank r).slot) : Steps w r w
  | skip {count : Nat} (is : job.counts[(w.rank r).slot]? = some count)
    (skipped : count = 0 ∨ job.worldSize ≤ 1) :
    Steps w r (w.put r w.segment ((w.rank r).return job r))
  | wait {count : Nat} (live : job.Live (w.rank r).slot count) (waits : Waits w r count) : Steps w r w
  | truncate {count : Nat} (live : job.Live (w.rank r).slot count) (pc : (w.rank r).pc = .enter) :
    Steps w r (w.put r (w.segment.truncate (job.bytes count)) { w.rank r with pc := .copy 0 })
  | opened {count : Nat} (live : job.Live (w.rank r).slot count) (pc : (w.rank r).pc = .enter)
    (room : job.bytes count ≤ w.segment.size) :
    Steps w r (w.put r w.segment { w.rank r with pc := .copy 0 })
  | store {count i : Nat} (live : job.Live (w.rank r).slot count) (pc : (w.rank r).pc = .copy i)
    (inside : i < count) :
    Steps w r (w.put r { w.segment with
      base := Function.update w.segment.base (r * count + i) ((w.rank r).data i) }
      { w.rank r with pc := .copy (i + 1) })
  | send {count i : Nat} (live : job.Live (w.rank r).slot count) (pc : (w.rank r).pc = .copy i)
    (outside : ¬ i < count) :
    Steps w r (w.put r { w.segment with counter0 := fetchAndAdd w.segment.counter0 }
      { w.rank r with pc := .await0 })
  | sum {count : Nat} (live : job.Live (w.rank r).slot count) (pc : (w.rank r).pc = .await0)
    (counted : ¬ w.segment.counter0 < job.target (w.rank r).slot) :
    Steps w r (w.put r w.segment { w.rank r with pc := .sum 0 0 0 })
  | load {count i n : Nat} {acc : R} (live : job.Live (w.rank r).slot count)
    (pc : (w.rank r).pc = .sum i n acc) (inside : i < count) (next : n < job.worldSize) :
    Steps w r (w.put r w.segment
      { w.rank r with pc := .sum i (n + 1) (acc + w.segment.base (n * count + i)) })
  | element {count i n : Nat} {acc : R} (live : job.Live (w.rank r).slot count)
    (pc : (w.rank r).pc = .sum i n acc) (inside : i < count) (last : ¬ n < job.worldSize) :
    Steps w r (w.put r w.segment { w.rank r with
      data := Function.update (w.rank r).data i acc, pc := .sum (i + 1) 0 0 })
  | receive {count i n : Nat} {acc : R} (live : job.Live (w.rank r).slot count)
    (pc : (w.rank r).pc = .sum i n acc) (outside : ¬ i < count) :
    Steps w r (w.put r { w.segment with counter1 := fetchAndAdd w.segment.counter1 }
      { w.rank r with pc := .await1 })
  | leave {count : Nat} (live : job.Live (w.rank r).slot count) (pc : (w.rank r).pc = .await1)
    (counted : ¬ w.segment.counter1 < job.target (w.rank r).slot) :
    Steps w r (w.put r w.segment ((w.rank r).return job r))
  | fault {count i n : Nat} (live : job.Live (w.rank r).slot count)
    (pc : (w.rank r).pc = .copy i ∧ n = r ∨ ∃ acc, (w.rank r).pc = .sum i n acc)
    (inside : i < count) (row : n < job.worldSize) (outside : ¬ w.segment.holds (n * count + i)) :
    Steps w r (w.put r w.segment { w.rank r with pc := .killed })

lemma steps (r : Fin job.worldSize) (w : World job.worldSize R) : Steps w r (step job r w) := by
  have same : w.put r w.segment (w.rank r) = w := by
    rw [World.put, Function.update_eq_self]
  show Steps w r (w.put r (rankStep job r w.segment (w.rank r)).1
    (rankStep job r w.segment (w.rank r)).2)
  rw [rankStep]
  cases is : job.counts[(w.rank r).slot]? with
  | none => exact same.symm ▸ .ended (List.getElem?_eq_none_iff.mp is)
  | some count =>
    dsimp only
    split
    · exact .skip is ‹_›
    rename_i reduces
    have live : job.Live (w.rank r).slot count := ⟨is, by omega, by omega⟩
    rw [callStep]
    cases pc : (w.rank r).pc with
    | enter =>
      dsimp only
      split_ifs with first room
      · exact .truncate live pc
      · exact .opened live pc room
      · exact same.symm ▸ .wait live (.size pc first (Nat.lt_of_not_le room))
    | copy i =>
      dsimp only
      split_ifs with inside holds
      · exact .store live pc inside
      · exact .fault live (.inl ⟨pc, rfl⟩) inside r.isLt holds
      · exact .send live pc inside
    | await0 =>
      dsimp only
      split_ifs with short
      · exact same.symm ▸ .wait live (.counter0 pc short)
      · exact .sum live pc short
    | sum i n acc =>
      dsimp only
      split_ifs with inside next holds
      · exact .load live pc inside next
      · exact .fault live (.inr ⟨acc, pc⟩) inside next holds
      · exact .element live pc inside next
      · exact .receive live pc inside
    | await1 =>
      dsimp only
      split_ifs with short
      · exact same.symm ▸ .wait live (.counter1 pc short)
      · exact .leave live pc short
    | killed => exact same.symm ▸ .wait live (.killed pc)

end

section

variable {R : Type} [AddCommMonoid R] (job : Job R)

/-- The contribution of a rank to a call is in the segment, up to an element. -/
def Written (segment : Segment R) (r slot count bound : Nat) : Prop :=
  ∀ i < bound, segment.base (r * count + i) = job.input r slot i

/-- What holds of a rank in a call that takes part. -/
def PcOk (segment : Segment R) (sent : Fin job.worldSize → Nat) (r : Fin job.worldSize)
    (count : Nat) (self : Rank R) : Prop :=
  match self.pc with
  | .enter => True
  | .copy i => i ≤ count ∧ self.data = job.input r self.slot ∧ job.bytes count ≤ segment.size ∧
      Written job segment r self.slot count i
  | .await0 => job.bytes count ≤ segment.size
  | .sum i n acc => job.bytes count ≤ segment.size ∧ i ≤ count ∧ n ≤ job.worldSize ∧
      (∀ r', job.rounds self.slot + 1 ≤ sent r') ∧
      acc = ∑ m ∈ Finset.range n, job.input m self.slot i ∧
      ∀ j < i, self.data j = job.total self.slot j
  | .await1 => ∀ i < count, self.data i = job.total self.slot i
  | .killed => False

/-- The counters count, and no rank is more than a phase ahead. -/
structure Counted (w : World job.worldSize R) : Prop where
  counter0 : w.segment.counter0 = ∑ r, (w.rank r).sent job
  counter1 : w.segment.counter1 = ∑ r, (w.rank r).read job
  sent : ∀ r r', (w.rank r).sent job ≤ (w.rank r').read job + 1
  read : ∀ r r', (w.rank r).read job ≤ (w.rank r').sent job
  slot : ∀ r r', job.rounds (w.rank r).slot ≤ (w.rank r').read job

/-- The invariant. -/
structure Inv (w : World job.worldSize R) : Prop where
  counted : Counted job w
  contribution : ∀ r r' count, job.Live (w.rank r').slot count → (w.rank r').pc.reading →
    (w.rank r).sent job = job.rounds (w.rank r').slot + 1 →
    Written job w.segment r (w.rank r').slot count count
  live : ∀ r count, job.Live (w.rank r).slot count →
    PcOk job w.segment (fun r' => (w.rank r').sent job) r count (w.rank r)
  idle : ∀ r, (∀ count, ¬ job.Live (w.rank r).slot count) → (w.rank r).pc = .enter
  fresh : ∀ r, (w.rank r).pc = .enter → (w.rank r).data = job.input r (w.rank r).slot
  correct : Correct job w

end

section

variable {R : Type} {job : Job R} {w : World job.worldSize R} {r : Fin job.worldSize} {count : Nat}

lemma inside_bytes (job : Job R) (r : Fin job.worldSize) {count i : Nat} (inside : i < count) :
    2 * 8 + (r * count + i + 1) * 4 ≤ job.bytes count := by
  have row : r.val * count + count ≤ job.worldSize * count := by
    rw [← Nat.succ_mul]
    exact Nat.mul_le_mul_right count r.isLt
  rw [Job.bytes]
  omega

lemma row_eq {count a b i j : Nat} (inside : i < count) (inside' : j < count)
    (eq : a * count + i = b * count + j) : a = b := by
  rcases Nat.lt_trichotomy a b with less | same | more
  · have rows := Nat.mul_le_mul_right count less
    rw [Nat.succ_mul] at rows
    omega
  · exact same
  · have rows := Nat.mul_le_mul_right count more
    rw [Nat.succ_mul] at rows
    omega

lemma Counted.same (counted : Counted job w) {segment : Segment R} {self : Rank R}
    (counter0 : segment.counter0 = w.segment.counter0)
    (counter1 : segment.counter1 = w.segment.counter1)
    (sent : self.sent job = (w.rank r).sent job) (read : self.read job = (w.rank r).read job)
    (slot : ∀ r', job.rounds self.slot ≤ (w.rank r').read job) :
    Counted job (w.put r segment self) := by
  have sents (r') : ((w.put r segment self).rank r').sent job = (w.rank r').sent job := by
    by_cases same : r' = r
    · rw [same, put_self, sent]
    · rw [put_other w same]
  have reads (r') : ((w.put r segment self).rank r').read job = (w.rank r').read job := by
    by_cases same : r' = r
    · rw [same, put_self, read]
    · rw [put_other w same]
  refine ⟨?_, ?_, ?_, ?_, ?_⟩
  · exact counter0.trans (counted.counter0.trans (Finset.sum_congr rfl fun r' _ => (sents r').symm))
  · exact counter1.trans (counted.counter1.trans (Finset.sum_congr rfl fun r' _ => (reads r').symm))
  · intro r' r''
    rw [sents, reads]
    exact counted.sent r' r''
  · intro r' r''
    rw [sents, reads]
    exact counted.read r' r''
  · intro r' r''
    rw [reads]
    by_cases same : r' = r
    · rw [same, put_self]
      exact slot r''
    · rw [put_other w same]
      exact counted.slot r' r''

lemma Counted.send (counted : Counted job w) (orderly : job.Orderly)
    (live : job.Live (w.rank r).slot count) {self : Rank R} (slot : self.slot = (w.rank r).slot)
    (before : (w.rank r).pc.sent = 0) (unread : (w.rank r).pc.read = 0) (after : self.pc.sent = 1)
    (unread' : self.pc.read = 0) {segment : Segment R}
    (counter0 : segment.counter0 = fetchAndAdd w.segment.counter0)
    (counter1 : segment.counter1 = w.segment.counter1) : Counted job (w.put r segment self) := by
  have round := live.rounds_eq orderly
  have sent : (w.rank r).sent job = (w.rank r).slot := by rw [Rank.sent, round, before]; rfl
  have read : (w.rank r).read job = (w.rank r).slot := by rw [Rank.read, round, unread]; rfl
  have sent' : self.sent job = (w.rank r).slot + 1 := by rw [Rank.sent, slot, round, after]
  have read' : self.read job = (w.rank r).slot := by rw [Rank.read, slot, round, unread']; rfl
  have sents (r') (other : r' ≠ r) :
      ((w.put r segment self).rank r').sent job = (w.rank r').sent job := by
    rw [put_other w other]
  have reads (r') : ((w.put r segment self).rank r').read job = (w.rank r').read job := by
    by_cases same : r' = r
    · rw [same, put_self, read, read']
    · rw [put_other w same]
  have here : ((w.put r segment self).rank r).sent job = (w.rank r).sent job + 1 := by
    rw [put_self, sent, sent']
  have most (r') : ((w.put r segment self).rank r').sent job ≤ (w.rank r).slot + 1 := by
    by_cases same : r' = r
    · rw [same, put_self, sent']
    · rw [sents r' same, ← read]
      exact counted.sent r' r
  have total := sum_change here sents
  have bound := Nat.lt_of_le_of_lt (sum_le_bound most) (live.target orderly)
  refine ⟨?_, ?_, ?_, ?_, ?_⟩
  · rw [total, ← counted.counter0] at bound ⊢
    exact counter0.trans (Nat.mod_eq_of_lt bound)
  · exact counter1.trans (counted.counter1.trans (Finset.sum_congr rfl fun r' _ => (reads r').symm))
  · intro r' r''
    rw [reads]
    by_cases same : r' = r
    · have least := counted.slot r r''
      rw [same, put_self, sent']
      omega
    · rw [sents r' same]
      exact counted.sent r' r''
  · intro r' r''
    rw [reads]
    by_cases same : r'' = r
    · have least := counted.read r' r
      rw [same, put_self, sent']
      omega
    · rw [sents r'' same]
      exact counted.read r' r''
  · intro r' r''
    rw [reads]
    by_cases same : r' = r
    · rw [same, put_self, slot]
      exact counted.slot r r''
    · rw [put_other w same]
      exact counted.slot r' r''

lemma Counted.receive (counted : Counted job w) (orderly : job.Orderly)
    (live : job.Live (w.rank r).slot count) {self : Rank R} (slot : self.slot = (w.rank r).slot)
    (before : (w.rank r).pc.sent = 1) (unread : (w.rank r).pc.read = 0) (after : self.pc.sent = 1)
    (read : self.pc.read = 1) (all : ∀ r', (w.rank r).slot + 1 ≤ (w.rank r').sent job)
    {segment : Segment R} (counter0 : segment.counter0 = w.segment.counter0)
    (counter1 : segment.counter1 = fetchAndAdd w.segment.counter1) :
    Counted job (w.put r segment self) := by
  have round := live.rounds_eq orderly
  have sent : (w.rank r).sent job = (w.rank r).slot + 1 := by rw [Rank.sent, round, before]
  have unread : (w.rank r).read job = (w.rank r).slot := by rw [Rank.read, round, unread]; rfl
  have sent' : self.sent job = (w.rank r).slot + 1 := by rw [Rank.sent, slot, round, after]
  have read' : self.read job = (w.rank r).slot + 1 := by rw [Rank.read, slot, round, read]
  have sents (r') : ((w.put r segment self).rank r').sent job = (w.rank r').sent job := by
    by_cases same : r' = r
    · rw [same, put_self, sent, sent']
    · rw [put_other w same]
  have reads (r') (other : r' ≠ r) :
      ((w.put r segment self).rank r').read job = (w.rank r').read job := by
    rw [put_other w other]
  have here : ((w.put r segment self).rank r).read job = (w.rank r).read job + 1 := by
    rw [put_self, unread, read']
  have most (r') : ((w.put r segment self).rank r').read job ≤ (w.rank r).slot + 1 := by
    by_cases same : r' = r
    · rw [same, put_self, read']
    · rw [reads r' same, ← sent]
      exact counted.read r' r
  have total := sum_change here reads
  have bound := Nat.lt_of_le_of_lt (sum_le_bound most) (live.target orderly)
  refine ⟨?_, ?_, ?_, ?_, ?_⟩
  · exact counter0.trans (counted.counter0.trans (Finset.sum_congr rfl fun r' _ => (sents r').symm))
  · rw [total, ← counted.counter1] at bound ⊢
    exact counter1.trans (Nat.mod_eq_of_lt bound)
  · intro r' r''
    rw [sents]
    by_cases same : r'' = r
    · have most := counted.sent r' r
      rw [same, put_self, read']
      omega
    · rw [reads r'' same]
      exact counted.sent r' r''
  · intro r' r''
    rw [sents]
    by_cases same : r' = r
    · rw [same, put_self, read']
      exact all r''
    · rw [reads r' same]
      exact counted.read r' r''
  · intro r' r''
    have slots : job.rounds ((w.put r segment self).rank r').slot = job.rounds (w.rank r').slot := by
      by_cases same : r' = r
      · rw [same, put_self, slot]
      · rw [put_other w same]
    rw [slots]
    by_cases same : r'' = r
    · have least := counted.slot r' r
      rw [same, put_self, read']
      omega
    · rw [reads r'' same]
      exact counted.slot r' r''

end

section

variable {R : Type} [AddCommMonoid R] {job : Job R} {w : World job.worldSize R}
variable {r r' : Fin job.worldSize} {count count' : Nat}

lemma inv_start (job : Job R) : Inv job (start job) := by
  have rounds : job.rounds 0 = 0 := Nat.le_zero.mp (rounds_le job 0)
  have none (r) : ((start job).rank r).sent job = 0 := rounds
  have none' (r) : ((start job).rank r).read job = 0 := rounds
  refine ⟨⟨?_, ?_, ?_, ?_, ?_⟩, ?_, ?_, ?_, ?_, ?_⟩
  · exact (Finset.sum_eq_zero fun r _ => none r).symm
  · exact (Finset.sum_eq_zero fun r _ => none' r).symm
  · exact fun r r' => by rw [none r]; exact Nat.zero_le _
  · exact fun r r' => by rw [none' r]; exact Nat.zero_le _
  · exact fun r r' => rounds ▸ Nat.zero_le _
  · intro r r' count _ _ sent
    rw [none r] at sent
    cases sent
  · exact fun _ _ _ => trivial
  · exact fun _ _ => rfl
  · exact fun _ _ => rfl
  · refine fun r => ⟨rfl, fun call count _ data back => ?_⟩
    cases back

lemma same_call (inv : Inv job w) (orderly : job.Orderly) (live : job.Live (w.rank r).slot count)
    (live' : job.Live (w.rank r').slot count') (reading : (w.rank r).pc.reading)
    (reading' : (w.rank r').pc.reading) : (w.rank r).slot = (w.rank r').slot := by
  have read (self : Rank R) (h : self.pc.reading) : self.read job = job.rounds self.slot := by
    rw [Rank.read]
    cases pc : self.pc <;> first | rfl | (rw [pc] at h; cases h)
  have one := inv.counted.slot r r'
  have other := inv.counted.slot r' r
  rw [read _ reading, live.rounds_eq orderly, live'.rounds_eq orderly] at other
  rw [read _ reading', live.rounds_eq orderly, live'.rounds_eq orderly] at one
  exact Nat.le_antisymm one other

lemma PcOk.frame {segment segment' : Segment R} {sent sent' : Fin job.worldSize → Nat}
    {self : Rank R} (ok : PcOk job segment sent r count self)
    (size : self.pc.reading → job.bytes count ≤ segment.size → job.bytes count ≤ segment'.size)
    (base : ∀ i, self.pc = .copy i → i ≤ count → Written job segment r self.slot count i →
      Written job segment' r self.slot count i)
    (more : ∀ r', sent r' ≤ sent' r') : PcOk job segment' sent' r count self := by
  rw [PcOk] at ok ⊢
  cases pc : self.pc with
  | enter => trivial
  | copy i =>
    rw [pc] at ok
    obtain ⟨inside, data, room, written⟩ := ok
    exact ⟨inside, data, size (pc ▸ rfl) room, base i pc inside written⟩
  | await0 =>
    rw [pc] at ok
    exact size (pc ▸ rfl) ok
  | sum i n acc =>
    rw [pc] at ok
    obtain ⟨room, inside, inside', all, value, before⟩ := ok
    exact ⟨size (pc ▸ rfl) room, inside, inside', fun r' => (all r').trans (more r'), value, before⟩
  | await1 =>
    rw [pc] at ok
    exact ok
  | killed =>
    rw [pc] at ok
    exact ok

lemma Inv.call (inv : Inv job w) (live : job.Live (w.rank r).slot count) {segment : Segment R}
    {self : Rank R} (slot : self.slot = (w.rank r).slot)
    (returned : self.returned = (w.rank r).returned) (entered : self.pc ≠ .enter)
    (more : (w.rank r).sent job ≤ self.sent job)
    (counted : Counted job (w.put r segment self))
    (size : ∀ r' count', r' ≠ r → job.Live (w.rank r').slot count' → (w.rank r').pc.reading →
      job.bytes count' ≤ w.segment.size → job.bytes count' ≤ segment.size)
    (base : ∀ r' count' i, r' ≠ r → job.Live (w.rank r').slot count' → (w.rank r').pc = .copy i →
      i ≤ count' → Written job w.segment r' (w.rank r').slot count' i →
      Written job segment r' (w.rank r').slot count' i)
    (contribution : ∀ r' r'' count', job.Live (w.rank r'').slot count' →
      ((w.put r segment self).rank r'').pc.reading →
      ((w.put r segment self).rank r').sent job = job.rounds (w.rank r'').slot + 1 →
      Written job segment r' (w.rank r'').slot count' count')
    (ok : PcOk job segment (fun r' => ((w.put r segment self).rank r').sent job) r count self) :
    Inv job (w.put r segment self) := by
  have slots (r') : ((w.put r segment self).rank r').slot = (w.rank r').slot := by
    by_cases same : r' = r
    · rw [same, put_self, slot]
    · rw [put_other w same]
  have sents (r') : (w.rank r').sent job ≤ ((w.put r segment self).rank r').sent job := by
    by_cases same : r' = r
    · rw [same, put_self]
      exact more
    · rw [put_other w same]
  refine ⟨counted, ?_, ?_, ?_, ?_, ?_⟩
  · intro r' r'' count' live'
    rw [slots r''] at live' ⊢
    exact contribution r' r'' count' live'
  · intro r' count' live'
    by_cases same : r' = r
    · obtain rfl := same
      rw [slots r'] at live'
      obtain rfl : count' = count := Option.some.inj (live'.is.symm.trans live.is)
      rw [put_self]
      exact ok
    · rw [slots r'] at live'
      rw [put_other w same]
      exact (inv.live r' count' live').frame (size r' count' same live')
        (fun i => base r' count' i same live') sents
  · intro r' none
    rw [slots r'] at none
    by_cases same : r' = r
    · exact absurd live (same ▸ none count)
    · rw [put_other w same]
      exact inv.idle r' none
  · intro r' entered'
    by_cases same : r' = r
    · rw [same, put_self] at entered'
      exact absurd entered' entered
    · rw [put_other w same] at entered' ⊢
      exact inv.fresh r' entered'
  · intro r'
    have before := inv.correct r'
    by_cases same : r' = r
    · obtain rfl := same
      rw [put_self, returned, slot]
      exact before
    · rw [put_other w same]
      exact before

lemma sent_unread (inv : Inv job w) (orderly : job.Orderly)
    (unread : (w.rank r).read job < (w.rank r).sent job) :
    ∃ count, job.Live (w.rank r).slot count ∧ (w.rank r).pc.reading ∧
      (w.rank r).slot = (w.rank r).read job ∧
      (w.rank r).sent job = job.rounds (w.rank r).slot + 1 := by
  by_cases live : ∃ count, job.Live (w.rank r).slot count
  · obtain ⟨count, live⟩ := live
    have round := live.rounds_eq orderly
    rw [Rank.read, Rank.sent] at *
    refine ⟨count, live, ?_⟩
    cases pc : (w.rank r).pc <;> rw [pc] at unread <;>
      first
      | exact absurd unread (Nat.lt_irrefl _)
      | exact ⟨rfl, round.symm, rfl⟩
  · have idle := inv.idle r fun count live' => live ⟨count, live'⟩
    rw [Rank.read, Rank.sent, idle] at unread
    exact absurd unread (Nat.lt_irrefl _)

lemma Inv.within (inv : Inv job w) (orderly : job.Orderly) (live : job.Live (w.rank r).slot count)
    {segment : Segment R} {self : Rank R} (slot : self.slot = (w.rank r).slot)
    (returned : self.returned = (w.rank r).returned) (entered : self.pc ≠ .enter)
    (sent : self.pc.sent = (w.rank r).pc.sent) (read : self.pc.read = (w.rank r).pc.read)
    (reading : (w.rank r).pc.reading) (counter0 : segment.counter0 = w.segment.counter0)
    (counter1 : segment.counter1 = w.segment.counter1)
    (size : job.bytes count ≤ w.segment.size → job.bytes count ≤ segment.size)
    (base : ∀ (r' : Fin job.worldSize) i, r' ≠ r ∨ (w.rank r).pc.sent = 1 → i < count →
      segment.base (r' * count + i) = w.segment.base (r' * count + i))
    (ok : PcOk job segment (fun r' => (w.rank r').sent job) r count self) :
    Inv job (w.put r segment self) := by
  have round := live.rounds_eq orderly
  have sent' : self.sent job = (w.rank r).sent job := by rw [Rank.sent, Rank.sent, slot, sent]
  have read' : self.read job = (w.rank r).read job := by rw [Rank.read, Rank.read, slot, read]
  have sents (r') : ((w.put r segment self).rank r').sent job = (w.rank r').sent job := by
    by_cases same : r' = r
    · rw [same, put_self, sent']
    · rw [put_other w same]
  -- a rank that is still to read is in the call of this one
  have meet (r') (count') (live' : job.Live (w.rank r').slot count')
      (reading' : (w.rank r').pc.reading) : (w.rank r').slot = (w.rank r).slot ∧ count' = count := by
    have slots := same_call inv orderly live' live reading' reading
    exact ⟨slots, Option.some.inj (live'.is.symm.trans (slots ▸ live.is))⟩
  refine inv.call live slot returned entered (Nat.le_of_eq sent'.symm)
    (inv.counted.same counter0 counter1 sent' read' fun r' => slot ▸ inv.counted.slot r r')
    ?_ ?_ ?_ ?_
  · intro r' count' _ live' reading' room
    obtain ⟨-, rfl⟩ := meet r' count' live' reading'
    exact size room
  · intro r' count' i other live' pc inside written j before
    obtain ⟨-, rfl⟩ := meet r' count' live' (pc ▸ rfl)
    rw [base r' j (.inl other) (by omega)]
    exact written j before
  · intro r' r'' count' live' reading' sent'' j before
    have reading'' : (w.rank r'').pc.reading := by
      by_cases same : r'' = r
      · rw [same]
        exact reading
      · rwa [put_other w same] at reading'
    obtain ⟨slots, rfl⟩ := meet r'' count' live' reading''
    rw [sents r'] at sent''
    have old := inv.contribution r' r'' count' live' reading'' sent'' j before
    rw [slots, round] at sent''
    rw [base r' j ?_ before]
    · exact old
    · by_cases same : r' = r
      · refine .inr ?_
        rw [same, Rank.sent, round] at sent''
        omega
      · exact .inl same
  · have counts : (fun r' => ((w.put r segment self).rank r').sent job) =
        fun r' => (w.rank r').sent job := funext sents
    rw [counts]
    exact ok

variable (inv : Inv job w) (orderly : job.Orderly) (live : job.Live (w.rank r).slot count)

include inv orderly live

lemma inv_truncate (pc : (w.rank r).pc = .enter) :
    Inv job (w.put r (w.segment.truncate (job.bytes count)) { w.rank r with pc := .copy 0 }) := by
  refine inv.within orderly live rfl rfl nofun (pc ▸ rfl) (pc ▸ rfl) (pc ▸ rfl) rfl rfl
    (fun _ => Nat.le_refl _) ?_ ?_
  · intro r' i _ inside
    exact if_pos (inside_bytes job r' inside)
  · exact ⟨Nat.zero_le _, inv.fresh r pc, Nat.le_refl _, nofun⟩

lemma inv_open (pc : (w.rank r).pc = .enter) (room : job.bytes count ≤ w.segment.size) :
    Inv job (w.put r w.segment { w.rank r with pc := .copy 0 }) := by
  refine inv.within orderly live rfl rfl nofun (pc ▸ rfl) (pc ▸ rfl) (pc ▸ rfl) rfl rfl id
    (fun _ _ _ _ => rfl) ?_
  exact ⟨Nat.zero_le _, inv.fresh r pc, room, nofun⟩

lemma inv_store {i : Nat} (pc : (w.rank r).pc = .copy i) (inside : i < count) :
    Inv job (w.put r { w.segment with
      base := Function.update w.segment.base (r * count + i) ((w.rank r).data i) }
      { w.rank r with pc := .copy (i + 1) }) := by
  have ok := inv.live r count live
  rw [PcOk, pc] at ok
  obtain ⟨-, data, room, written⟩ := ok
  refine inv.within orderly live rfl rfl nofun (pc ▸ rfl) (pc ▸ rfl) (pc ▸ rfl) rfl rfl id ?_ ?_
  · intro r' j which inside'
    have other : r' ≠ r := which.resolve_right (by rw [pc]; exact nofun)
    refine Function.update_of_ne (fun eq => other ?_) ..
    exact Fin.ext (row_eq inside' inside eq)
  · refine ⟨inside, data, room, fun j before => ?_⟩
    by_cases last : j = i
    · rw [last, ← data]
      exact Function.update_self ..
    · refine (Function.update_of_ne (fun eq => last ?_) ..).trans (written j (by omega))
      exact Nat.add_left_cancel eq

lemma inv_send {i : Nat} (pc : (w.rank r).pc = .copy i) (outside : ¬ i < count) :
    Inv job (w.put r { w.segment with counter0 := fetchAndAdd w.segment.counter0 }
      { w.rank r with pc := .await0 }) := by
  have ok := inv.live r count live
  rw [PcOk, pc] at ok
  obtain ⟨inside, data, room, written⟩ := ok
  obtain rfl : i = count := by omega
  have more : (w.rank r).sent job ≤ ({ w.rank r with pc := .await0 } : Rank R).sent job := by
    rw [Rank.sent, pc]
    exact Nat.le_succ _
  have counted : Counted job (w.put r
      { w.segment with counter0 := fetchAndAdd w.segment.counter0 }
      { w.rank r with pc := .await0 }) := by
    refine inv.counted.send orderly live ?_ (pc ▸ rfl) (pc ▸ rfl) ?_ ?_ ?_ ?_ <;> rfl
  refine inv.call live rfl rfl nofun more counted
    (fun _ _ _ _ _ room => room) (fun _ _ _ _ _ _ _ written => written) ?_ room
  intro r' r'' count' live' reading sent
  have reading' : (w.rank r'').pc.reading := by
    by_cases same : r'' = r
    · rw [same, pc]
      rfl
    · rwa [put_other w same] at reading
  by_cases same : r' = r
  · have slots := same_call inv orderly live' live reading' (pc ▸ rfl)
    obtain rfl := Option.some.inj (live'.is.symm.trans (slots ▸ live.is))
    rw [same, slots]
    exact written
  · rw [put_other w same] at sent
    exact inv.contribution r' r'' count' live' reading' sent

lemma inv_sum (pc : (w.rank r).pc = .await0)
    (counted : ¬ w.segment.counter0 < job.target (w.rank r).slot) :
    Inv job (w.put r w.segment { w.rank r with pc := .sum 0 0 0 }) := by
  have ok := inv.live r count live
  rw [PcOk, pc] at ok
  have round := live.rounds_eq orderly
  have read : (w.rank r).read job = (w.rank r).slot := by
    rw [Rank.read, round, pc]
    rfl
  rw [Job.target, Nat.mod_eq_of_lt (live.target orderly), inv.counted.counter0, Nat.not_lt] at counted
  have all := all_bound (fun r' => read ▸ inv.counted.sent r' r) counted
  refine inv.within orderly live rfl rfl nofun (pc ▸ rfl) (pc ▸ rfl) (pc ▸ rfl) rfl rfl id
    (fun _ _ _ _ => rfl) ⟨ok, Nat.zero_le _, Nat.zero_le _, fun r' => ?_, rfl, nofun⟩
  show job.rounds (w.rank r).slot + 1 ≤ (w.rank r').sent job
  rw [all r', round]

lemma inv_load {i n : Nat} {acc : R} (pc : (w.rank r).pc = .sum i n acc) (inside : i < count)
    (next : n < job.worldSize) :
    Inv job (w.put r w.segment
      { w.rank r with pc := .sum i (n + 1) (acc + w.segment.base (n * count + i)) }) := by
  have ok := inv.live r count live
  rw [PcOk, pc] at ok
  obtain ⟨room, inside', -, all, value, before⟩ := ok
  have round := live.rounds_eq orderly
  have read : (w.rank r).read job = (w.rank r).slot := by
    rw [Rank.read, round, pc]
    rfl
  have sent : (w.rank ⟨n, next⟩).sent job = job.rounds (w.rank r).slot + 1 := by
    have most := inv.counted.sent ⟨n, next⟩ r
    have least := all ⟨n, next⟩
    omega
  have here : w.segment.base (n * count + i) = job.input n (w.rank r).slot i :=
    inv.contribution ⟨n, next⟩ r count live (pc ▸ rfl) sent i inside
  refine inv.within orderly live rfl rfl nofun (pc ▸ rfl) (pc ▸ rfl) (pc ▸ rfl) rfl rfl id
    (fun _ _ _ _ => rfl) ⟨room, inside', next, all, ?_, before⟩
  rw [Finset.sum_range_succ, value, here]

lemma inv_element {i n : Nat} {acc : R} (pc : (w.rank r).pc = .sum i n acc) (inside : i < count)
    (last : ¬ n < job.worldSize) :
    Inv job (w.put r w.segment { w.rank r with
      data := Function.update (w.rank r).data i acc, pc := .sum (i + 1) 0 0 }) := by
  have ok := inv.live r count live
  rw [PcOk, pc] at ok
  obtain ⟨room, -, inside', all, value, before⟩ := ok
  obtain rfl : n = job.worldSize := by omega
  refine inv.within orderly live rfl rfl nofun (pc ▸ rfl) (pc ▸ rfl) (pc ▸ rfl) rfl rfl id
    (fun _ _ _ _ => rfl) ⟨room, inside, Nat.zero_le _, all, rfl, fun j less => ?_⟩
  by_cases here : j = i
  · rw [here]
    exact (Function.update_self ..).trans value
  · exact (Function.update_of_ne here ..).trans (before j (by omega))

lemma inv_receive {i n : Nat} {acc : R} (pc : (w.rank r).pc = .sum i n acc) (outside : ¬ i < count) :
    Inv job (w.put r { w.segment with counter1 := fetchAndAdd w.segment.counter1 }
      { w.rank r with pc := .await1 }) := by
  have ok := inv.live r count live
  rw [PcOk, pc] at ok
  obtain ⟨-, inside, -, all, -, before⟩ := ok
  obtain rfl : i = count := by omega
  have round := live.rounds_eq orderly
  have more : (w.rank r).sent job ≤ ({ w.rank r with pc := .await1 } : Rank R).sent job := by
    rw [Rank.sent, pc]
    exact Nat.le_refl _
  have counted : Counted job (w.put r
      { w.segment with counter1 := fetchAndAdd w.segment.counter1 }
      { w.rank r with pc := .await1 }) := by
    refine inv.counted.receive orderly live ?_ (pc ▸ rfl) (pc ▸ rfl) ?_ ?_ (round ▸ all) ?_ ?_ <;>
      rfl
  refine inv.call live rfl rfl nofun more counted
    (fun _ _ _ _ _ room => room) (fun _ _ _ _ _ _ _ written => written) ?_ before
  intro r' r'' count' live' reading sent
  by_cases same : r'' = r
  · rw [same, put_self] at reading
    cases reading
  · rw [put_other w same] at reading
    refine inv.contribution r' r'' count' live' reading ?_
    by_cases same' : r' = r
    · rw [same', put_self] at sent
      rw [same', ← sent, Rank.sent, pc]
      rfl
    · rwa [put_other w same'] at sent

omit live in
lemma inv_return (inside : (w.rank r).slot < job.counts.length)
    (sent : (w.rank r).sent job = job.rounds ((w.rank r).slot + 1))
    (read : (w.rank r).read job = job.rounds ((w.rank r).slot + 1))
    (all : ∀ r', job.rounds ((w.rank r).slot + 1) ≤ (w.rank r').read job)
    (data : ∀ count, job.counts[(w.rank r).slot]? = some count →
      ∀ i < count, (w.rank r).data i = job.total (w.rank r).slot i) :
    Inv job (w.put r w.segment ((w.rank r).return job r)) := by
  have sents (r') : ((w.put r w.segment ((w.rank r).return job r)).rank r').sent job =
      (w.rank r').sent job := by
    by_cases same : r' = r
    · rw [same, put_self, sent]
      rfl
    · rw [put_other w same]
  refine ⟨inv.counted.same rfl rfl sent.symm read.symm all, ?_, ?_, ?_, ?_, ?_⟩
  · intro r' r'' count live reading sent'
    rw [sents r'] at sent'
    by_cases same : r'' = r
    · -- who has written for the next call has still to read in it
      rw [same, put_self] at live sent' ⊢
      have unread : (w.rank r').read job < (w.rank r').sent job := by
        have most := inv.counted.read r' r
        rw [sent'] at *
        exact Nat.lt_succ_of_le (most.trans (Nat.le_of_eq sent))
      obtain ⟨count', live', reading', slot, sent''⟩ := sent_unread inv orderly unread
      have slots : (w.rank r').slot = (w.rank r).slot + 1 := by
        have rounds := Nat.succ.inj (sent''.symm.trans sent')
        rwa [live'.rounds_eq orderly, live.rounds_eq orderly] at rounds
      have live'' : job.Live (w.rank r').slot count := slots ▸ live
      show Written job w.segment r' ((w.rank r).slot + 1) count count
      rw [← slots]
      exact inv.contribution r' r' count live'' reading' sent''
    · rw [put_other w same] at live reading sent' ⊢
      exact inv.contribution r' r'' count live reading sent'
  · intro r' count live
    by_cases same : r' = r
    · rw [same, put_self]
      trivial
    · rw [put_other w same] at live ⊢
      exact (inv.live r' count live).frame (fun _ room => room) (fun _ _ _ written => written)
        fun r'' => Nat.le_of_eq (sents r'').symm
  · intro r' none
    by_cases same : r' = r
    · rw [same, put_self]
      rfl
    · rw [put_other w same] at none ⊢
      exact inv.idle r' none
  · intro r' entered
    by_cases same : r' = r
    · rw [same, put_self]
      rfl
    · rw [put_other w same] at entered ⊢
      exact inv.fresh r' entered
  · intro r'
    obtain ⟨length, before⟩ := inv.correct r'
    by_cases same : r' = r
    · obtain rfl := same
      rw [put_self]
      refine ⟨?_, fun call count is back' here => ?_⟩
      · show ((w.rank r').returned ++ [(w.rank r').data]).length = (w.rank r').slot + 1
        rw [List.length_append, length]
        rfl
      · have split : ((w.rank r').returned ++ [(w.rank r').data])[call]? = some back' := here
        by_cases early : call < (w.rank r').returned.length
        · rw [List.getElem?_append_left early] at split
          exact before call count is back' split
        · rw [List.getElem?_append_right (by omega)] at split
          have last : call = (w.rank r').slot := by
            have bound := (List.getElem?_eq_some_iff.mp split).1
            rw [List.length_singleton] at bound
            omega
          rw [last, length, Nat.sub_self] at split
          obtain rfl : (w.rank r').data = back' := Option.some.inj split
          rw [last] at is ⊢
          exact data count is
    · rw [put_other w same]
      exact ⟨length, before⟩

end

section

variable {R : Type} [AddCommMonoid R] {job : Job R} {w : World job.worldSize R}
variable {r : Fin job.worldSize} {count : Nat}

lemma total_one (job : Job R) (one : job.worldSize = 1) (call i : Nat) :
    job.total call i = job.input 0 call i := by rw [Job.total, one, Finset.sum_range_one]

lemma inv_skip (inv : Inv job w) (orderly : job.Orderly)
    (is : job.counts[(w.rank r).slot]? = some count) (skipped : count = 0 ∨ job.worldSize ≤ 1) :
    Inv job (w.put r w.segment ((w.rank r).return job r)) := by
  have dead : ∀ count', ¬ job.Live (w.rank r).slot count' := by
    intro count' live
    obtain rfl := Option.some.inj (is.symm.trans live.is)
    rcases skipped with none | one
    · exact absurd live.filled (none ▸ Nat.lt_irrefl 0)
    · exact absurd live.several (Nat.not_lt.mpr one)
  have idle := inv.idle r dead
  have rounds := rounds_skipped is skipped
  obtain ⟨inside, -⟩ := List.getElem?_eq_some_iff.mp is
  refine inv_return inv orderly inside ?_ ?_ ?_ ?_
  · rw [Rank.sent, idle, rounds]
    rfl
  · rw [Rank.read, idle, rounds]
    rfl
  · exact fun r' => rounds ▸ inv.counted.slot r r'
  · intro count' is' i inside'
    obtain rfl := Option.some.inj (is.symm.trans is')
    rcases skipped with none | one
    · omega
    · -- the only rank has the sum
      have first : job.worldSize = 1 := by have := r.isLt; omega
      have zero : r.val = 0 := by have := r.isLt; omega
      rw [inv.fresh r idle, total_one job first, zero]

lemma inv_leave (inv : Inv job w) (orderly : job.Orderly)
    (live : job.Live (w.rank r).slot count) (pc : (w.rank r).pc = .await1)
    (counted : ¬ w.segment.counter1 < job.target (w.rank r).slot) :
    Inv job (w.put r w.segment ((w.rank r).return job r)) := by
  have ok := inv.live r count live
  rw [PcOk, pc] at ok
  have round := live.rounds_eq orderly
  obtain ⟨inside, -⟩ := List.getElem?_eq_some_iff.mp live.is
  have sent : (w.rank r).sent job = (w.rank r).slot + 1 := by
    rw [Rank.sent, round, pc]
    rfl
  rw [Job.target, Nat.mod_eq_of_lt (live.target orderly), inv.counted.counter1, Nat.not_lt] at counted
  have all := all_bound (fun r' => sent ▸ inv.counted.read r' r) counted
  refine inv_return inv orderly inside ?_ ?_ ?_ ?_
  · rw [sent, live.succ, round]
  · rw [all r, live.succ, round]
  · intro r'
    rw [all r', live.succ, round]
  · intro count' is
    obtain rfl := Option.some.inj (live.is.symm.trans is)
    exact ok

lemma not_killed (inv : Inv job w) (r : Fin job.worldSize) : (w.rank r).pc ≠ .killed := by
  intro pc
  by_cases live : ∃ count, job.Live (w.rank r).slot count
  · obtain ⟨count, live⟩ := live
    have ok := inv.live r count live
    rw [PcOk, pc] at ok
    exact ok
  · rw [inv.idle r fun count live' => live ⟨count, live'⟩] at pc
    cases pc

lemma PcOk.holds (inv : Inv job w) (live : job.Live (w.rank r).slot count) {i n : Nat}
    (pc : (w.rank r).pc = .copy i ∧ n = r ∨ ∃ acc, (w.rank r).pc = .sum i n acc)
    (inside : i < count) (row : n < job.worldSize) : w.segment.holds (n * count + i) := by
  have ok := inv.live r count live
  rw [PcOk] at ok
  refine (inside_bytes job ⟨n, row⟩ inside).trans ?_
  rcases pc with ⟨pc, -⟩ | ⟨acc, pc⟩
  · rw [pc] at ok
    exact ok.2.2.1
  · rw [pc] at ok
    exact ok.1

/-- Every step keeps the invariant. -/
theorem inv_step (orderly : job.Orderly) (r : Fin job.worldSize) (w : World job.worldSize R)
    (inv : Inv job w) : Inv job (step job r w) := by
  have next := steps r w
  generalize step job r w = w' at next
  cases next with
  | ended | wait => exact inv
  | skip is skipped => exact inv_skip inv orderly is skipped
  | truncate live pc => exact inv_truncate inv orderly live pc
  | opened live pc room => exact inv_open inv orderly live pc room
  | store live pc inside => exact inv_store inv orderly live pc inside
  | send live pc outside => exact inv_send inv orderly live pc outside
  | sum live pc counted => exact inv_sum inv orderly live pc counted
  | load live pc inside next => exact inv_load inv orderly live pc inside next
  | element live pc inside last => exact inv_element inv orderly live pc inside last
  | receive live pc outside => exact inv_receive inv orderly live pc outside
  | leave live pc counted => exact inv_leave inv orderly live pc counted
  | fault live pc inside row outside => exact absurd (PcOk.holds inv live pc inside row) outside

end

end PocketMoE.Backend
