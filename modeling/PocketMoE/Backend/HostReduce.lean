import PocketMoE.Lib.Schedule
import Mathlib.Algebra.BigOperators.Group.Finset.Basic
import Mathlib.Logic.Function.Basic

/-!
# The reduction in shared memory

`host_float_allreduce`: the ranks of a host add up tensors in a shared segment. A call writes the
contribution of its rank, counts itself in one counter and waits until all ranks have, adds up, counts
itself in another one and waits again. The counters are not reset, so a call waits for a multiple of the
number of its slot. A step is one load or store of one rank.
-/

namespace PocketMoE.Backend

open Lib

/-- What the ranks reduce: the number of elements of each call, the same on all ranks, and their
tensors. -/
structure Job (R : Type) where
  worldSize : Nat
  counts : List Nat
  /-- The element of a rank's tensor in a call. -/
  input : (rank call element : Nat) → R

/-- The segment, with room for its two counters and some floats. What is not written is zero. -/
structure Segment (R : Type) where
  size : Nat
  counter0 : Nat
  counter1 : Nat
  base : Nat → R

/-- Where a rank is in `host_float_allreduce`. -/
inductive Pc (R : Type)
  /-- At `shm_open`: the first rank sizes the segment, the others wait for its size. -/
  | enter
  /-- `memcpy` of the own tensor, at an element. -/
  | copy (i : Nat)
  /-- Waiting for `counters[0]`. -/
  | await0
  /-- Adding up an element, at a rank. -/
  | sum (i r : Nat) (acc : R)
  /-- Waiting for `counters[1]`. -/
  | await1
  /-- Killed at an access behind the end of the segment. -/
  | killed

/-- A rank, with the tensor of its call and what its calls returned. The slot of the backend is the
number of the call. -/
structure Rank (R : Type) where
  slot : Nat
  pc : Pc R
  data : Nat → R
  returned : List (Nat → R)

/-- All ranks and the segment. -/
structure World (n : Nat) (R : Type) where
  segment : Segment R
  rank : Fin n → Rank R

section

variable {R : Type} [AddCommMonoid R] (job : Job R)

/-- The bytes of the header and of a float for each rank and element. -/
def Job.bytes (count : Nat) : Nat := 2 * 8 + job.worldSize * count * 4

/-- Whether the float is in the segment. -/
def Segment.holds (segment : Segment R) (i : Nat) : Prop := 2 * 8 + (i + 1) * 4 ≤ segment.size

instance (segment : Segment R) (i : Nat) : Decidable (segment.holds i) :=
  inferInstanceAs (Decidable (_ ≤ _))

/-- `ftruncate`: what is cut off is zero when the segment grows again. -/
def Segment.truncate (segment : Segment R) (bytes : Nat) : Segment R :=
  { segment with
    size := bytes
    base i := if 2 * 8 + (i + 1) * 4 ≤ bytes then segment.base i else 0 }

/-- `__sync_fetch_and_add`. -/
def fetchAndAdd (counter : Nat) : Nat := (counter + 1) % 2 ^ 64

/-- `gen * world_size`. -/
def Job.target (slot : Nat) : Nat := (slot + 1) * job.worldSize % 2 ^ 64

/-- The call returns, the slot is counted, and the next tensor is there. -/
def Rank.return (rank : Nat) (self : Rank R) : Rank R where
  slot := self.slot + 1
  pc := .enter
  data := job.input rank (self.slot + 1)
  returned := self.returned ++ [self.data]

/-- A step of a rank in a call of `host_float_allreduce`. -/
def callStep (rank count : Nat) (segment : Segment R) (self : Rank R) : Segment R × Rank R :=
  match self.pc with
  | .enter =>
    if rank = 0 then (segment.truncate (job.bytes count), { self with pc := .copy 0 })
    else if job.bytes count ≤ segment.size then (segment, { self with pc := .copy 0 })
    else (segment, self)
  | .copy i =>
    if i < count then
      if segment.holds (rank * count + i) then
        ({ segment with base := Function.update segment.base (rank * count + i) (self.data i) },
          { self with pc := .copy (i + 1) })
      else (segment, { self with pc := .killed })
    else ({ segment with counter0 := fetchAndAdd segment.counter0 }, { self with pc := .await0 })
  | .await0 =>
    if segment.counter0 < job.target self.slot then (segment, self)
    else (segment, { self with pc := .sum 0 0 0 })
  | .sum i r acc =>
    if i < count then
      if r < job.worldSize then
        if segment.holds (r * count + i) then
          (segment, { self with pc := .sum i (r + 1) (acc + segment.base (r * count + i)) })
        else (segment, { self with pc := .killed })
      else
        (segment, { self with data := Function.update self.data i acc, pc := .sum (i + 1) 0 0 })
    else ({ segment with counter1 := fetchAndAdd segment.counter1 }, { self with pc := .await1 })
  | .await1 =>
    if segment.counter1 < job.target self.slot then (segment, self)
    else (segment, self.return job rank)
  | .killed => (segment, self)

/-- A step of a rank, which returns at once where there is nothing to reduce. -/
def rankStep (rank : Nat) (segment : Segment R) (self : Rank R) : Segment R × Rank R :=
  match job.counts[self.slot]? with
  | none => (segment, self)
  | some count =>
    if count = 0 ∨ job.worldSize ≤ 1 then (segment, self.return job rank)
    else callStep job rank count segment self

/-- A step of the ranks. -/
def step (r : Fin job.worldSize) (w : World job.worldSize R) : World job.worldSize R where
  segment := (rankStep job r w.segment (w.rank r)).1
  rank := Function.update w.rank r (rankStep job r w.segment (w.rank r)).2

/-- A fresh segment, and no call made. -/
def start : World job.worldSize R where
  segment := ⟨0, 0, 0, fun _ => 0⟩
  rank r := ⟨0, .enter, job.input r 0, []⟩

/-- All ranks have returned from all calls. -/
def Done (w : World job.worldSize R) : Prop := ∀ r, job.counts.length ≤ (w.rank r).slot

/-- The sum of the contributions to a call. -/
def Job.total (call i : Nat) : R := ∑ r ∈ Finset.range job.worldSize, job.input r call i

/-- Every call that has returned gave the sums. -/
def Correct (w : World job.worldSize R) : Prop :=
  ∀ r, (w.rank r).returned.length = (w.rank r).slot ∧
    ∀ call count, job.counts[call]? = some count →
      ∀ data, (w.rank r).returned[call]? = some data → ∀ i < count, data i = job.total call i

/-- The rank has still to read the contributions to its call. -/
def Pc.reading : Pc R → Bool
  | .enter => true
  | .copy _ => true
  | .await0 => true
  | .sum .. => true
  | .await1 => false
  | .killed => false

/-- A rank that writes its contribution to a call overwrites nothing of another call that some rank has
still to read. -/
def Unread (w : World job.worldSize R) : Prop :=
  ∀ r r' i, (w.rank r).pc = .copy i → (w.rank r').pc.reading → (w.rank r).slot ≤ (w.rank r').slot

/-- No call with elements comes after one without. -/
def Job.Filled : Prop :=
  job.worldSize ≤ 1 ∨ job.counts.Pairwise fun count next => 0 < next → 0 < count

/-- And the counters do not overflow. -/
structure Job.Orderly : Prop where
  few : job.counts.length * job.worldSize < 2 ^ 64
  filled : job.Filled

/-- The reduction is a collective: at all times of every schedule the calls that have returned gave the
sums, no rank has been killed, and nothing is overwritten that some rank has still to read; and with a
fair schedule all calls return. -/
def Collective : Prop :=
  ∀ schedule : Nat → Fin job.worldSize,
    (∀ n, Correct job (stateAt (step job) schedule (start job) n) ∧
      Unread job (stateAt (step job) schedule (start job) n) ∧
      ∀ r, ((stateAt (step job) schedule (start job) n).rank r).pc ≠ .killed) ∧
    (Fair schedule → ∃ n, Done job (stateAt (step job) schedule (start job) n))

end

end PocketMoE.Backend
