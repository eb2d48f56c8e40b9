import Mathlib.Algebra.GroupWithZero.Nat
import Mathlib.Algebra.Order.BigOperators.Group.Finset
import Mathlib.Data.List.Flatten
import Mathlib.Logic.Relation
import Mathlib.Tactic.Lemma

/-!
# Ranks that are sent the same jobs

A root takes requests, one after another, and a request is a list of jobs. The root sends a job to the
other ranks, which read it when they are idle, and then runs it itself. What a rank does in a job is a
list of operations: it enters a collective, it waits until every rank has entered as many collectives as
it has, or it raises. A rank that raises is done with the job, and the root with the request.

Collectives meet in the order in which they are entered. In every run they meet as they should, and all
requests are served, exactly if for every job that is sent all ranks enter the same collectives before
they raise (`System.lockStep_iff_same`).
-/

namespace PocketMoE.Lib.Ranks

variable {ι J α : Type*}

/-! ## Operations of a rank -/

/-- What a rank does in a job. -/
inductive Op (α : Type*) where
  | enter (collective : α)
  | wait
  | raise

/-- The collectives that are entered before anything raises. -/
def entered : List (Op α) → List α
  | [] => []
  | .enter c :: ops => c :: entered ops
  | .wait :: ops => entered ops
  | .raise :: _ => []

/-- Something raises. -/
def raises : List (Op α) → Bool
  | [] => false
  | .enter _ :: ops => raises ops
  | .wait :: ops => raises ops
  | .raise :: _ => true

/-- A rank: the jobs it has not read, what is left of the job it runs, the jobs it has begun, and the
collectives it has entered, each with the number of its job. -/
structure Rank (J α : Type*) where
  inbox : List J
  running : Option (List (Op α))
  begun : List J
  log : List (Nat × α)

namespace Rank

/-- A job is begun. -/
def begin (x : Rank J α) (job : J) (ops : List (Op α)) : Rank J α :=
  { x with running := some ops, begun := x.begun ++ [job] }

/-- The collectives that are left. -/
def ahead (x : Rank J α) : List α := (x.running.map entered).getD []

/-- What is left raises. -/
def failing (x : Rank J α) : Bool := (x.running.map raises).getD false

/-- The steps that are left in a job. -/
def left (x : Rank J α) : Nat := (x.running.map fun ops => ops.length + 1).getD 0

end Rank

/-! ## The system -/

/-- The root, and what each rank does in a job. -/
structure System (ι J α : Type*) where
  root : ι
  program : J → ι → List (Op α)

/-- All ranks; the requests that wait, and the jobs of the request at hand that are not sent. -/
structure Cluster (ι J α : Type*) where
  requests : List (List J)
  rest : List J
  sent : List J
  ranks : ι → Rank J α

/-- Before the first request. -/
def Cluster.start (requests : List (List J)) : Cluster ι J α where
  requests
  rest := []
  sent := []
  ranks _ := { inbox := [], running := none, begun := [], log := [] }

/-- Collectives that meet are the same one of the same job. -/
def Cluster.Agree (s : Cluster ι J α) : Prop :=
  ∀ (r q : ι) (j : Nat) (e e' : Nat × α),
    (s.ranks r).log[j]? = some e → (s.ranks q).log[j]? = some e' → e = e'

namespace System

variable (S : System ι J α)

/-- What is sent of a request: it ends with a job that raises on the root. -/
def issuedOf : List J → List J
  | [] => []
  | job :: jobs => job :: if raises (S.program job S.root) then [] else issuedOf jobs

/-- What is sent. -/
def issued (requests : List (List J)) : List J := requests.flatMap S.issuedOf

/-- A step of a rank. -/
inductive Step [DecidableEq ι] : Cluster ι J α → Cluster ι J α → Prop where
  | accept {s jobs requests} (next : s.requests = jobs :: requests) (served : s.rest = [])
      (idle : (s.ranks S.root).running = none) :
    Step s { s with requests, rest := jobs }
  | send {s job rest} (next : s.rest = job :: rest) (idle : (s.ranks S.root).running = none) :
    Step s
      { s with
        rest
        sent := s.sent ++ [job]
        ranks := fun r =>
          if r = S.root then (s.ranks r).begin job (S.program job r)
          else { s.ranks r with inbox := (s.ranks r).inbox ++ [job] } }
  | receive {s job inbox} (r : ι) (worker : r ≠ S.root) (idle : (s.ranks r).running = none)
      (next : (s.ranks r).inbox = job :: inbox) :
    Step s
      { s with
        ranks := Function.update s.ranks r
          ({ s.ranks r with inbox }.begin job (S.program job r)) }
  | enter {s c ops} (r : ι) (now : (s.ranks r).running = some (.enter c :: ops)) :
    Step s
      { s with
        ranks := Function.update s.ranks r
          { s.ranks r with
            running := some ops
            log := (s.ranks r).log ++ [((s.ranks r).begun.length, c)] } }
  | wait {s ops} (r : ι) (now : (s.ranks r).running = some (.wait :: ops))
      (met : ∀ q, (s.ranks r).log.length ≤ (s.ranks q).log.length) :
    Step s { s with ranks := Function.update s.ranks r { s.ranks r with running := some ops } }
  | raise {s ops} (r : ι) (now : (s.ranks r).running = some (.raise :: ops)) :
    Step s
      { s with
        rest := if r = S.root then [] else s.rest
        ranks := Function.update s.ranks r { s.ranks r with running := none } }
  | finish {s} (r : ι) (now : (s.ranks r).running = some []) :
    Step s { s with ranks := Function.update s.ranks r { s.ranks r with running := none } }

/-- All requests are served: every rank has begun every job that was sent and is done, and has entered
the collectives that the others have. -/
structure Served (requests : List (List J)) (s : Cluster ι J α) : Prop where
  none_waits : s.requests = [] ∧ s.rest = []
  all_sent : s.sent = S.issued requests
  idle : ∀ r, (s.ranks r).running = none
  begun : ∀ r, (s.ranks r).begun = s.sent
  met : ∀ r q, (s.ranks r).log = (s.ranks q).log

/-- No rank can do anything. -/
def Stuck [DecidableEq ι] (s : Cluster ι J α) : Prop := ∀ s', ¬ S.Step s s'

/-- In every run collectives meet as they should, and no rank is left waiting. -/
def LockStep [DecidableEq ι] (requests : List (List J)) : Prop :=
  ∀ s, Relation.ReflTransGen S.Step (.start requests) s →
    s.Agree ∧ (S.Stuck s → S.Served requests s)

/-! ## What is entered in any run -/

/-- The collectives of jobs, on a rank that finishes them. -/
def full (r : ι) (jobs : List J) : List (Nat × α) :=
  (jobs.zipIdx 1).flatMap fun job => (entered (S.program job.1 r)).map (job.2, ·)

lemma full_append (r : ι) (jobs : List J) (job : J) :
    S.full r (jobs ++ [job]) =
      S.full r jobs ++ (entered (S.program job r)).map (jobs.length + 1, ·) := by
  unfold full
  rw [List.zipIdx_append, List.flatMap_append, Nat.add_comm 1]
  simp

/-- What a root sends of the request at hand. -/
def toSend (x : Rank J α) (rest : List J) : List J := if x.failing then [] else S.issuedOf rest

/-- What is left to be sent. -/
def unsent (s : Cluster ι J α) : List J :=
  S.toSend (s.ranks S.root) s.rest ++ S.issued s.requests

/-- What holds in every run. -/
structure Inv (requests : List (List J)) (s : Cluster ι J α) : Prop where
  delivered : ∀ r, (s.ranks r).begun ++ (s.ranks r).inbox = s.sent
  root_inbox : (s.ranks S.root).inbox = []
  logged : ∀ r, (s.ranks r).log ++ (s.ranks r).ahead.map ((s.ranks r).begun.length, ·) =
    S.full r (s.ranks r).begun
  sending : s.sent ++ S.unsent s = S.issued requests

lemma issued_cons (jobs : List J) (requests : List (List J)) :
    S.issued (jobs :: requests) = S.issuedOf jobs ++ S.issued requests := List.flatMap_cons

variable {S} {requests : List (List J)} {s s' : Cluster ι J α}

lemma inv_start : S.Inv requests (.start requests) where
  delivered _ := rfl
  root_inbox := rfl
  logged _ := rfl
  sending := rfl

variable [DecidableEq ι]

lemma Inv.move (inv : S.Inv requests s) {r : ι} {x : Rank J α} {rest : List J}
    (inbox : x.inbox = (s.ranks r).inbox) (begun : x.begun = (s.ranks r).begun)
    (logged : x.log ++ x.ahead.map (x.begun.length, ·) =
      (s.ranks r).log ++ (s.ranks r).ahead.map ((s.ranks r).begun.length, ·))
    (root : r = S.root → S.toSend x rest = S.toSend (s.ranks r) s.rest)
    (other : r ≠ S.root → rest = s.rest) :
    S.Inv requests { s with rest, ranks := Function.update s.ranks r x } where
  delivered := (Function.forall_update_iff s.ranks fun _ x => x.begun ++ x.inbox = s.sent).mpr
    ⟨by rw [inbox, begun, inv.delivered r], fun q _ => inv.delivered q⟩
  root_inbox := (Function.forall_update_iff s.ranks fun q x => q = S.root → x.inbox = []).mpr
    ⟨fun here => by rw [inbox, here, inv.root_inbox], fun q _ here => here ▸ inv.root_inbox⟩ S.root rfl
  logged := (Function.forall_update_iff s.ranks fun q x =>
      x.log ++ x.ahead.map (x.begun.length, ·) = S.full q x.begun).mpr
    ⟨by rw [logged, begun, inv.logged r], fun q _ => inv.logged q⟩
  sending := by
    have same : S.unsent { s with rest, ranks := Function.update s.ranks r x } = S.unsent s := by
      unfold unsent
      by_cases here : r = S.root
      · subst here
        dsimp only
        rw [Function.update_self, root rfl]
      · dsimp only
        rw [Function.update_of_ne (Ne.symm here), other here]
    rw [same]
    exact inv.sending

lemma inv_step (inv : S.Inv requests s) (step : S.Step s s') : S.Inv requests s' := by
  cases step with
  | accept next served idle =>
    refine { inv with sending := ?_ }
    rw [← inv.sending]
    unfold unsent
    simp only [toSend, Rank.failing, idle, next, served, issued_cons]
    rfl
  | @send job rest next idle =>
    have sent : s.sent ++ [job] ++ (if raises (S.program job S.root) then [] else S.issuedOf rest) ++
        S.issued s.requests = S.issued requests := by
      rw [← inv.sending]
      unfold unsent
      simp only [toSend, Rank.failing, idle, next]
      simp [issuedOf]
    exact
      { delivered := fun r => by
          by_cases here : r = S.root
          · subst here
            have begun : (s.ranks S.root).begun = s.sent := by
              rw [← inv.delivered S.root, inv.root_inbox, List.append_nil]
            simp only [if_true, Rank.begin, begun, inv.root_inbox, List.append_nil]
          · simp only [if_neg here, ← List.append_assoc, inv.delivered r]
        root_inbox := by simp only [if_true, Rank.begin, inv.root_inbox]
        logged := fun r => by
          by_cases here : r = S.root
          · have idle_log := inv.logged r
            rw [here] at idle_log ⊢
            simp only [Rank.ahead, idle] at idle_log
            simp only [if_true, Rank.begin, Rank.ahead]
            rw [full_append, ← idle_log]
            simp
          · simp only [if_neg here]
            exact inv.logged r
        sending := by
          rw [← sent]
          unfold unsent
          simp only [if_true, toSend, Rank.begin, Rank.failing, List.append_assoc]
          rfl }
  | @receive job inbox r worker idle next =>
    have begun : (s.ranks r).begun ++ [job] ++ inbox = s.sent := by
      rw [← inv.delivered r, next, List.append_assoc]
      rfl
    have idle_log := inv.logged r
    simp only [Rank.ahead, idle] at idle_log
    exact
      { delivered := (Function.forall_update_iff s.ranks fun _ x => x.begun ++ x.inbox = s.sent).mpr
          ⟨begun, fun q _ => inv.delivered q⟩
        root_inbox := by
          simp only [Function.update_of_ne worker.symm]
          exact inv.root_inbox
        logged := (Function.forall_update_iff s.ranks fun q x =>
            x.log ++ x.ahead.map (x.begun.length, ·) = S.full q x.begun).mpr
          ⟨by
            simp only [Rank.begin, Rank.ahead]
            rw [full_append, ← idle_log]
            simp, fun q _ => inv.logged q⟩
        sending := by
          rw [← inv.sending]
          unfold unsent
          simp only [Function.update_of_ne worker.symm] }
  | enter r now =>
    refine inv.move rfl rfl ?_ ?_ fun _ => rfl
    · simp only [Rank.ahead, now, List.append_assoc]
      rfl
    · intro _
      simp only [toSend, Rank.failing, now]
      rfl
  | wait r now met =>
    refine inv.move rfl rfl ?_ ?_ fun _ => rfl
    · simp only [Rank.ahead, now]
      rfl
    · intro _
      simp only [toSend, Rank.failing, now]
      rfl
  | raise r now =>
    refine inv.move rfl rfl ?_ ?_ fun other => if_neg other
    · simp only [Rank.ahead, now]
      rfl
    · intro root
      simp only [toSend, Rank.failing, now, if_pos root]
      rfl
  | finish r now =>
    refine inv.move rfl rfl ?_ ?_ fun _ => rfl
    · simp only [Rank.ahead, now]
      rfl
    · intro _
      simp only [toSend, Rank.failing, now]
      rfl

lemma inv_run (run : Relation.ReflTransGen S.Step (.start requests) s) : S.Inv requests s := by
  induction run with
  | refl => exact inv_start
  | tail _ step ih => exact inv_step ih step

/-! ## All ranks enter the same -/

/-- In every job that is sent all ranks enter the same collectives. -/
def Same (S : System ι J α) (requests : List (List J)) : Prop :=
  ∀ job ∈ S.issued requests, ∀ r q, entered (S.program job r) = entered (S.program job q)

omit [DecidableEq ι] in
lemma full_eq {jobs : List J} {r q : ι}
    (same : ∀ job ∈ jobs, entered (S.program job r) = entered (S.program job q)) :
    S.full r jobs = S.full q jobs := by
  induction jobs using List.reverseRecOn with
  | nil => rfl
  | append_singleton jobs job ih =>
    rw [full_append, full_append, same job (by simp), ih fun job member => same job (by simp [member])]

omit [DecidableEq ι] in
lemma full_prefix (r : ι) (before after : List J) :
    S.full r before <+: S.full r (before ++ after) := by
  unfold full
  rw [List.zipIdx_append, List.flatMap_append]
  exact List.prefix_append _ _

omit [DecidableEq ι] in
lemma Inv.sent_subset (inv : S.Inv requests s) {job : J} (member : job ∈ s.sent) :
    job ∈ S.issued requests := by
  rw [← inv.sending]
  exact List.mem_append_left _ member

omit [DecidableEq ι] in
lemma Inv.log_prefix (inv : S.Inv requests s) (same : S.Same requests) (r : ι) :
    (s.ranks r).log <+: S.full S.root s.sent := by
  have begun : S.full r (s.ranks r).begun <+: S.full r s.sent := by
    rw [← inv.delivered r]
    exact full_prefix r _ _
  have all : S.full r s.sent = S.full S.root s.sent :=
    full_eq fun job member => same job (inv.sent_subset member) r S.root
  rw [← all]
  exact (inv.logged r ▸ List.prefix_append _ _).trans begun

omit [DecidableEq ι] in
lemma Inv.agree (inv : S.Inv requests s) (same : S.Same requests) : s.Agree := by
  intro r q j e e' mine theirs
  obtain ⟨short, rfl⟩ := List.getElem?_eq_some_iff.mp mine
  obtain ⟨short', rfl⟩ := List.getElem?_eq_some_iff.mp theirs
  have here := List.prefix_iff_getElem?.mp (inv.log_prefix same r) j short
  have there := List.prefix_iff_getElem?.mp (inv.log_prefix same q) j short'
  exact Option.some_inj.mp (here.symm.trans there)

lemma Stuck.idle (stuck : S.Stuck s) (inv : S.Inv requests s) {r : ι}
    (fewest : ∀ q, (s.ranks r).log.length ≤ (s.ranks q).log.length) :
    (s.ranks r).running = none ∧ (s.ranks r).inbox = [] := by
  have idle : (s.ranks r).running = none := by
    rcases run : (s.ranks r).running with _ | ops
    · rfl
    · rcases ops with _ | ⟨op, ops⟩
      · exact absurd (.finish r run) (stuck _)
      cases op with
      | enter c => exact absurd (.enter r run) (stuck _)
      | wait => exact absurd (.wait r run fewest) (stuck _)
      | raise => exact absurd (.raise r run) (stuck _)
  refine ⟨idle, ?_⟩
  by_cases root : r = S.root
  · rw [root]
    exact inv.root_inbox
  · rcases waits : (s.ranks r).inbox with _ | ⟨job, inbox⟩
    · rfl
    · exact absurd (.receive r root idle waits) (stuck _)

lemma Inv.served (inv : S.Inv requests s) (same : S.Same requests) (stuck : S.Stuck s) :
    S.Served requests s := by
  have : Nonempty ι := ⟨S.root⟩
  have begun {r : ι} (nothing : (s.ranks r).inbox = []) : (s.ranks r).begun = s.sent := by
    rw [← inv.delivered r, nothing, List.append_nil]
  -- the log of an idle rank is all that can be entered
  have log {r : ι} (idle : (s.ranks r).running = none ∧ (s.ranks r).inbox = []) :
      (s.ranks r).log = S.full S.root s.sent := by
    have all : S.full r s.sent = S.full S.root s.sent :=
      full_eq fun job member => same job (inv.sent_subset member) r S.root
    have logged := inv.logged r
    rw [Rank.ahead, idle.1, begun idle.2, all] at logged
    simpa using logged
  have least (r : ι) := Function.argmin_le (fun r => (s.ranks r).log.length) r
  have first := log (stuck.idle inv least)
  have idle (r : ι) : (s.ranks r).running = none ∧ (s.ranks r).inbox = [] := by
    refine stuck.idle inv fun q => ?_
    have whole := (inv.log_prefix same r).length_le
    rw [← first] at whole
    exact whole.trans (least q)
  have rest : s.rest = [] := by
    rcases more : s.rest with _ | ⟨job, rest⟩
    · rfl
    · exact absurd (.send more (idle S.root).1) (stuck _)
  have requests' : s.requests = [] := by
    rcases more : s.requests with _ | ⟨jobs, requests⟩
    · rfl
    · exact absurd (.accept more rest (idle S.root).1) (stuck _)
  exact
    { none_waits := ⟨requests', rest⟩
      all_sent := by
        have sending := inv.sending
        unfold unsent toSend Rank.failing at sending
        rw [(idle S.root).1, rest, requests'] at sending
        simpa [issuedOf, issued] using sending
      idle := fun r => (idle r).1
      begun := fun r => begun (idle r).2
      met := fun r q => (log (idle r)).trans (log (idle q)).symm }

/-! ## Runs end -/

/-- The steps that a rank takes for jobs. -/
def cost (S : System ι J α) (r : ι) (jobs : List J) : Nat :=
  (jobs.map fun job => (S.program job r).length + 2).sum

/-- The steps that a rank has to take yet. -/
def work (S : System ι J α) (s : Cluster ι J α) (r : ι) : Nat :=
  (s.ranks r).left + S.cost r (s.ranks r).inbox + S.cost r s.rest + S.cost r s.requests.flatten

omit [DecidableEq ι] in
@[simp] lemma cost_nil (r : ι) : S.cost r [] = 0 := rfl

omit [DecidableEq ι] in
@[simp] lemma cost_cons (r : ι) (job : J) (jobs : List J) :
    S.cost r (job :: jobs) = (S.program job r).length + 2 + S.cost r jobs := by
  simp [cost]

omit [DecidableEq ι] in
@[simp] lemma cost_append (r : ι) (jobs jobs' : List J) :
    S.cost r (jobs ++ jobs') = S.cost r jobs + S.cost r jobs' := by
  simp [cost]

/-- A request is taken, or work is done; none is added. -/
def Less (S : System ι J α) (s' s : Cluster ι J α) : Prop :=
  s'.requests.length ≤ s.requests.length ∧ (∀ q, S.work s' q ≤ S.work s q) ∧
    (s'.requests.length < s.requests.length ∨ ∃ r, S.work s' r < S.work s r)

lemma less_update {rest : List J} {r : ι} {x : Rank J α}
    (less : x.left + S.cost r x.inbox < (s.ranks r).left + S.cost r (s.ranks r).inbox)
    (sent : ∀ q, S.cost q rest ≤ S.cost q s.rest) :
    S.Less { s with rest, ranks := Function.update s.ranks r x } s := by
  have here : S.work { s with rest, ranks := Function.update s.ranks r x } r < S.work s r := by
    have sent := sent r
    unfold work
    dsimp only
    rw [Function.update_self]
    omega
  refine ⟨le_rfl, fun q => ?_, Or.inr ⟨r, here⟩⟩
  by_cases same : q = r
  · rw [same]
    exact here.le
  · have sent := sent q
    unfold work
    dsimp only
    rw [Function.update_of_ne same]
    omega

lemma less_step (step : S.Step s s') : S.Less s' s := by
  cases step with
  | accept next served idle =>
    refine ⟨by simp [next], fun q => ?_, Or.inl (by simp [next])⟩
    unfold work
    simp only [next, served, List.flatten_cons, cost_append, cost_nil]
    omega
  | send next idle =>
    refine ⟨le_rfl, fun q => ?_, Or.inr ⟨S.root, ?_⟩⟩
    · unfold work
      by_cases root : q = S.root
      · simp only [root, if_true, next, Rank.begin, Rank.left, idle, cost_cons, Option.map_some,
          Option.map_none, Option.getD_some, Option.getD_none]
        omega
      · simp only [if_neg root, next, Rank.left, cost_append, cost_cons, cost_nil]
        omega
    · unfold work
      simp only [if_true, next, Rank.begin, Rank.left, idle, cost_cons, Option.map_some,
        Option.map_none, Option.getD_some, Option.getD_none]
      omega
  | receive r worker idle next =>
    refine less_update ?_ fun _ => le_rfl
    simp only [next, Rank.begin, Rank.left, idle, cost_cons, Option.map_some, Option.map_none,
      Option.getD_some, Option.getD_none]
    omega
  | enter r now => exact less_update (by simp [Rank.left, now]) fun _ => le_rfl
  | wait r now met => exact less_update (by simp [Rank.left, now]) fun _ => le_rfl
  | raise r now =>
    refine less_update (by simp [Rank.left, now]) fun q => ?_
    split_ifs
    · exact Nat.zero_le _
    · exact le_rfl
  | finish r now => exact less_update (by simp [Rank.left, now]) fun _ => le_rfl

lemma exists_stuck [Fintype ι] (S : System ι J α) (s : Cluster ι J α) :
    ∃ last, Relation.ReflTransGen S.Step s last ∧ S.Stuck last := by
  induction left : s.requests.length + ∑ r, S.work s r using Nat.strong_induction_on generalizing s with
  | h n ih =>
    subst left
    by_cases stuck : S.Stuck s
    · exact ⟨s, .refl, stuck⟩
    unfold Stuck at stuck
    push Not at stuck
    obtain ⟨next, step⟩ := stuck
    obtain ⟨requests, work, done⟩ := less_step step
    have less : next.requests.length + ∑ r, S.work next r < s.requests.length + ∑ r, S.work s r := by
      have sum := Finset.sum_le_sum fun r (_ : r ∈ Finset.univ) => work r
      rcases done with taken | ⟨r, done⟩
      · omega
      · have sum := Finset.sum_lt_sum (fun r (_ : r ∈ Finset.univ) => work r)
          ⟨r, Finset.mem_univ r, done⟩
        omega
    obtain ⟨last, run, stuck⟩ := ih _ less next rfl
    exact ⟨last, .head step run, stuck⟩

/-! ## Ranks that have entered the same -/

omit [DecidableEq ι] in
lemma number_le {r : ι} {jobs : List J} {e : Nat × α} (member : e ∈ S.full r jobs) :
    e.1 ≤ jobs.length := by
  induction jobs using List.reverseRecOn with
  | nil => cases member
  | append_singleton jobs job ih =>
    rw [full_append, List.mem_append] at member
    rw [List.length_append, List.length_singleton]
    rcases member with earlier | here
    · exact (ih earlier).trans (Nat.le_succ _)
    · obtain ⟨c, _, rfl⟩ := List.mem_map.mp here
      exact le_rfl

omit [DecidableEq ι] in
lemma entered_eq_of_full_eq {r q : ι} {jobs : List J} (same : S.full r jobs = S.full q jobs) :
    ∀ job ∈ jobs, entered (S.program job r) = entered (S.program job q) := by
  induction jobs using List.reverseRecOn with
  | nil => exact fun job member => absurd member List.not_mem_nil
  | append_singleton jobs job ih =>
    rw [full_append, full_append] at same
    have before (p : ι) : (S.full p jobs).filter (fun e => e.1 ≤ jobs.length) = S.full p jobs :=
      List.filter_eq_self.mpr fun e member => by simpa using number_le member
    have last (p : ι) : ((entered (S.program job p)).map (jobs.length + 1, ·)).filter
        (fun e => e.1 ≤ jobs.length) = [] :=
      List.filter_eq_nil_iff.mpr fun e member => by
        obtain ⟨c, _, rfl⟩ := List.mem_map.mp member
        simp
    have front := congrArg (List.filter fun e => e.1 ≤ jobs.length) same
    rw [List.filter_append, List.filter_append, before, before, last, last, List.append_nil,
      List.append_nil] at front
    rw [front, List.append_cancel_left_eq] at same
    intro job' member
    rcases List.mem_append.mp member with earlier | here
    · exact ih front job' earlier
    · rw [List.mem_singleton.mp here]
      exact List.map_injective_iff.mpr (Prod.mk_right_injective _) same

lemma LockStep.same [Fintype ι] (lockStep : S.LockStep requests) : S.Same requests := by
  obtain ⟨last, run, stuck⟩ := S.exists_stuck (.start requests)
  have served := (lockStep last run).2 stuck
  have inv := inv_run run
  have log (r : ι) : (last.ranks r).log = S.full r (S.issued requests) := by
    have logged := inv.logged r
    rw [Rank.ahead, served.idle r, served.begun r, served.all_sent] at logged
    simpa using logged
  intro job member r q
  exact entered_eq_of_full_eq ((log r).symm.trans ((served.met r q).trans (log q))) job member

/-- Ranks are in lock-step in all runs exactly if in every job that is sent they enter the same. -/
theorem lockStep_iff_same [Fintype ι] : S.LockStep requests ↔ S.Same requests := by
  constructor
  · exact LockStep.same
  · intro same s run
    have inv := inv_run run
    exact ⟨inv.agree same, inv.served same⟩

end System

end PocketMoE.Lib.Ranks
