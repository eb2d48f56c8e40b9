import PocketMoE.Runtime.Offload

/-!
# Safety of the offload

`Inv` is the invariant of the runs in which every launch fits. Its core is `Phase`, what the server
may be doing: something that earlier ranks have left (`fresh`, `early`), the last submit (`work`), or
nothing, when it has responded to the last submit (`answered`). Rank 0 is at the wait for the
response whenever the server is at work, so nobody stores what the server loads.
-/

namespace PocketMoE.Runtime.Offload
open PocketMoE.Lib

variable {X O : Type*}

/-- The sequence number of the last submit. -/
def State.current (s : State X O) : Nat := s.base + s.submits.length

/-- The last submit stands in the shared memory. -/
def State.Stored (s : State X O) : Prop :=
  ∃ item, s.submits[s.submits.length - 1]? = some item ∧
    s.layerId = item.layerId ∧ s.input = item.input

section Invariant

variable (m : CPUMoEServer X O)

/-- The output for the last submit stands in its slot. -/
def State.Computed (s : State X O) : Prop :=
  ∃ item, s.submits[s.submits.length - 1]? = some item ∧
    s.output (s.current % m.outputSlots) = m.forward item.layerId item.input

/-- What the server may still do for earlier ranks. -/
def Leftover (base : Nat) : Server X → Prop
  | .waitRequest lastSeq => lastSeq = base ∨ (m.nativeLoop = true ∧ lastSeq < base)
  | .request seq => m.nativeLoop = true ∧ seq ≤ base
  | .layer seq _ => m.nativeLoop = true ∧ seq ≤ base
  | .computing seq _ _ _ => m.nativeLoop = true ∧ seq ≤ base
  | .computed seq => m.nativeLoop = true ∧ seq ≤ base
  | .storedLayer seq => m.nativeLoop = false ∧ seq = base
  | _ => False

/-- The server serves the last submit. -/
def Work (s : State X O) : Server X → Prop
  | .waitRequest lastSeq => lastSeq < s.current
  | .request seq => seq = s.current
  | .layer seq layerId => seq = s.current ∧ layerId = s.layerId
  | .computing seq layerId x copies =>
    seq = s.current ∧ layerId = s.layerId ∧ x = s.input ∧ copies = s.copies
  | .computed seq => seq = s.current ∧ s.Computed m
  | .respondReq seq req =>
    m.nativeLoop = false ∧ seq = s.current ∧ s.Computed m ∧ req = s.current
  | .respondLayer seq req layerId =>
    m.nativeLoop = false ∧ seq = s.current ∧ s.Computed m ∧ req = s.current ∧ layerId = s.layerId
  | .storedReq seq layerId =>
    m.nativeLoop = false ∧ seq = s.current ∧ s.Computed m ∧ layerId = s.layerId
  | .storedLayer seq => m.nativeLoop = false ∧ seq = s.current ∧ s.Computed m

/-- What the server may be doing. -/
inductive Phase (s : State X O) : Prop where
  | fresh : s.submits.length = 0 → s.resp ≤ s.base → Leftover m s.base s.server → Phase s
  | early : s.submits.length = 1 → s.lead = .waitResponse s.current → s.resp ≤ s.base →
    Leftover m s.base s.server → Phase s
  | work : 0 < s.submits.length → s.lead = .waitResponse s.current → s.resp < s.current →
    (s.submits.length = 1 ∨ s.current = s.resp + 1) → Work m s s.server → Phase s
  | answered : 0 < s.submits.length → s.resp = s.current → s.server = .waitRequest s.current →
    Phase s

/-- The next slot has been acknowledged by all ranks. -/
def Room (s : State X O) : Prop :=
  ∀ r, 0 < r → r < s.client.worldSize → s.submits.length + 1 ≤ (s.ranks r).acked + m.outputSlots

/-- A response number that rank 0 may put back. -/
def PutBack (s : State X O) (resp : Nat) : Prop :=
  if s.submits.length = 0 then resp ≤ s.base else resp = s.current

/-- What rank 0 knows at each place of an offload. -/
def LeadInv (s : State X O) : Lead X → Prop
  | .idle => (s.reads 0).length = s.submits.length
  | .submitDecode _ _ => (s.reads 0).length = s.submits.length
  | .waitSlotAcks _ _ seq rank => (s.reads 0).length = s.submits.length ∧
    seq = s.current + 1 - m.outputSlots ∧
    ∀ r, 0 < r → r < rank → r < s.client.worldSize → seq ≤ s.base + (s.ranks r).acked
  | .submit _ _ => (s.reads 0).length = s.submits.length ∧ Room m s
  | .submitReq _ _ req => (s.reads 0).length = s.submits.length ∧ Room m s ∧ req = s.current
  | .submitResp _ _ req resp => (s.reads 0).length = s.submits.length ∧ Room m s ∧
    req = s.current ∧ PutBack s resp
  | .copied _ x req resp => (s.reads 0).length = s.submits.length ∧ Room m s ∧
    req = s.current ∧ PutBack s resp ∧ s.input = x
  | .storedResp _ x req => (s.reads 0).length = s.submits.length ∧ Room m s ∧
    req = s.current ∧ s.input = x
  | .storedLayer layerId x req => (s.reads 0).length = s.submits.length ∧ Room m s ∧
    req = s.current ∧ s.input = x ∧ s.layerId = layerId
  | .waitResponse seq => (s.reads 0).length + 1 = s.submits.length ∧ seq = s.current ∧ s.Stored
  | .read seq => (s.reads 0).length + 1 = s.submits.length ∧ seq = s.current ∧ s.resp = s.current
  | .failed => False

/-- What another rank knows at each place of an offload. -/
def FollowInv (s : State X O) (r : Nat) (k : Rank) : Follow → Prop
  | .idle => (s.reads r).length = k.acked ∧
    (s.client.predictSeq = true →
      k.predicted = s.base + k.acked ∨ (k.acked = 0 ∧ s.client.sync 0 = true))
  | .waitResponse seq => (s.reads r).length = k.acked ∧ seq = s.base + k.acked + 1 ∧
    (s.client.predictSeq = true → k.predicted = seq)
  | .read seq => (s.reads r).length = k.acked ∧ seq = s.base + k.acked + 1 ∧
    (s.client.predictSeq = true → k.predicted = seq) ∧ seq ≤ s.resp
  | .ack seq => (s.reads r).length = k.acked + 1 ∧ seq = s.base + k.acked + 1 ∧
    (s.client.predictSeq = true → k.predicted = seq) ∧ seq ≤ s.resp
  | .failed => False

/-- The invariant. -/
structure Inv (s : State X O) : Prop where
  columns : s.client.worldSize ≤ m.maxAckRanks
  req : s.req = s.current
  seqs : ∀ (k : Nat) item, s.submits[k]? = some item → item.seq = s.base + k + 1
  phase : Phase m s
  lead : LeadInv m s s.lead
  follow : ∀ r, 0 < r → FollowInv s r (s.ranks r) (s.ranks r).pc
  cells : ∀ i, s.acks i ≤ s.req
  mine : ∀ r, 0 < r → r < s.client.worldSize → ∀ slot,
    s.acks (slot * m.maxAckRanks + r) ≤ s.base + (s.ranks r).acked
  room : ∀ r, 0 < r → r < s.client.worldSize →
    s.submits.length ≤ (s.ranks r).acked + m.outputSlots
  outputs : ∀ (k : Nat) item, s.submits[k]? = some item → item.seq ≤ s.resp →
    s.submits.length ≤ k + m.outputSlots →
    s.output (item.seq % m.outputSlots) = m.forward item.layerId item.input
  reads : ∀ r (k : Nat) v, (s.reads r)[k]? = some v →
    ∃ item : Submit X, s.submits[k]? = some item ∧ v = m.forward item.layerId item.input
  answered : ∀ seq ∈ s.answered, seq ≤ s.base ∨ seq ≤ s.resp

end Invariant

section Steps

variable {m : CPUMoEServer X O} {s t : State X O}

lemma Inv.init (x : X) (v : O) : Inv m (State.init x v) where
  columns := Nat.zero_le _
  req := rfl
  seqs := by simp [State.init]
  phase := .fresh rfl (Nat.le_refl _) (Or.inl rfl)
  lead := rfl
  follow := fun _ _ => ⟨rfl, fun predict => absurd predict nofun⟩
  cells := fun _ => Nat.le_refl _
  mine := fun _ _ lt => absurd lt (Nat.not_lt_zero _)
  room := fun _ _ _ => Nat.zero_le _
  outputs := by simp [State.init]
  reads := by simp [State.init]
  answered := by simp [State.init]

lemma Phase.resp_le (phase : Phase m s) : s.resp ≤ s.current := by
  unfold State.current
  cases phase with
  | fresh _ le _ => omega
  | early _ _ le _ => omega
  | work _ _ lt _ _ => exact lt.le
  | answered _ eq _ => exact eq.le

lemma Leftover.mono {base base' : Nat} {server : Server X} (native : m.nativeLoop = true)
    (left : Leftover m base server) (le : base ≤ base') : Leftover m base' server := by
  cases server with
  | waitRequest lastSeq =>
    have : lastSeq = base' ∨ lastSeq < base' := by
      rcases left with eq | ⟨_, lt⟩ <;> omega
    exact this.imp_right fun lt => ⟨native, lt⟩
  | storedLayer seq => exact absurd (native.symm.trans left.1) nofun
  | respondReq => exact left
  | respondLayer => exact left
  | storedReq => exact left
  | _ => exact ⟨native, left.2.trans le⟩

lemma Work.leftover {server : Server X} (native : m.nativeLoop = true)
    (work : Work m s server) : Leftover m s.current server := by
  cases server with
  | waitRequest lastSeq => exact Or.inr ⟨native, work⟩
  | request seq => exact ⟨native, work.le⟩
  | respondReq => exact absurd (native.symm.trans work.1) nofun
  | respondLayer => exact absurd (native.symm.trans work.1) nofun
  | storedReq => exact absurd (native.symm.trans work.1) nofun
  | storedLayer => exact absurd (native.symm.trans work.1) nofun
  | _ => exact ⟨native, work.1.le⟩

lemma Phase.leftover (phase : Phase m s) (req : s.req = s.current) (settled : Settled m s) :
    Leftover m s.req s.server := by
  cases native : m.nativeLoop with
  | true =>
    rw [req]
    cases phase with
    | fresh _ _ left => exact left.mono native (Nat.le_add_right _ _)
    | early _ _ _ left => exact left.mono native (Nat.le_add_right _ _)
    | work _ _ _ _ work => exact work.leftover native
    | answered _ _ waits => exact waits ▸ Or.inl rfl
  | false =>
    rcases settled with loop | waits | stored
    · exact absurd (native.symm.trans loop) Bool.false_ne_true
    · exact waits ▸ Or.inl rfl
    · exact stored ▸ ⟨native, rfl⟩

lemma Inv.launch (inv : Inv m s) {c : Client} (fits : Fits m s (.launch c)) :
    Inv m (s.launch c) := by
  obtain ⟨columns, settled, predict⟩ := fits
  exact {
    columns := columns
    req := rfl
    seqs := by simp [State.launch]
    phase := .fresh rfl (inv.phase.resp_le.trans_eq inv.req.symm)
      (inv.phase.leftover inv.req settled)
    lead := rfl
    follow := fun r _ => ⟨rfl, fun predicts => (predict predicts).imp (fun zero => zero.symm)
      fun sync => ⟨rfl, sync⟩⟩
    cells := inv.cells
    mine := fun r _ _ slot => inv.cells _
    room := fun _ _ _ => Nat.zero_le _
    outputs := by simp [State.launch]
    reads := by simp [State.launch]
    answered := by simp [State.launch] }

/-! ### Rank 0 -/

lemma Inv.lead_at {l : Lead X} (inv : Inv m s) (place : s.lead = l) : LeadInv m s l :=
  place ▸ inv.lead

lemma ackCell_lt {rank seq : Nat} (lt : rank < m.maxAckRanks) : m.ackCell rank seq < m.ackSize := by
  have slot : seq % m.outputSlots + 1 ≤ m.outputSlots := Nat.mod_lt _ m.outputSlots_pos
  calc seq % m.outputSlots * m.maxAckRanks + rank
      < seq % m.outputSlots * m.maxAckRanks + m.maxAckRanks := Nat.add_lt_add_left lt _
    _ = (seq % m.outputSlots + 1) * m.maxAckRanks := (Nat.succ_mul _ _).symm
    _ ≤ m.outputSlots * m.maxAckRanks := Nat.mul_le_mul_right _ slot

lemma Inv.quiet (inv : Inv m s) (place : ∀ seq, s.lead ≠ .waitResponse seq) {l : Lead X}
    {layerId : Int} {x : X} {copies : Nat}
    (lead : LeadInv m
      { s with lead := l, layerId := layerId, input := x, copies := copies } l) :
    Inv m { s with lead := l, layerId := layerId, input := x, copies := copies } where
  columns := inv.columns
  req := inv.req
  seqs := inv.seqs
  phase := by
    cases inv.phase with
    | fresh none le left => exact .fresh none le left
    | early _ waits _ _ => exact absurd waits (place _)
    | work _ waits _ _ _ => exact absurd waits (place _)
    | answered some eq waits => exact .answered some eq waits
  lead := lead
  follow := inv.follow
  cells := inv.cells
  mine := inv.mine
  room := inv.room
  outputs := inv.outputs
  reads := inv.reads
  answered := inv.answered

lemma Inv.submitDecode {layerId : Int} {x : X} (inv : Inv m s)
    (place : s.lead = .submitDecode layerId x) :
    Inv m { s with lead := m.reuse s layerId x } := by
  have count : (s.reads 0).length = s.submits.length := inv.lead_at place
  have req := inv.req
  refine inv.quiet (by simp [place]) ?_
  unfold CPUMoEServer.reuse
  dsimp only
  split_ifs with wait
  · exact ⟨count, by rw [req]; rfl, fun r pos lt => by omega⟩
  · refine ⟨count, fun r pos lt => ?_⟩
    unfold State.current at req
    show s.submits.length + 1 ≤ (s.ranks r).acked + m.outputSlots
    omega

lemma Inv.acked {layerId : Int} {x : X} {seq rank : Nat} (inv : Inv m s)
    (place : s.lead = .waitSlotAcks layerId x seq rank)
    (acked : seq ≤ s.acks (m.ackCell rank seq)) :
    Inv m { s with lead := .waitSlotAcks layerId x seq (rank + 1) } := by
  obtain ⟨count, eq, before⟩ := inv.lead_at place
  refine inv.quiet (by simp [place]) ⟨count, eq, fun r pos lt world => ?_⟩
  rcases Nat.lt_succ_iff_lt_or_eq.mp lt with less | rfl
  · exact before r pos less world
  · exact acked.trans (inv.mine r pos world _)

lemma Inv.allAcked {layerId : Int} {x : X} {seq rank : Nat} (inv : Inv m s)
    (place : s.lead = .waitSlotAcks layerId x seq rank) (all : s.client.worldSize ≤ rank) :
    Inv m { s with lead := .submit layerId x } := by
  obtain ⟨count, eq, before⟩ := inv.lead_at place
  refine inv.quiet (by simp [place]) ⟨count, fun r pos world => ?_⟩
  have acked := before r pos (Nat.lt_of_lt_of_le world all) world
  rw [eq, State.current] at acked
  show s.submits.length + 1 ≤ (s.ranks r).acked + m.outputSlots
  omega

lemma Inv.putBack (inv : Inv m s) (place : ∀ seq, s.lead ≠ .waitResponse seq) :
    PutBack s s.resp := by
  unfold PutBack
  cases inv.phase with
  | fresh none le _ => rwa [if_pos none]
  | early _ waits _ _ => exact absurd waits (place _)
  | work _ waits _ _ _ => exact absurd waits (place _)
  | answered some eq _ => rwa [if_neg some.ne']

lemma FollowInv.congr {r : Nat} {k : Rank} {pc : Follow} (known : FollowInv s r k pc)
    (reads : t.reads r = s.reads r) (client : t.client = s.client) (base : t.base = s.base)
    (resp : s.resp ≤ t.resp ∨ s.resp ≤ s.base) : FollowInv t r k pc := by
  cases pc with
  | idle => simpa only [FollowInv, reads, client, base] using known
  | waitResponse seq => simpa only [FollowInv, reads, client, base] using known
  | read seq =>
    obtain ⟨count, eq, predicted, le⟩ := known
    refine ⟨by rwa [reads], by rwa [base], by rwa [client], ?_⟩
    omega
  | ack seq =>
    obtain ⟨count, eq, predicted, le⟩ := known
    refine ⟨by rwa [reads], by rwa [base], by rwa [client], ?_⟩
    omega
  | failed => exact known

lemma Inv.storeResp {layerId : Int} {x : X} {req resp : Nat} (inv : Inv m s)
    (place : s.lead = .copied layerId x req resp) :
    Inv m { s with lead := .storedResp layerId x req, resp := resp } := by
  obtain ⟨count, room, eq, back, input⟩ := inv.lead_at place
  have none : ∀ seq, s.lead ≠ .waitResponse seq := by simp [place]
  have now := inv.putBack none
  by_cases empty : s.submits.length = 0
  · unfold PutBack at back now
    rw [if_pos empty] at back now
    have nothing : s.submits = [] := List.length_eq_zero_iff.mp empty
    exact { inv with
      phase := by
        cases inv.phase with
        | fresh none le left => exact .fresh none back left
        | _ => omega
      lead := ⟨count, room, eq, input⟩
      follow := fun r pos => (inv.follow r pos).congr rfl rfl rfl (Or.inr now)
      outputs := by simp [nothing]
      answered := fun seq member =>
        Or.inl ((inv.answered seq member).elim id fun le => le.trans now) }
  · unfold PutBack at back now
    rw [if_neg empty] at back now
    obtain rfl : resp = s.resp := back.trans now.symm
    exact inv.quiet none ⟨count, room, eq, input⟩

lemma getElem?_submit {items : List (Submit X)} {item new : Submit X} {k : Nat}
    (found : (items ++ [new])[k]? = some item) :
    items[k]? = some item ∨ (k = items.length ∧ item = new) := by
  rcases Nat.lt_trichotomy k items.length with lt | rfl | gt
  · rw [List.getElem?_append_left lt] at found
    exact Or.inl found
  · rw [List.getElem?_concat_length] at found
    exact Or.inr ⟨rfl, (Option.some_inj.mp found).symm⟩
  · rw [List.getElem?_eq_none (by simp; omega)] at found
    exact absurd found (by rintro ⟨⟩)

lemma State.length_submit {req : Nat} {layerId : Int} {x : X} :
    (s.submit req layerId x).submits.length = s.submits.length + 1 := by
  simp [State.submit]

lemma State.current_submit {req : Nat} {layerId : Int} {x : X} :
    (s.submit req layerId x).current = s.current + 1 := by
  unfold State.current
  rw [State.length_submit]
  rfl

lemma Inv.storeReq {layerId : Int} {x : X} {req : Nat} (inv : Inv m s)
    (place : s.lead = .storedLayer layerId x req) :
    Inv m { s.submit req layerId x with lead := .waitResponse (req + 1) } := by
  obtain ⟨count, room, rfl, input, layer⟩ := inv.lead_at place
  have above := inv.phase.resp_le
  have grown : (s.submit s.current layerId x).submits.length = s.submits.length + 1 :=
    State.length_submit
  have new : (s.submit s.current layerId x).current = s.current + 1 := State.current_submit
  exact {
    columns := inv.columns
    req := new.symm
    seqs := by
      intro k item found
      rcases getElem?_submit found with old | ⟨rfl, rfl⟩
      · exact inv.seqs k item old
      · rfl
    phase := by
      cases inv.phase with
      | fresh none le left =>
        exact .early (grown.trans (congrArg _ none)) (congrArg _ new.symm) le left
      | early _ waits _ _ => exact absurd (place.symm.trans waits) nofun
      | work _ waits _ _ _ => exact absurd (place.symm.trans waits) nofun
      | answered some eq waits =>
        refine .work (grown ▸ Nat.succ_pos _) (congrArg _ new.symm) ?_ (Or.inr ?_) ?_
        · exact (Nat.lt_succ_of_le above).trans_eq new.symm
        · exact new.trans (congrArg _ eq.symm)
        · show Work m _ s.server
          rw [waits]
          exact (Nat.lt_succ_self _).trans_eq new.symm
    lead := by
      refine ⟨?_, new.symm, ⟨s.current + 1, layerId, x⟩, ?_, layer, input⟩
      · exact (congrArg _ count).trans grown.symm
      · have last : (s.submit s.current layerId x).submits[s.submits.length]? =
            some ⟨s.current + 1, layerId, x⟩ := List.getElem?_concat_length
        rwa [← Nat.add_sub_cancel (n := s.submits.length) (m := 1), ← grown] at last
    follow := fun r pos => (inv.follow r pos).congr rfl rfl rfl (Or.inl (Nat.le_refl _))
    cells := fun i => (inv.cells i).trans (inv.req.le.trans (Nat.le_succ _))
    mine := inv.mine
    room := by
      intro r pos lt
      exact grown.le.trans (room r pos lt)
    outputs := by
      intro k item found le near
      replace near : s.submits.length + 1 ≤ k + m.outputSlots := grown ▸ near
      rcases getElem?_submit found with old | ⟨rfl, rfl⟩
      · exact inv.outputs k item old le (by omega)
      · exact absurd (le.trans above) (Nat.not_succ_le_self _)
    reads := by
      intro r k v found
      obtain ⟨item, there, eq⟩ := inv.reads r k v found
      exact ⟨item, List.getElem?_append_left (List.getElem?_eq_some_iff.mp there).1 ▸ there, eq⟩
    answered := inv.answered }

lemma Inv.response {seq : Nat} (inv : Inv m s) (place : s.lead = .waitResponse seq)
    (le : seq ≤ s.resp) : Inv m { s with lead := .read seq } := by
  obtain ⟨count, rfl, _⟩ := inv.lead_at place
  have above := inv.phase.resp_le
  exact { inv with
    phase := by
      cases inv.phase with
      | fresh none _ _ => omega
      | early one _ low _ =>
        unfold State.current at le
        omega
      | work _ _ lt _ _ => omega
      | answered some eq waits => exact .answered some eq waits
    lead := ⟨count, rfl, Nat.le_antisymm above le⟩ }

lemma Inv.output_at {k : Nat} {item : Submit X} (inv : Inv m s) (found : s.submits[k]? = some item)
    (le : s.base + k + 1 ≤ s.resp) (near : s.submits.length ≤ k + m.outputSlots) :
    s.output ((s.base + k + 1) % m.outputSlots) = m.forward item.layerId item.input := by
  rw [← inv.seqs k item found] at le ⊢
  exact inv.outputs k item found le near

lemma Inv.reads_slot {r : Nat} (inv : Inv m s) (le : s.base + (s.reads r).length + 1 ≤ s.resp)
    (near : s.submits.length ≤ (s.reads r).length + m.outputSlots) (r' k : Nat) (v : O)
    (found : ((s.readSlot r ((s.base + (s.reads r).length + 1) % m.outputSlots)).reads r')[k]? =
      some v) :
    ∃ item : Submit X, s.submits[k]? = some item ∧ v = m.forward item.layerId item.input := by
  by_cases same : r' = r
  · subst same
    simp only [State.readSlot, Function.update_self] at found
    rcases Nat.lt_trichotomy k (s.reads r').length with lt | rfl | gt
    · rw [List.getElem?_append_left lt] at found
      exact inv.reads r' k v found
    · have above := inv.phase.resp_le
      have lt : (s.reads r').length < s.submits.length := by
        unfold State.current at above
        omega
      rw [List.getElem?_concat_length] at found
      have there := List.getElem?_eq_getElem lt
      exact ⟨_, there, (Option.some_inj.mp found).symm.trans (inv.output_at there le near)⟩
    · rw [List.getElem?_eq_none (by simp; omega)] at found
      exact absurd found (by rintro ⟨⟩)
  · simp only [State.readSlot, Function.update_of_ne same] at found
    exact inv.reads r' k v found

lemma State.readSlot_reads {r slot : Nat} :
    (s.readSlot r slot).reads r = s.reads r ++ [s.output slot] :=
  Function.update_self ..

lemma Inv.read {seq : Nat} (inv : Inv m s) (place : s.lead = .read seq) :
    Inv m { s.readSlot 0 (seq % m.outputSlots) with lead := .idle } := by
  obtain ⟨count, rfl, resp⟩ := inv.lead_at place
  have seq : s.current = s.base + (s.reads 0).length + 1 := by
    unfold State.current
    omega
  have slots := m.outputSlots_pos
  exact {
    columns := inv.columns
    req := inv.req
    seqs := inv.seqs
    phase := by
      cases inv.phase with
      | fresh none _ _ => omega
      | early _ waits _ _ => exact absurd (place.symm.trans waits) nofun
      | work _ waits _ _ _ => exact absurd (place.symm.trans waits) nofun
      | answered some eq waits => exact .answered some eq waits
    lead := (congrArg List.length State.readSlot_reads).trans (List.length_append.trans count)
    follow := fun r pos => (inv.follow r pos).congr (Function.update_of_ne (by omega) _ _) rfl rfl
      (Or.inl (Nat.le_refl _))
    cells := inv.cells
    mine := inv.mine
    room := inv.room
    outputs := inv.outputs
    reads := by
      rw [seq]
      exact inv.reads_slot (by omega) (by omega)
    answered := inv.answered }

lemma Inv.lead_step (inv : Inv m s) (st : LeadStep m s t) : Inv m t := by
  cases st with
  | submitDecode place => exact inv.submitDecode place
  | acked place world inside acked => exact inv.acked place acked
  | notAcked place world inside behind =>
    obtain ⟨count, eq, _⟩ := inv.lead_at place
    exact inv.quiet (by simp [place]) ⟨count, eq, fun r pos lt => by omega⟩
  | outside place world outside =>
    exact absurd outside (Nat.not_le_of_lt (ackCell_lt (world.trans_le inv.columns)))
  | allAcked place all => exact inv.allAcked place all
  | loadReq place =>
    obtain ⟨count, room⟩ := inv.lead_at place
    exact inv.quiet (by simp [place]) ⟨count, room, inv.req⟩
  | loadResp place =>
    obtain ⟨count, room, eq⟩ := inv.lead_at place
    have none : ∀ seq, s.lead ≠ .waitResponse seq := by simp [place]
    exact inv.quiet none ⟨count, room, eq, inv.putBack none⟩
  | copy place =>
    obtain ⟨count, room, eq, back⟩ := inv.lead_at place
    exact inv.quiet (by simp [place]) ⟨count, room, eq, back, rfl⟩
  | storeResp place => exact inv.storeResp place
  | storeLayer place =>
    obtain ⟨count, room, eq, input⟩ := inv.lead_at place
    exact inv.quiet (by simp [place]) ⟨count, room, eq, input, rfl⟩
  | storeReq place => exact inv.storeReq place
  | response place le => exact inv.response place le
  | read place => exact inv.read place

/-! ### The other ranks -/

lemma LeadInv.mono {l : Lead X} {ranks : Nat → Rank} {reads : Nat → List O} {acks : Nat → Nat}
    (known : LeadInv m s l) (same : reads 0 = s.reads 0)
    (acked : ∀ r, 0 < r → (s.ranks r).acked ≤ (ranks r).acked) :
    LeadInv m { s with ranks := ranks, reads := reads, acks := acks } l := by
  have room : Room m s → Room m { s with ranks := ranks, reads := reads, acks := acks } :=
    fun room r pos lt => (room r pos lt).trans (Nat.add_le_add_right (acked r pos) _)
  have count := congrArg List.length same
  cases l with
  | waitSlotAcks layerId x seq rank =>
    obtain ⟨all, eq, before⟩ := known
    exact ⟨count.trans all, eq, fun r pos lt world =>
      (before r pos lt world).trans (Nat.add_le_add_left (acked r pos) _)⟩
  | idle => exact count.trans known
  | submitDecode => exact count.trans known
  | submit => exact ⟨count.trans known.1, room known.2⟩
  | waitResponse => exact ⟨(congrArg (· + 1) count).trans known.1, known.2⟩
  | read => exact ⟨(congrArg (· + 1) count).trans known.1, known.2⟩
  | failed => exact known
  | _ => exact ⟨count.trans known.1, room known.2.1, known.2.2⟩

lemma acked_update {r : Nat} {k : Rank} (more : (s.ranks r).acked ≤ k.acked) (r' : Nat) :
    (s.ranks r').acked ≤ (Function.update s.ranks r k r').acked := by
  by_cases same : r' = r
  · subst same
    simpa using more
  · simp [same]

lemma Inv.moves {r : Nat} (inv : Inv m s) (pos : 0 < r) {k : Rank} {reads : Nat → List O}
    {acks : Nat → Nat} (more : (s.ranks r).acked ≤ k.acked)
    (known : FollowInv { s with reads := reads } r k k.pc)
    (others : ∀ r', r' ≠ r → reads r' = s.reads r')
    (right : ∀ r (k : Nat) v, (reads r)[k]? = some v →
      ∃ item : Submit X, s.submits[k]? = some item ∧ v = m.forward item.layerId item.input)
    (cells : ∀ i, acks i ≤ s.req)
    (mine : ∀ r', 0 < r' → r' < s.client.worldSize → ∀ slot,
      acks (slot * m.maxAckRanks + r') ≤ s.base + (Function.update s.ranks r k r').acked) :
    Inv m { s.setRank r k with reads := reads, acks := acks } := by
  have acked := acked_update more
  exact {
    columns := inv.columns
    req := inv.req
    seqs := inv.seqs
    phase := by
      cases inv.phase with
      | fresh none le left => exact .fresh none le left
      | early one waits le left => exact .early one waits le left
      | work some waits lt last work => exact .work some waits lt last work
      | answered some eq waits => exact .answered some eq waits
    lead := inv.lead.mono (others 0 (Nat.ne_of_lt pos)) fun r' _ => acked r'
    follow := by
      intro r' pos'
      by_cases same : r' = r
      · subst same
        simp only [State.setRank, Function.update_self]
        exact known.congr rfl rfl rfl (Or.inl (Nat.le_refl _))
      · simp only [State.setRank, Function.update_of_ne same]
        exact (inv.follow r' pos').congr (others r' same) rfl rfl (Or.inl (Nat.le_refl _))
    cells := cells
    mine := mine
    room := fun r' pos' lt =>
      (inv.room r' pos' lt).trans (Nat.add_le_add_right (acked r') _)
    outputs := inv.outputs
    reads := right
    answered := inv.answered }

lemma Inv.setRank {r : Nat} (inv : Inv m s) (pos : 0 < r) {k : Rank}
    (more : (s.ranks r).acked ≤ k.acked) (known : FollowInv s r k k.pc) :
    Inv m (s.setRank r k) := by
  refine inv.moves pos more known (fun _ _ => rfl) inv.reads inv.cells fun r' pos' lt slot => ?_
  exact (inv.mine r' pos' lt slot).trans (Nat.add_le_add_left (acked_update more r') _)

lemma Inv.follow_at {r : Nat} {pc : Follow} (inv : Inv m s) (pos : 0 < r)
    (place : (s.ranks r).pc = pc) : FollowInv s r (s.ranks r) pc :=
  place ▸ inv.follow r pos

lemma Inv.predict {r : Nat} (inv : Inv m s) (pos : 0 < r) (place : (s.ranks r).pc = .idle)
    (predicts : s.client.predictSeq = true) (decode : s.client.sync (s.ranks r).acked = false) :
    Inv m (s.setRank r { s.ranks r with
      pc := .waitResponse ((s.ranks r).predicted + 1)
      predicted := (s.ranks r).predicted + 1 }) := by
  obtain ⟨count, predicted⟩ := inv.follow_at pos place
  refine inv.setRank pos (Nat.le_refl _) ⟨count, ?_, fun _ => rfl⟩
  rcases predicted predicts with eq | ⟨first, sync⟩
  · exact congrArg (· + 1) eq
  · rw [first, sync] at decode
    exact absurd decode nofun

lemma Inv.followRead {r seq : Nat} (inv : Inv m s) (pos : 0 < r) (lt : r < s.client.worldSize)
    (place : (s.ranks r).pc = .read seq) :
    Inv m ((s.readSlot r (seq % m.outputSlots)).setRank r { s.ranks r with pc := .ack seq }) := by
  obtain ⟨count, rfl, predicted, le⟩ := inv.follow_at pos place
  let k : Rank := { s.ranks r with pc := .ack (s.base + (s.ranks r).acked + 1) }
  have more : (s.ranks r).acked ≤ k.acked := Nat.le_refl _
  have grown : ((s.readSlot r ((s.base + (s.ranks r).acked + 1) % m.outputSlots)).reads r).length =
      (s.ranks r).acked + 1 := by
    rw [State.readSlot_reads, List.length_append, count]
    rfl
  refine inv.moves (k := k) pos more ⟨grown, rfl, predicted, le⟩
    (fun r' other => Function.update_of_ne other _ _) ?_ inv.cells fun r' pos' lt' slot => ?_
  · rw [← count] at le ⊢
    exact inv.reads_slot le (count ▸ inv.room r pos lt)
  · exact (inv.mine r' pos' lt' slot).trans (Nat.add_le_add_left (acked_update more r') _)

lemma Inv.ack {r seq : Nat} (inv : Inv m s) (pos : 0 < r) (lt : r < s.client.worldSize)
    (place : (s.ranks r).pc = .ack seq) :
    Inv m { s.setRank r { s.ranks r with pc := .idle, acked := (s.ranks r).acked + 1 } with
      acks := Function.update s.acks (m.ackCell r seq) seq } := by
  obtain ⟨count, rfl, predicted, le⟩ := inv.follow_at pos place
  have more : (s.ranks r).acked ≤ (s.ranks r).acked + 1 := Nat.le_succ _
  refine inv.moves (k := { s.ranks r with pc := .idle, acked := (s.ranks r).acked + 1 }) pos more
    ⟨count, fun predicts => Or.inl (predicted predicts)⟩ (fun _ _ => rfl) inv.reads ?_ ?_
  · refine (Function.forall_update_iff s.acks fun _ ack => ack ≤ s.req).mpr ⟨?_, ?_⟩
    · exact le.trans (inv.phase.resp_le.trans_eq inv.req.symm)
    · exact fun i _ => inv.cells i
  · intro r' pos' lt' slot
    by_cases cell : slot * m.maxAckRanks + r' = m.ackCell r (s.base + (s.ranks r).acked + 1)
    · -- the columns of two ranks do not meet
      have same : r' = r := by
        have mod := congrArg (· % m.maxAckRanks) cell
        simp only [CPUMoEServer.ackCell, Nat.mul_add_mod_self_right] at mod
        rwa [Nat.mod_eq_of_lt (lt'.trans_le inv.columns),
          Nat.mod_eq_of_lt (lt.trans_le inv.columns)] at mod
      subst same
      rw [cell, Function.update_self, Function.update_self]
      exact Nat.le_refl _
    · rw [Function.update_of_ne cell]
      exact (inv.mine r' pos' lt' slot).trans (Nat.add_le_add_left (acked_update more r') _)

lemma Inv.follow_step {r : Nat} (inv : Inv m s) (pos : 0 < r) (lt : r < s.client.worldSize)
    (st : FollowStep m r s t) : Inv m t := by
  cases st with
  | predict here place predicts decode =>
    subst here
    exact inv.predict pos place predicts decode
  | @broadcast k item here place mode found =>
    subst here
    obtain ⟨count, _⟩ := inv.follow_at pos place
    refine inv.setRank pos (Nat.le_refl _) ⟨count, inv.seqs _ item found, fun predicts => ?_⟩
    exact if_pos predicts
  | response here place le =>
    subst here
    obtain ⟨count, eq, predicted⟩ := inv.follow_at pos place
    exact inv.setRank pos (Nat.le_refl _) ⟨count, eq, predicted, le⟩
  | read here place =>
    subst here
    exact inv.followRead pos lt place
  | ack here place inside =>
    subst here
    exact inv.ack pos lt place
  | outside here place outside =>
    exact absurd outside (Nat.not_le_of_lt (ackCell_lt (lt.trans_le inv.columns)))

/-! ### The server -/

lemma LeadInv.serves {l : Lead X} {server : Server X} {output : Nat → O} (known : LeadInv m s l) :
    LeadInv m { s with server := server, output := output } l := by
  cases l <;> exact known

lemma Inv.serves {server : Server X} {output : Nat → O} (inv : Inv m s)
    (phase : Phase m { s with server := server, output := output })
    (outputs : ∀ (k : Nat) item, s.submits[k]? = some item → item.seq ≤ s.resp →
      s.submits.length ≤ k + m.outputSlots →
      output (item.seq % m.outputSlots) = s.output (item.seq % m.outputSlots)) :
    Inv m { s with server := server, output := output } where
  columns := inv.columns
  req := inv.req
  seqs := inv.seqs
  phase := phase
  lead := inv.lead.serves
  follow := fun r pos => (inv.follow r pos).congr rfl rfl rfl (Or.inl (Nat.le_refl _))
  cells := inv.cells
  mine := inv.mine
  room := inv.room
  outputs := fun k item found le near =>
    (outputs k item found le near).trans (inv.outputs k item found le near)
  reads := inv.reads
  answered := inv.answered

lemma Phase.serves {server : Server X} {output : Nat → O} (phase : Phase m s)
    (busy : s.server ≠ .waitRequest s.current)
    (left : Leftover m s.base s.server → Leftover m s.base server)
    (work : s.lead = .waitResponse s.current → Work m s s.server →
      Work m { s with server := server, output := output } server) :
    Phase m { s with server := server, output := output } := by
  cases phase with
  | fresh none le leftover => exact .fresh none le (left leftover)
  | early one waits le leftover => exact .early one waits le (left leftover)
  | work some waits lt last works => exact .work some waits lt last (work waits works)
  | answered _ _ waits => exact absurd waits busy

lemma Phase.works (phase : Phase m s) (busy : s.server ≠ .waitRequest s.current)
    (new : ¬ Leftover m s.base s.server) : Work m s s.server := by
  cases phase with
  | fresh _ _ leftover => exact absurd leftover new
  | early _ _ _ leftover => exact absurd leftover new
  | work _ _ _ _ works => exact works
  | answered _ _ waits => exact absurd waits busy

lemma Phase.in_hand (phase : Phase m s) (seq : Nat) (busy : s.server ≠ .waitRequest s.current)
    (left : Leftover m s.base s.server → seq ≤ s.base)
    (work : Work m s s.server → seq = s.current) :
    (seq ≤ s.base ∧ s.resp ≤ s.base) ∨
      (seq = s.current ∧ s.resp < s.current ∧ s.lead = .waitResponse s.current) := by
  cases phase with
  | fresh _ le leftover => exact Or.inl ⟨left leftover, le⟩
  | early _ _ le leftover => exact Or.inl ⟨left leftover, le⟩
  | work _ waits lt _ works => exact Or.inr ⟨work works, lt, waits⟩
  | answered _ _ waits => exact absurd waits busy

lemma Inv.writeSlot {seq : Nat} {v : O} (inv : Inv m s)
    (hand : (seq ≤ s.base ∧ s.resp ≤ s.base) ∨
      (seq = s.current ∧ s.resp < s.current ∧ s.lead = .waitResponse s.current))
    (k : Nat) (item : Submit X) (found : s.submits[k]? = some item) (le : item.seq ≤ s.resp)
    (near : s.submits.length ≤ k + m.outputSlots) :
    (s.writeSlot (seq % m.outputSlots) v).output (item.seq % m.outputSlots) =
      s.output (item.seq % m.outputSlots) := by
  have eq := inv.seqs k item found
  rcases hand with ⟨_, low⟩ | ⟨rfl, lt, _⟩
  · omega
  · refine Function.update_of_ne ?_ _ _
    refine Ring.slot_ne (le.trans_lt lt) ?_
    unfold State.current
    omega

lemma Inv.request {lastSeq : Nat} (inv : Inv m s) (place : s.server = .waitRequest lastSeq)
    (new : lastSeq < s.req) : Inv m { s with server := .request s.req } := by
  refine inv.serves ?_ fun _ _ _ _ _ => rfl
  have req := inv.req
  cases inv.phase with
  | fresh none le leftover =>
    have base : s.req = s.base := by
      rw [req, State.current, none]
      rfl
    rw [place] at leftover
    rcases leftover with eq | ⟨native, _⟩
    · omega
    · exact .fresh none le ⟨native, base.le⟩
  | early one waits le leftover =>
    refine .work (one ▸ Nat.one_pos) waits ?_ (Or.inl one) req
    show s.resp < s.base + s.submits.length
    omega
  | work some waits lt last _ => exact .work some waits lt last req
  | answered some eq waits =>
    have same := Server.waitRequest.inj (place.symm.trans waits)
    omega

lemma Inv.computed {seq : Nat} {layerId : Int} {x : X} {copies : Nat} {v : O} (inv : Inv m s)
    (place : s.server = .computing seq layerId x copies)
    (computed : s.copies = copies → v = m.forward layerId x) :
    Inv m { s.writeSlot (seq % m.outputSlots) v with server := .computed seq } := by
  have busy : s.server ≠ .waitRequest s.current := by simp [place]
  have hand := inv.phase.in_hand seq busy (fun left => (place ▸ left).2)
    fun work => (place ▸ work).1
  refine inv.serves (inv.phase.serves busy ?_ ?_) (inv.writeSlot hand)
  · rw [place]
    exact id
  · intro waits work
    rw [place] at work
    obtain ⟨rfl, rfl, rfl, rfl⟩ := work
    obtain ⟨_, _, item, found, layer, input⟩ := inv.lead_at waits
    refine ⟨rfl, item, found, ?_⟩
    rw [← layer, ← input, ← computed rfl]
    exact Function.update_self ..

lemma Inv.responds {seq : Nat} (inv : Inv m s) (reading : ∀ seq, s.lead ≠ .read seq)
    (phase : Phase m (s.respond seq))
    (resp : s.resp ≤ seq ∨ (s.resp ≤ s.base ∧ seq ≤ s.base))
    (outputs : ∀ (k : Nat) item, s.submits[k]? = some item → s.resp < item.seq → item.seq ≤ seq →
      s.output (item.seq % m.outputSlots) = m.forward item.layerId item.input) :
    Inv m (s.respond seq) where
  columns := inv.columns
  req := inv.req
  seqs := inv.seqs
  phase := phase
  lead := by
    show LeadInv m (s.respond seq) s.lead
    have known := inv.lead
    cases place : s.lead with
    | read seq => exact absurd place (reading seq)
    | _ =>
      rw [place] at known
      exact known
  follow := fun r pos => (inv.follow r pos).congr rfl rfl rfl (resp.imp_right And.left)
  cells := inv.cells
  mine := inv.mine
  room := inv.room
  outputs := by
    intro k item found le near
    by_cases before : item.seq ≤ s.resp
    · exact inv.outputs k item found before near
    · exact outputs k item found (Nat.lt_of_not_le before) le
  reads := inv.reads
  answered := by
    intro q member
    show q ≤ s.base ∨ q ≤ seq
    rcases List.mem_cons.mp member with rfl | old
    · exact Or.inr (Nat.le_refl _)
    · have := inv.answered q old
      omega

lemma Inv.respond {seq : Nat} (inv : Inv m s) (busy : s.server ≠ .waitRequest s.current)
    (left : Leftover m s.base s.server → Leftover m s.base (.waitRequest seq : Server X))
    (work : Work m s s.server → seq = s.current ∧ s.Computed m) : Inv m (s.respond seq) := by
  have idle : ∀ seq, s.lead ≠ .read seq := by
    intro seq place
    obtain ⟨count, _⟩ := inv.lead_at place
    cases inv.phase with
    | fresh none _ _ => omega
    | early _ waits _ _ => exact absurd (place.symm.trans waits) nofun
    | work _ waits _ _ _ => exact absurd (place.symm.trans waits) nofun
    | answered _ _ waits => exact absurd waits busy
  have old : ∀ {seq}, Leftover m s.base (.waitRequest seq : Server X) → seq ≤ s.base :=
    fun left => left.elim (fun eq => eq.le) fun less => less.2.le
  have none_of_old : ∀ {seq}, seq ≤ s.base → ∀ (k : Nat) item, s.submits[k]? = some item →
      s.resp < item.seq → item.seq ≤ seq →
      s.output (item.seq % m.outputSlots) = m.forward item.layerId item.input := by
    intro seq low k item found _ le
    have := inv.seqs k item found
    omega
  cases inv.phase with
  | fresh none le leftover =>
    have low := old (left leftover)
    exact inv.responds idle (.fresh none low (left leftover)) (Or.inr ⟨le, low⟩) (none_of_old low)
  | early one waits le leftover =>
    have low := old (left leftover)
    exact inv.responds idle (.early one waits low (left leftover)) (Or.inr ⟨le, low⟩)
      (none_of_old low)
  | work some waits lt last works =>
    obtain ⟨rfl, item, there, computed⟩ := work works
    refine inv.responds idle (.answered some rfl rfl) (Or.inl lt.le) ?_
    intro k item' found new le
    have eq := inv.seqs k item' found
    have final : k = s.submits.length - 1 := by
      unfold State.current at lt last le
      omega
    obtain rfl : item' = item := Option.some_inj.mp (found.symm.trans (final ▸ there))
    have seq : item'.seq = s.current := by
      unfold State.current
      omega
    rwa [seq]
  | answered _ _ waits => exact absurd waits busy

lemma Inv.serve_step (inv : Inv m s) (st : ServeStep m s t) : Inv m t := by
  cases st with
  | request place new => exact inv.request place new
  | layer place =>
    refine inv.serves (inv.phase.serves (by simp [place]) ?_ ?_) fun _ _ _ _ _ => rfl
    · rw [place]
      exact id
    · rw [place]
      exact fun _ work => ⟨work, rfl⟩
  | @compute seq layerId v place =>
    have busy : s.server ≠ .waitRequest s.current := by simp [place]
    have hand := inv.phase.in_hand seq busy (fun left => (place ▸ left).2)
      fun work => (place ▸ work).1
    refine inv.serves (inv.phase.serves busy ?_ ?_) (inv.writeSlot hand)
    · rw [place]
      exact id
    · rw [place]
      exact fun _ work => ⟨work.1, work.2, rfl, rfl⟩
  | computed v place computed => exact inv.computed place computed
  | respondNative place native =>
    refine inv.respond (by simp [place]) ?_ ?_
    · rw [place]
      exact fun left => (Nat.eq_or_lt_of_le left.2).imp_right fun lt => ⟨left.1, lt⟩
    · rw [place]
      exact id
  | loadReq place python =>
    refine inv.serves (inv.phase.serves (by simp [place]) ?_ ?_) fun _ _ _ _ _ => rfl
    · rw [place]
      exact fun left => absurd (python.symm.trans left.1) Bool.false_ne_true
    · rw [place]
      exact fun _ work => ⟨python, work.1, work.2, inv.req⟩
  | loadLayer place =>
    refine inv.serves (inv.phase.serves (by simp [place]) ?_ ?_) fun _ _ _ _ _ => rfl
    · rw [place]
      exact id
    · rw [place]
      exact fun _ work => ⟨work.1, work.2.1, work.2.2.1, work.2.2.2, rfl⟩
  | storeReq place =>
    have busy : s.server ≠ .waitRequest s.current := by simp [place]
    obtain ⟨_, _, _, eq, _⟩ := place ▸ inv.phase.works busy (place ▸ id)
    obtain rfl := eq.trans inv.req.symm
    refine inv.serves (inv.phase.serves busy ?_ ?_) fun _ _ _ _ _ => rfl
    · rw [place]
      exact id
    · rw [place]
      exact fun _ work => ⟨work.1, work.2.1, work.2.2.1, work.2.2.2.2⟩
  | storeLayer place =>
    have busy : s.server ≠ .waitRequest s.current := by simp [place]
    obtain ⟨_, _, _, rfl⟩ := place ▸ inv.phase.works busy (place ▸ id)
    refine inv.serves (inv.phase.serves busy ?_ ?_) fun _ _ _ _ _ => rfl
    · rw [place]
      exact False.elim
    · rw [place]
      exact fun _ work => ⟨work.1, work.2.1, work.2.2.1⟩
  | respond place =>
    refine inv.respond (by simp [place]) ?_ ?_
    · rw [place]
      exact fun left => Or.inl left.2
    · rw [place]
      exact And.right

lemma Inv.step (inv : Inv m s) {e : Event X} (fits : Fits m s e) (st : Step m s e t) :
    Inv m t := by
  cases st with
  | launch many => exact inv.launch fits
  | offload layerId x place some => exact inv.quiet (by simp [place]) (inv.lead_at place)
  | lead st => exact inv.lead_step st
  | follow pos lt st => exact inv.follow_step pos lt st
  | serve st => exact inv.serve_step st

lemma Inv.kept {seq : Nat} {layerId : Int} {x : X} {copies : Nat} (inv : Inv m s)
    (place : s.server = .computing seq layerId x copies) {k : Nat} {item : Submit X}
    (found : s.submits[k]? = some item) (responded : item.seq ∈ s.answered)
    (slot : item.seq % m.outputSlots = seq % m.outputSlots) {r : Nat}
    (lt : r < s.client.worldSize) : k < s.done r := by
  have eq := inv.seqs k item found
  have seen : item.seq ≤ s.resp := by
    have := inv.answered _ responded
    omega
  rcases inv.phase.in_hand seq (by simp [place]) (fun left => (place ▸ left).2)
    fun work => (place ▸ work).1 with ⟨_, low⟩ | ⟨rfl, new, waits⟩
  · omega
  · have far : item.seq + m.outputSlots ≤ s.current := by
      by_contra near
      exact Ring.slot_ne (seen.trans_lt new) (Nat.lt_of_not_le near) slot
    unfold State.current at far
    unfold State.done
    split_ifs with zero
    · obtain ⟨count, _⟩ := inv.lead_at waits
      have slots := m.outputSlots_pos
      omega
    · have room := inv.room r (Nat.pos_of_ne_zero zero) lt
      omega

lemma Inv.right (inv : Inv m s) : Right m s where
  reads := inv.reads
  kept := fun _ _ _ _ place _ _ found responded slot _ lt =>
    inv.kept place found responded slot lt
  lead := fun failed => inv.lead_at failed
  follow := fun _ pos failed => inv.follow_at pos failed

/-- In every run in which each launch fits, every rank's k-th read is the server's output for rank
0's k-th submit, and no slot is written again before all ranks have read and acknowledged it. -/
theorem right_of_fits {x : X} {v : O} {trace : List (State X O × Event X)} {last : State X O}
    (run : Run (Step m) (State.init x v) trace last) (fits : Meets (Fits m) trace) :
    Throughout (Right m) trace last :=
  (run.invariant (Inv.init x v) (fun inv fits st => inv.step fits st) fits).imp Inv.right

end Steps

/-! ## Predicted numbers after a restart -/

/-- A server whose output tells the layer and the input. -/
def echo : CPUMoEServer Int (Int × Int) where
  outputSlots := 64
  outputSlots_pos := Nat.succ_pos 63
  maxAckRanks := 8
  nativeLoop := true
  forward := fun layerId x => (layerId, x)

/-- Two ranks that predict. -/
def twoRanks : Client := ⟨2, true, fun _ => false⟩

lemma offloaded : ∃ trace, ∃ last : State Int (Int × Int),
    Run (Step echo) (State.init 0 (0, 0)) trace last ∧ Meets (Fits echo) trace ∧
      last.req = 1 ∧ last.resp = 1 ∧ last.output 1 = (1, 5) := by
  have run : Run (Step echo) (State.init 0 (0, 0) : State Int (Int × Int)) _ _ :=
    .cons (.launch (c := twoRanks) (by decide)) <|
    .cons (.offload 1 5 rfl (by decide)) <|
    .cons (.lead (.submitDecode rfl)) <|
    .cons (.lead (.loadReq rfl)) <|
    .cons (.lead (.loadResp rfl)) <|
    .cons (.lead (.copy rfl)) <|
    .cons (.lead (.storeResp rfl)) <|
    .cons (.lead (.storeLayer rfl)) <|
    .cons (.lead (.storeReq rfl)) <|
    .cons (.serve (.request rfl (by decide))) <|
    .cons (.serve (.layer rfl)) <|
    .cons (.serve (.compute (0, 0) rfl)) <|
    .cons (.serve (.computed (1, 5) rfl fun _ => rfl)) <|
    .cons (.serve (.respondNative rfl rfl)) <|
    .cons (.lead (.response rfl (by decide))) <|
    .cons (.lead (.read rfl)) <|
    .cons (.follow (r := 1) (by decide) (by decide) (.predict rfl rfl rfl rfl)) <|
    .cons (.follow (r := 1) (by decide) (by decide) (.response rfl rfl (by decide))) <|
    .cons (.follow (r := 1) (by decide) (by decide) (.read rfl rfl)) <|
    .cons (.follow (r := 1) (by decide) (by decide) (.ack rfl rfl (by decide))) <|
    .nil _
  refine ⟨_, _, run, ?_, rfl, rfl, rfl⟩
  simp [Meets, Fits, Settled, State.init, twoRanks, echo]

/-- The ranks are launched again; rank 1 predicts 1, which has long been responded to, and reads the
output for what rank 0 submitted before. Then rank 0 submits 7 for layer 2. -/
lemma stale_read : ∃ trace, ∃ last : State Int (Int × Int),
    Run (Step echo) (State.init 0 (0, 0)) trace last ∧ last.reads 1 = [(1, 5)] ∧
      last.submits = [⟨2, 2, 7⟩] := by
  obtain ⟨trace, s, before, _, hreq, hresp, houtput⟩ := offloaded
  obtain ⟨req, resp, _, _, _, output, _⟩ := s
  obtain rfl : req = 1 := hreq
  obtain rfl : resp = 1 := hresp
  refine ⟨_, _, before.append <|
    .cons (.launch (c := twoRanks) Nat.one_lt_two) <|
    .cons (.follow (r := 1) Nat.one_pos Nat.one_lt_two (.predict rfl rfl rfl rfl)) <|
    .cons (.follow (r := 1) Nat.one_pos Nat.one_lt_two (.response rfl rfl (Nat.le_refl 1))) <|
    .cons (.follow (r := 1) Nat.one_pos Nat.one_lt_two (.read rfl rfl)) <|
    .cons (.offload 2 7 rfl Nat.two_pos) <|
    .cons (.lead (.submitDecode rfl)) <|
    .cons (.lead (.loadReq rfl)) <|
    .cons (.lead (.loadResp rfl)) <|
    .cons (.lead (.copy rfl)) <|
    .cons (.lead (.storeResp rfl)) <|
    .cons (.lead (.storeLayer rfl)) <|
    .cons (.lead (.storeReq rfl)) <|
    .nil _, ?_, rfl⟩
  exact congrArg (fun v => [v]) houtput

theorem right_of_fits_offloaded : ∃ trace, ∃ last : State Int (Int × Int),
    Run (Step echo) (State.init 0 (0, 0)) trace last ∧ Throughout (Right echo) trace last := by
  obtain ⟨trace, last, run, fits, _⟩ := offloaded
  exact ⟨trace, last, run, right_of_fits run fits⟩

/-- Rank 1 has used what the server has computed for layer 1 as its output of layer 2. -/
theorem not_right_restarted : ¬ ∀ trace, ∀ last : State Int (Int × Int),
    Run (Step echo) (State.init 0 (0, 0)) trace last → Throughout (Right echo) trace last := by
  intro claim
  obtain ⟨trace, last, run, reads, submits⟩ := stale_read
  obtain ⟨item, found, eq⟩ := (claim trace last run).2.reads 1 0 (1, 5) (by rw [reads]; rfl)
  rw [submits] at found
  obtain rfl := Option.some_inj.mp found
  exact absurd eq (by decide)

end PocketMoE.Runtime.Offload
