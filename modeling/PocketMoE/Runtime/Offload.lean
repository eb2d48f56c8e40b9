import Mathlib.Data.List.Basic
import Mathlib.Logic.Function.Basic
import Mathlib.Tactic.Lemma
import PocketMoE.Lib.Ring
import PocketMoE.Lib.Trans

/-!
# Offloading routed experts to the CPU-MoE server

Rank 0 submits a layer's input to the server (`CPUMoESharedMemory.submit`), which puts its output
into the slot of the sequence number and responds; every rank reads it there, and the ranks other
than 0 acknowledge it (`MoE._external_cpu_server_submit_decode`, `_wait_decode` and `_sync`, the
loop of `moe_server.py` and `cpu_moe_server_loop_int8`). Before rank 0 submits into a slot again it
waits for the acknowledgements of what stands there.

A step is one load or store of the shared memory. The server outlives its clients: a launch kills
all ranks wherever they are and starts others. Nobody stops the server in these runs.
-/

namespace PocketMoE.Runtime.Offload
open PocketMoE.Lib

/-- The server: its output slots, the columns of the table of acknowledgements (`_MAX_ACK_RANKS`),
whether it runs the native loop, and what it computes for a layer. -/
structure CPUMoEServer (X O : Type*) where
  outputSlots : Nat
  outputSlots_pos : 0 < outputSlots
  maxAckRanks : Nat
  nativeLoop : Bool
  forward : Int → X → O

/-- The ranks that use the server: their number, whether they predict sequence numbers, and which of
their offloads is a row of `_external_cpu_server_sync`. -/
structure Client where
  worldSize : Nat
  predictSeq : Bool
  sync : Nat → Bool

/-- What rank 0 has submitted. -/
structure Submit (X : Type*) where
  seq : Nat
  layerId : Int
  input : X

/-- Where rank 0 is in an offload. -/
inductive Lead (X : Type*) where
  | idle
  | submitDecode (layerId : Int) (x : X)
  | waitSlotAcks (layerId : Int) (x : X) (seqToReuse rank : Nat)
  | submit (layerId : Int) (x : X)
  | submitReq (layerId : Int) (x : X) (req : Nat)
  | submitResp (layerId : Int) (x : X) (req resp : Nat)
  | copied (layerId : Int) (x : X) (req resp : Nat)
  | storedResp (layerId : Int) (x : X) (req : Nat)
  | storedLayer (layerId : Int) (x : X) (req : Nat)
  | waitResponse (seq : Nat)
  | read (seq : Nat)
  | failed

/-- Where another rank is in an offload. -/
inductive Follow where
  | idle
  | waitResponse (seq : Nat)
  | read (seq : Nat)
  | ack (seq : Nat)
  | failed

/-- Another rank: its predicted sequence number and how many offloads it has behind it. -/
structure Rank where
  pc : Follow
  predicted : Nat
  acked : Nat

/-- Where the server is in its loop. Only the loop in Python loads the header when it responds. -/
inductive Server (X : Type*) where
  | waitRequest (lastSeq : Nat)
  | request (seq : Nat)
  | layer (seq : Nat) (layerId : Int)
  | computing (seq : Nat) (layerId : Int) (x : X) (copies : Nat)
  | computed (seq : Nat)
  | respondReq (seq req : Nat)
  | respondLayer (seq req : Nat) (layerId : Int)
  | storedReq (seq : Nat) (layerId : Int)
  | storedLayer (seq : Nat)

/-- The shared memory, the server and the ranks. `copies` counts the inputs copied so far, `base` is
the request number that the ranks were launched at, and `reads`, `submits` and `answered` list what
each rank has read, what rank 0 has submitted and what the server has responded to since then. -/
structure State (X O : Type*) where
  req : Nat
  resp : Nat
  layerId : Int
  input : X
  copies : Nat
  output : Nat → O
  acks : Nat → Nat
  server : Server X
  client : Client
  lead : Lead X
  ranks : Nat → Rank
  reads : Nat → List O
  base : Nat
  submits : List (Submit X)
  answered : List Nat

/-- What happens next: ranks are launched, rank 0 begins an offload, or rank 0, another rank or the
server goes on. -/
inductive Event (X : Type*) where
  | launch (c : Client)
  | offload (layerId : Int) (x : X)
  | lead
  | follow (r : Nat)
  | serve

variable {X O : Type*}

/-- The memory as the server has created it; no ranks have been launched. -/
def State.init (x : X) (v : O) : State X O where
  req := 0
  resp := 0
  layerId := -1
  input := x
  copies := 0
  output := fun _ => v
  acks := fun _ => 0
  server := .waitRequest 0
  client := ⟨0, false, fun _ => false⟩
  lead := .idle
  ranks := fun _ => ⟨.idle, 0, 0⟩
  reads := fun _ => []
  base := 0
  submits := []
  answered := []

/-- New processes take the place of all ranks; the memory and the server stay. -/
def State.launch (s : State X O) (c : Client) : State X O :=
  { s with
    client := c
    lead := .idle
    ranks := fun _ => ⟨.idle, 0, 0⟩
    reads := fun _ => []
    base := s.req
    submits := []
    answered := [] }

namespace CPUMoEServer

variable (m : CPUMoEServer X O)

/-- The place in the table that a rank acknowledges a sequence number at. -/
def ackCell (rank seq : Nat) : Nat := seq % m.outputSlots * m.maxAckRanks + rank

/-- The size of the table. -/
def ackSize : Nat := m.outputSlots * m.maxAckRanks

/-- Rank 0 waits for the acknowledgements of what its next slot holds, if anything. -/
def reuse (s : State X O) (layerId : Int) (x : X) : Lead X :=
  let seqToReuse := s.req + 1 - m.outputSlots
  if 0 < seqToReuse then .waitSlotAcks layerId x seqToReuse 1 else .submit layerId x

end CPUMoEServer

namespace State

/-- Rank `r` goes on. -/
def setRank (s : State X O) (r : Nat) (k : Rank) : State X O :=
  { s with ranks := Function.update s.ranks r k }

/-- Rank 0 stores the number of a submit. -/
def submit (s : State X O) (req : Nat) (layerId : Int) (x : X) : State X O :=
  { s with req := req + 1, submits := s.submits ++ [⟨req + 1, layerId, x⟩] }

/-- Rank `r` reads the output in a slot. -/
def readSlot (s : State X O) (r slot : Nat) : State X O :=
  { s with reads := Function.update s.reads r (s.reads r ++ [s.output slot]) }

/-- The server writes to a slot. -/
def writeSlot (s : State X O) (slot : Nat) (v : O) : State X O :=
  { s with output := Function.update s.output slot v }

/-- The server responds and waits again. -/
def respond (s : State X O) (seq : Nat) : State X O :=
  { s with resp := seq, server := .waitRequest seq, answered := seq :: s.answered }

end State

section Steps

variable (m : CPUMoEServer X O)

/-- A step of rank 0. A load that finds nothing new is not a step. -/
inductive LeadStep : State X O → State X O → Prop where
  | submitDecode {s : State X O} {layerId : Int} {x : X} :
    s.lead = .submitDecode layerId x →
    LeadStep s { s with lead := m.reuse s layerId x }
  | acked {s : State X O} {layerId : Int} {x : X} {seq rank : Nat} :
    s.lead = .waitSlotAcks layerId x seq rank → rank < s.client.worldSize →
    m.ackCell rank seq < m.ackSize → seq ≤ s.acks (m.ackCell rank seq) →
    LeadStep s { s with lead := .waitSlotAcks layerId x seq (rank + 1) }
  | notAcked {s : State X O} {layerId : Int} {x : X} {seq rank : Nat} :
    s.lead = .waitSlotAcks layerId x seq rank → rank < s.client.worldSize →
    m.ackCell rank seq < m.ackSize → s.acks (m.ackCell rank seq) < seq →
    LeadStep s { s with lead := .waitSlotAcks layerId x seq 1 }
  | outside {s : State X O} {layerId : Int} {x : X} {seq rank : Nat} :
    s.lead = .waitSlotAcks layerId x seq rank → rank < s.client.worldSize →
    m.ackSize ≤ m.ackCell rank seq →
    LeadStep s { s with lead := .failed }
  | allAcked {s : State X O} {layerId : Int} {x : X} {seq rank : Nat} :
    s.lead = .waitSlotAcks layerId x seq rank → s.client.worldSize ≤ rank →
    LeadStep s { s with lead := .submit layerId x }
  | loadReq {s : State X O} {layerId : Int} {x : X} :
    s.lead = .submit layerId x →
    LeadStep s { s with lead := .submitReq layerId x s.req }
  | loadResp {s : State X O} {layerId : Int} {x : X} {req : Nat} :
    s.lead = .submitReq layerId x req →
    LeadStep s { s with lead := .submitResp layerId x req s.resp }
  | copy {s : State X O} {layerId : Int} {x : X} {req resp : Nat} :
    s.lead = .submitResp layerId x req resp →
    LeadStep s { s with lead := .copied layerId x req resp, input := x, copies := s.copies + 1 }
  | storeResp {s : State X O} {layerId : Int} {x : X} {req resp : Nat} :
    s.lead = .copied layerId x req resp →
    LeadStep s { s with lead := .storedResp layerId x req, resp := resp }
  | storeLayer {s : State X O} {layerId : Int} {x : X} {req : Nat} :
    s.lead = .storedResp layerId x req →
    LeadStep s { s with lead := .storedLayer layerId x req, layerId := layerId }
  | storeReq {s : State X O} {layerId : Int} {x : X} {req : Nat} :
    s.lead = .storedLayer layerId x req →
    LeadStep s { s.submit req layerId x with lead := .waitResponse (req + 1) }
  | response {s : State X O} {seq : Nat} :
    s.lead = .waitResponse seq → seq ≤ s.resp →
    LeadStep s { s with lead := .read seq }
  | read {s : State X O} {seq : Nat} :
    s.lead = .read seq →
    LeadStep s { s.readSlot 0 (seq % m.outputSlots) with lead := .idle }

/-- A step of another rank. It predicts the sequence number of an offload, or gets it by a broadcast
from rank 0. -/
inductive FollowStep (r : Nat) : State X O → State X O → Prop where
  | predict {s : State X O} {k : Rank} :
    s.ranks r = k → k.pc = .idle → s.client.predictSeq = true → s.client.sync k.acked = false →
    FollowStep r s (s.setRank r
      { k with pc := .waitResponse (k.predicted + 1), predicted := k.predicted + 1 })
  | broadcast {s : State X O} {k : Rank} {item : Submit X} :
    s.ranks r = k → k.pc = .idle → (s.client.predictSeq = false ∨ s.client.sync k.acked = true) →
    s.submits[k.acked]? = some item →
    FollowStep r s (s.setRank r
      { k with
        pc := .waitResponse item.seq
        predicted := if s.client.predictSeq then item.seq else k.predicted })
  | response {s : State X O} {k : Rank} {seq : Nat} :
    s.ranks r = k → k.pc = .waitResponse seq → seq ≤ s.resp →
    FollowStep r s (s.setRank r { k with pc := .read seq })
  | read {s : State X O} {k : Rank} {seq : Nat} :
    s.ranks r = k → k.pc = .read seq →
    FollowStep r s ((s.readSlot r (seq % m.outputSlots)).setRank r { k with pc := .ack seq })
  | ack {s : State X O} {k : Rank} {seq : Nat} :
    s.ranks r = k → k.pc = .ack seq → m.ackCell r seq < m.ackSize →
    FollowStep r s { s.setRank r { k with pc := .idle, acked := k.acked + 1 } with
      acks := Function.update s.acks (m.ackCell r seq) seq }
  | outside {s : State X O} {k : Rank} {seq : Nat} :
    s.ranks r = k → k.pc = .ack seq → m.ackSize ≤ m.ackCell r seq →
    FollowStep r s (s.setRank r { k with pc := .failed })

/-- A step of the server. While it computes anything may stand in the slot, and what it ends with is
the output for its input if nobody has copied another one meanwhile. -/
inductive ServeStep : State X O → State X O → Prop where
  | request {s : State X O} {lastSeq : Nat} :
    s.server = .waitRequest lastSeq → lastSeq < s.req →
    ServeStep s { s with server := .request s.req }
  | layer {s : State X O} {seq : Nat} :
    s.server = .request seq →
    ServeStep s { s with server := .layer seq s.layerId }
  | compute {s : State X O} {seq : Nat} {layerId : Int} (v : O) :
    s.server = .layer seq layerId →
    ServeStep s { s.writeSlot (seq % m.outputSlots) v with
      server := .computing seq layerId s.input s.copies }
  | computed {s : State X O} {seq : Nat} {layerId : Int} {x : X} {copies : Nat} (v : O) :
    s.server = .computing seq layerId x copies →
    (s.copies = copies → v = m.forward layerId x) →
    ServeStep s { s.writeSlot (seq % m.outputSlots) v with server := .computed seq }
  | respondNative {s : State X O} {seq : Nat} :
    s.server = .computed seq → m.nativeLoop = true →
    ServeStep s (s.respond seq)
  | loadReq {s : State X O} {seq : Nat} :
    s.server = .computed seq → m.nativeLoop = false →
    ServeStep s { s with server := .respondReq seq s.req }
  | loadLayer {s : State X O} {seq req : Nat} :
    s.server = .respondReq seq req →
    ServeStep s { s with server := .respondLayer seq req s.layerId }
  | storeReq {s : State X O} {seq req : Nat} {layerId : Int} :
    s.server = .respondLayer seq req layerId →
    ServeStep s { s with server := .storedReq seq layerId, req := req }
  | storeLayer {s : State X O} {seq : Nat} {layerId : Int} :
    s.server = .storedReq seq layerId →
    ServeStep s { s with server := .storedLayer seq, layerId := layerId }
  | respond {s : State X O} {seq : Nat} :
    s.server = .storedLayer seq →
    ServeStep s (s.respond seq)

/-- A step of the whole. The server is used by more than one rank only. -/
inductive Step : State X O → Event X → State X O → Prop where
  | launch {s : State X O} {c : Client} : 1 < c.worldSize → Step s (.launch c) (s.launch c)
  | offload {s : State X O} (layerId : Int) (x : X) :
    s.lead = .idle → 0 < s.client.worldSize →
    Step s (.offload layerId x) { s with lead := .submitDecode layerId x }
  | lead {s t : State X O} : LeadStep m s t → Step s .lead t
  | follow {s t : State X O} {r : Nat} : 0 < r → r < s.client.worldSize → FollowStep m r s t →
    Step s (.follow r) t
  | serve {s t : State X O} : ServeStep m s t → Step s .serve t

/-- How many offloads a rank has behind it: it has read the output and acknowledged it. -/
def State.done (s : State X O) (r : Nat) : Nat :=
  if r = 0 then (s.reads 0).length else (s.ranks r).acked

/-- Every rank's k-th read is the output for rank 0's k-th submit, a slot that is written holds no
output that has been responded and some rank has not yet acknowledged, and no rank has failed. -/
structure Right (s : State X O) : Prop where
  reads : ∀ r (k : Nat) v, (s.reads r)[k]? = some v →
    ∃ item : Submit X, s.submits[k]? = some item ∧ v = m.forward item.layerId item.input
  kept : ∀ seq layerId x copies, s.server = .computing seq layerId x copies →
    ∀ (k : Nat) item, s.submits[k]? = some item → item.seq ∈ s.answered →
      item.seq % m.outputSlots = seq % m.outputSlots → ∀ r < s.client.worldSize, k < s.done r
  lead : s.lead ≠ .failed
  follow : ∀ r, 0 < r → (s.ranks r).pc ≠ .failed

/-- The server has nothing of earlier ranks left to put back: it runs the native loop, or it has
responded to the last request, or has only the response still to store. -/
def Settled (s : State X O) : Prop :=
  m.nativeLoop = true ∨ s.server = .waitRequest s.req ∨ s.server = .storedLayer s.req

/-- Ranks may be launched: each has a column, the server is settled, and predicted numbers start
where the header does, unless the first offload broadcasts its number. -/
def Fits (s : State X O) : Event X → Prop
  | .launch c => c.worldSize ≤ m.maxAckRanks ∧ Settled m s ∧
      (c.predictSeq = true → s.req = 0 ∨ c.sync 0 = true)
  | _ => True

end Steps

end PocketMoE.Runtime.Offload
