import Mathlib.Algebra.Group.Int.Defs
import Mathlib.Data.List.FinRange
import Mathlib.Data.List.Flatten
import PocketMoE.Engine.WorkerLoop
import PocketMoE.Lib.BlockReader
import PocketMoE.Lib.Bytes
import PocketMoE.Lib.Except
import PocketMoE.Lib.Trans
import PocketMoE.Lib.Word

/-!
# The command channel

`CmdChannel` between rank 0 and the workers, a Unix socket for each worker, and the two ends that use
it: `worker_command_*` write a header of four integers and the tokens of a prompt, and
`run_worker_loop` reads them. A `write` or a `read` moves as many bytes as it likes.

`create_ok_iff`: the handshake ends well exactly if each worker has arrived once, and then the socket
in a place is that worker's. `executes_sent`: at any moment a worker has executed a beginning of the
commands that were sent, with their arguments, and all of them when nothing is on its way.
-/

namespace PocketMoE.Engine.CmdChannel
open PocketMoE.Lib

/-! ## The handshake -/

section Handshake

variable {Socket : Type}

/-- A worker that has connected: its rank is put into `peer_fds`. -/
def acceptPeer (tpWorld : Nat) (peerFds : List (Option Socket)) (arrival : Socket × Int) :
    Except String (List (Option Socket)) :=
  if arrival.2 < 1 ∨ (tpWorld : Int) ≤ arrival.2 then
    .error ("CmdChannel: invalid worker rank " ++ toString arrival.2)
  else if (peerFds[(arrival.2 - 1).toNat]?.join).isSome then
    .error ("CmdChannel: duplicate worker rank " ++ toString arrival.2)
  else .ok (peerFds.set (arrival.2 - 1).toNat (some arrival.1))

/-- `CmdChannel::create` on rank 0, for the workers that arrive: as many as are accepted. -/
def create (tpWorld : Nat) (arrivals : List (Socket × Int)) :
    Except String (List (Option Socket)) :=
  (arrivals.take (tpWorld - 1)).foldlM (acceptPeer tpWorld) (List.replicate (tpWorld - 1) none)

/-- The place of a rank in `peer_fds`. -/
def slot (rank : Int) : Nat := (rank - 1).toNat

variable {tpWorld : Nat} {peers peers' : List (Option Socket)} {arrivals : List (Socket × Int)}

/-- `peer_fds` with the workers that arrived. -/
def connected (peers : List (Option Socket)) (arrivals : List (Socket × Int)) :
    List (Option Socket) :=
  arrivals.foldl (fun peers a => peers.set (slot a.2) (some a.1)) peers

lemma acceptPeer_ok {arrival : Socket × Int} :
    acceptPeer tpWorld peers arrival = .ok peers' ↔ (1 ≤ arrival.2 ∧ arrival.2 < tpWorld) ∧
      peers[slot arrival.2]?.join = none ∧ peers' = peers.set (slot arrival.2) (some arrival.1) := by
  unfold acceptPeer slot
  split_ifs with outside taken
  · exact iff_of_false (by rintro ⟨⟩) fun inside => by omega
  · refine iff_of_false (by rintro ⟨⟩) fun free => ?_
    rw [free.2.1] at taken
    exact Bool.false_ne_true taken
  · rw [Except.ok.injEq, eq_comm (a := peers')]
    refine ⟨fun eq => ⟨by omega, ?_, eq⟩, fun all => all.2.2⟩
    simpa using taken

/-- The workers arrive in range, no two of one rank, and in free places. -/
structure Arrive (tpWorld : Nat) (peers : List (Option Socket)) (arrivals : List (Socket × Int)) :
    Prop where
  inside : ∀ a ∈ arrivals, 1 ≤ a.2 ∧ a.2 < tpWorld
  nodup : (arrivals.map Prod.snd).Nodup
  free : ∀ a ∈ arrivals, peers[slot a.2]?.join = none

lemma slot_inj {r q : Int} (one : 1 ≤ r) (one' : 1 ≤ q) : slot r = slot q ↔ r = q := by
  unfold slot
  omega

lemma foldlM_acceptPeer (size : peers.length = tpWorld - 1) :
    arrivals.foldlM (acceptPeer tpWorld) peers = .ok peers' ↔ Arrive tpWorld peers arrivals ∧
      peers' = connected peers arrivals := by
  induction arrivals generalizing peers with
  | nil =>
    rw [List.foldlM_nil, pure_ok, connected, List.foldl_nil, eq_comm]
    exact (and_iff_right ⟨by rintro _ ⟨⟩, List.nodup_nil, by rintro _ ⟨⟩⟩).symm
  | cons a arrivals ih =>
    rw [List.foldlM_cons, bind_ok, connected, List.foldl_cons, ← connected]
    simp only [acceptPeer_ok]
    constructor
    · rintro ⟨_, ⟨inside, free, rfl⟩, rest⟩
      obtain ⟨arrive, eq⟩ := (ih (by rwa [List.length_set])).mp rest
      have apart : ∀ b ∈ arrivals, slot a.2 ≠ slot b.2 := fun b member same => by
        have taken := arrive.free b member
        have place : slot a.2 < peers.length := by
          unfold slot
          omega
        rw [← same, List.getElem?_set_self place] at taken
        cases taken
      refine ⟨⟨List.forall_mem_cons.mpr ⟨inside, arrive.inside⟩, ?_, ?_⟩, eq⟩
      · refine List.nodup_cons.mpr ⟨fun member => ?_, arrive.nodup⟩
        obtain ⟨b, there, same⟩ := List.mem_map.mp member
        exact apart b there (congrArg slot same.symm)
      · refine List.forall_mem_cons.mpr ⟨free, fun b member => ?_⟩
        rw [← arrive.free b member, List.getElem?_set_ne (apart b member)]
    · rintro ⟨arrive, eq⟩
      obtain ⟨inside, insides⟩ := List.forall_mem_cons.mp arrive.inside
      obtain ⟨free, frees⟩ := List.forall_mem_cons.mp arrive.free
      obtain ⟨new, nodup⟩ := List.nodup_cons.mp arrive.nodup
      refine ⟨_, ⟨inside, free, rfl⟩, (ih (by rwa [List.length_set])).mpr ⟨⟨insides, nodup, ?_⟩, eq⟩⟩
      intro b member
      have apart : slot a.2 ≠ slot b.2 := fun same => new (List.mem_map.mpr ⟨b, member,
        ((slot_inj inside.1 (insides b member).1).mp same).symm⟩)
      rw [List.getElem?_set_ne apart]
      exact frees b member

lemma length_connected : (connected peers arrivals).length = peers.length := by
  induction arrivals generalizing peers with
  | nil => rfl
  | cons a arrivals ih => exact ih.trans List.length_set

lemma connected_other {i : Nat} (other : ∀ a ∈ arrivals, slot a.2 ≠ i) :
    (connected peers arrivals)[i]? = peers[i]? := by
  induction arrivals generalizing peers with
  | nil => rfl
  | cons a arrivals ih =>
    obtain ⟨here, rest⟩ := List.forall_mem_cons.mp other
    exact (ih rest).trans (List.getElem?_set_ne here)

lemma connected_slot (size : peers.length = tpWorld - 1) (arrive : Arrive tpWorld peers arrivals) :
    ∀ a ∈ arrivals, (connected peers arrivals)[slot a.2]? = some (some a.1) := by
  obtain ⟨inside, nodup, -⟩ := arrive
  induction arrivals generalizing peers with
  | nil => rintro _ ⟨⟩
  | cons a arrivals ih =>
    obtain ⟨here, insides⟩ := List.forall_mem_cons.mp inside
    obtain ⟨new, nodup⟩ := List.nodup_cons.mp nodup
    refine List.forall_mem_cons.mpr ⟨?_, ih (by rwa [List.length_set]) insides nodup⟩
    have apart : ∀ b ∈ arrivals, slot b.2 ≠ slot a.2 := fun b member same =>
      new (List.mem_map.mpr ⟨b, member, (slot_inj (insides b member).1 here.1).mp same⟩)
    refine (connected_other apart).trans (List.getElem?_set_self ?_)
    unfold slot
    omega

lemma arrive_iff (all : arrivals.length = tpWorld - 1) :
    Arrive tpWorld (List.replicate (tpWorld - 1) (none : Option Socket)) arrivals ↔
      (arrivals.map Prod.snd).Perm ((List.range (tpWorld - 1)).map fun k : Nat => (k : Int) + 1) := by
  constructor
  · intro arrive
    refine (arrive.nodup.subperm fun rank member => ?_).perm_of_length_le ?_
    · obtain ⟨a, there, rfl⟩ := List.mem_map.mp member
      have inside := arrive.inside a there
      refine List.mem_map.mpr ⟨slot a.2, List.mem_range.mpr ?_, ?_⟩
      · unfold slot
        omega
      · unfold slot
        omega
    · rw [List.length_map, List.length_map, List.length_range, all]
  · intro perm
    refine ⟨fun a member => ?_, perm.nodup_iff.mpr (List.nodup_range.map fun k l eq => by omega),
      fun a _ => ?_⟩
    · obtain ⟨k, below, eq⟩ := List.mem_map.mp (perm.subset (List.mem_map_of_mem member))
      have := List.mem_range.mp below
      omega
    · rw [List.getElem?_replicate]
      split_ifs
      · rfl
      · rfl

/-- The handshake ends well exactly if each of the ranks from 1 on has arrived once, and then the
socket in the place of a rank is the one it came with. -/
theorem create_ok_iff (all : arrivals.length = tpWorld - 1) :
    create tpWorld arrivals = .ok peers ↔
      (arrivals.map Prod.snd).Perm ((List.range (tpWorld - 1)).map fun k : Nat => (k : Int) + 1) ∧
      peers.length = tpWorld - 1 ∧ ∀ a ∈ arrivals, peers[slot a.2]? = some (some a.1) := by
  have size : (List.replicate (tpWorld - 1) (none : Option Socket)).length = tpWorld - 1 :=
    List.length_replicate
  rw [create, List.take_of_length_le all.le, foldlM_acceptPeer size, ← arrive_iff all]
  refine and_congr_right fun arrive => ?_
  have slots := connected_slot size arrive
  have length : (connected (List.replicate (tpWorld - 1) none) arrivals).length = tpWorld - 1 :=
    length_connected.trans size
  constructor
  · rintro rfl
    exact ⟨length, slots⟩
  · rintro ⟨same, there⟩
    refine List.ext_getElem? fun i => ?_
    rcases Nat.lt_or_ge i (tpWorld - 1) with below | beyond
    · have member : (i : Int) + 1 ∈ arrivals.map Prod.snd :=
        ((arrive_iff all).mp arrive).symm.subset
          (List.mem_map.mpr ⟨i, List.mem_range.mpr below, rfl⟩)
      obtain ⟨a, arrived, rank⟩ := List.mem_map.mp member
      obtain rfl : slot a.2 = i := by
        unfold slot
        omega
      rw [there a arrived, slots a arrived]
    · rw [List.getElem?_eq_none (same.trans_le beyond), List.getElem?_eq_none (length.trans_le beyond)]

/-- Two workers that arrive in the other order. -/
theorem create_two : create 3 [("b", 2), ("a", 1)] = .ok [some "a", some "b"] :=
  (create_ok_iff rfl).mpr ⟨List.Perm.swap _ _ _, rfl, by decide⟩

end Handshake

/-! ## The messages -/

/-- What rank 0 sends. -/
inductive Message where
  | command (c : WorkerCommand)
  | shutdown
deriving DecidableEq

/-- The bytes of an `int32_t`. -/
def int32Bytes (v : Int) : List Byte := leBytes 4 (v % 2 ^ 32).toNat

/-- The `int32_t` of four bytes. -/
def int32 (bytes : List Byte) : Int := (leNat bytes : Int).bmod (2 ^ 32)

/-- The header of a command: the command and its arguments. -/
def header : Message → List Int
  | .command (.prefill tokenIds) => [0, 0, 0, tokenIds.length]
  | .command (.decodeStep lastToken position) => [1, lastToken, position, 0]
  | .command .reset => [2, 0, 0, 0]
  | .shutdown => [3, 0, 0, 0]

/-- `worker_command_prefill`, and the others: what `send_to_workers` is called with. -/
def blocks (message : Message) : List (List Int) :=
  match message with
  | .command (.prefill tokenIds) =>
    if tokenIds = [] then [header message] else [header message, tokenIds]
  | _ => [header message]

/-- The bytes of some integers. -/
def encode (ints : List Int) : List Byte := ints.flatMap int32Bytes

/-- What a worker gets of a message. -/
def Message.bytes (message : Message) : List Byte := (blocks message).flatMap encode

/-- The arguments fit into an `int32_t`. -/
def Message.Fits : Message → Prop
  | .command (.prefill tokenIds) =>
    (tokenIds.length : Int) < 2 ^ 31 ∧ ∀ t ∈ tokenIds, Word.Fits 32 t
  | .command (.decodeStep lastToken position) => Word.Fits 32 lastToken ∧ Word.Fits 32 position
  | .command .reset => True
  | .shutdown => True

/-! ## The worker -/

/-- What `run_worker_loop` reads next. -/
inductive Phase where
  | header
  | payload (count : Nat)
  | returned
deriving DecidableEq

/-- A worker: what it reads, and the commands that it has executed; `none` is an unknown one. -/
structure Worker where
  phase : Phase
  executed : List (Option WorkerCommand)

/-- The integers of a block. -/
def decode (count : Nat) (bytes : List Byte) : List Int :=
  (List.range count).map fun k => int32 ((bytes.drop (4 * k)).take 4)

/-- A command is executed, and the loop starts again. -/
def Worker.execute (w : Worker) (command : Option WorkerCommand) : Worker :=
  ⟨.header, w.executed ++ [command]⟩

/-- `run_worker_loop`, when a header or the tokens of a prompt have been read. -/
def Worker.next (w : Worker) (block : List Byte) : Worker :=
  match w.phase with
  | .header =>
    match decode 4 block with
    | [cmd, arg0, arg1, count] =>
      if cmd = 3 then { w with phase := .returned }
      else if cmd = 0 ∧ 0 < count then { w with phase := .payload count.toNat }
      else if cmd = 2 then w.execute (some .reset)
      else if cmd = 0 then w.execute (some (.prefill []))
      else if cmd = 1 then w.execute (some (.decodeStep arg0 arg1))
      else w.execute none
    | _ => w
  | .payload count => w.execute (some (.prefill (decode count block)))
  | .returned => w

/-- The bytes of the next block. -/
def Worker.need (w : Worker) : Nat :=
  match w.phase with
  | .header => 16
  | .payload count => 4 * count
  | .returned => 0

/-- A worker as a reader of its socket. -/
def loop : BlockReader Byte Worker := ⟨Worker.need, Worker.next⟩

/-- `run_worker_loop` begins. -/
def Worker.start : Worker := ⟨.header, []⟩

/-- The commands that are sent before the workers are shut down. -/
def commands (sent : List Message) : List WorkerCommand :=
  match sent with
  | [] => []
  | .shutdown :: _ => []
  | .command c :: sent => c :: commands sent

/-! ## The channel -/

variable {n : Nat}

/-- The channel: what rank 0 has still to write to which worker, what is in the sockets, and the
workers with the bytes of the block that they are reading. -/
structure State (n : Nat) where
  toWrite : List (Fin n × List Byte)
  socket : Fin n → List Byte
  reader : Fin n → Worker × List Byte

/-- What `send_to_workers` writes for some messages: every block to every worker. -/
def writes (n : Nat) (sent : List Message) : List (Fin n × List Byte) :=
  sent.flatMap fun message => (blocks message).flatMap fun block =>
    (List.finRange n).map fun worker => (worker, encode block)

/-- The channel when rank 0 is about to send some messages. -/
def State.start (n : Nat) (sent : List Message) : State n :=
  ⟨writes n sent, fun _ => [], fun _ => (.start, [])⟩

/-- A system call. -/
inductive Event (n : Nat) where
  | write (count : Nat)
  | written
  | read (worker : Fin n) (count : Nat)
  | interrupted

/-- The steps: `write` takes some bytes of what is left to write, `write_all` returns when nothing is
left, `read` takes some of the bytes that are there, as many as are needed at most, and any call may
be interrupted. -/
inductive Step : State n → Event n → State n → Prop where
  | write {s : State n} {worker : Fin n} {left : List Byte} {rest : List (Fin n × List Byte)}
      {count : Nat} (first : s.toWrite = (worker, left) :: rest) (pos : 0 < count)
      (le : count ≤ left.length) :
    Step s (.write count) { s with
      toWrite := (worker, left.drop count) :: rest
      socket := Function.update s.socket worker (s.socket worker ++ left.take count) }
  | written {s : State n} {worker : Fin n} {rest : List (Fin n × List Byte)}
      (first : s.toWrite = (worker, []) :: rest) : Step s .written { s with toWrite := rest }
  | read {s : State n} {worker : Fin n} {count : Nat} (pos : 0 < count)
      (le : count ≤ (s.socket worker).length)
      (fits : (s.reader worker).2.length + count ≤ (s.reader worker).1.need) :
    Step s (.read worker count) { s with
      socket := Function.update s.socket worker ((s.socket worker).drop count)
      reader := Function.update s.reader worker
        (loop.receive (s.reader worker) ((s.socket worker).take count)) }
  | interrupted {s : State n} : Step s .interrupted s

/-! ## What a worker reads -/

lemma length_int32Bytes (v : Int) : (int32Bytes v).length = 4 := length_leBytes 4 _

lemma int32_int32Bytes {v : Int} (fits : Word.Fits 32 v) : int32 (int32Bytes v) = v := by
  have small : (v % 2 ^ 32).toNat < 256 ^ 4 := by omega
  have nonneg : 0 ≤ v % 2 ^ 32 := by omega
  unfold int32 int32Bytes
  rw [leNat_leBytes 4 _ small, Int.toNat_of_nonneg nonneg]
  exact (Int.emod_bmod v (2 ^ 32)).trans (Word.bmod_of_fits fits)

lemma length_encode (ints : List Int) : (encode ints).length = 4 * ints.length := by
  induction ints with
  | nil => rfl
  | cons v ints ih =>
    rw [encode, List.flatMap_cons, List.length_append, length_int32Bytes, ← encode, ih,
      List.length_cons, Nat.mul_succ, Nat.add_comm]

lemma decode_encode {ints : List Int} (fits : ∀ v ∈ ints, Word.Fits 32 v) :
    decode ints.length (encode ints) = ints := by
  induction ints with
  | nil => rfl
  | cons v ints ih =>
    obtain ⟨here, rest⟩ := List.forall_mem_cons.mp fits
    have skip (k : Nat) : (encode (v :: ints)).drop (4 * (k + 1)) = (encode ints).drop (4 * k) := by
      have size : 4 * (k + 1) = (int32Bytes v).length + 4 * k := by
        rw [length_int32Bytes]
        omega
      rw [encode, List.flatMap_cons, ← encode, size, List.drop_append, Nat.add_sub_cancel_left,
        List.drop_eq_nil_of_le (Nat.le_add_right _ _), List.nil_append]
    rw [decode, List.length_cons, List.range_succ_eq_map, List.map_cons, List.map_map]
    refine congrArg₂ List.cons ?_ ((List.map_congr_left fun k _ => ?_).trans (ih rest))
    · rw [Nat.mul_zero, List.drop_zero, encode, List.flatMap_cons,
        List.take_left' (length_int32Bytes v), int32_int32Bytes here]
    · rw [Function.comp_apply, skip]

/-- The worker when it has read a message. -/
def Worker.after (w : Worker) : Message → Worker
  | .command c => w.execute (some c)
  | .shutdown => { w with phase := .returned }

lemma fits_header {message : Message} (fits : message.Fits) :
    ∀ v ∈ header message, Word.Fits 32 v := by
  have small : ∀ v : Int, 0 ≤ v → v < 2 ^ 31 → Word.Fits 32 v := fun v low high => by
    unfold Word.Fits
    omega
  cases message with
  | shutdown => exact fun v member => small v (by revert v; decide) (by revert v; decide)
  | command c =>
    cases c with
    | reset => exact fun v member => small v (by revert v; decide) (by revert v; decide)
    | prefill tokenIds =>
      intro v member
      simp only [header, List.mem_cons, List.not_mem_nil, or_false] at member
      rcases member with rfl | rfl | rfl | rfl
      · exact small 0 (by decide) (by decide)
      · exact small 0 (by decide) (by decide)
      · exact small 0 (by decide) (by decide)
      · exact small _ (Int.natCast_nonneg _) fits.1
    | decodeStep lastToken position =>
      intro v member
      simp only [header, List.mem_cons, List.not_mem_nil, or_false] at member
      rcases member with rfl | rfl | rfl | rfl
      · exact small 1 (by decide) (by decide)
      · exact fits.1
      · exact fits.2
      · exact small 0 (by decide) (by decide)

lemma length_header (message : Message) : (header message).length = 4 := by
  cases message with
  | shutdown => rfl
  | command c => cases c with
    | reset | prefill | decodeStep => rfl

lemma absorb_block {w : Worker} {ints : List Int} (size : w.need = 4 * ints.length)
    (some : ints ≠ []) (xs : List Byte) :
    loop.absorb w (encode ints ++ xs) = loop.absorb (w.next (encode ints)) xs := by
  have pos : 0 < w.need := by
    have := List.length_pos_iff.mpr some
    omega
  exact BlockReader.absorb_block pos ((length_encode ints).trans size.symm) xs

lemma absorb_message {message : Message} (fits : message.Fits)
    (executed : List (Option WorkerCommand)) (xs : List Byte) :
    loop.absorb ⟨.header, executed⟩ (message.bytes ++ xs) =
      loop.absorb (Worker.after ⟨.header, executed⟩ message) xs := by
  have whole : decode 4 (encode (header message)) = header message := by
    have heads := decode_encode (fits_header fits)
    rwa [length_header] at heads
  have first (ys : List Byte) : loop.absorb ⟨.header, executed⟩ (encode (header message) ++ ys) =
      loop.absorb (Worker.next ⟨.header, executed⟩ (encode (header message))) ys :=
    absorb_block (congrArg (4 * ·) (length_header message).symm)
      (List.ne_nil_of_length_eq_add_one (length_header message)) ys
  have alone (single : blocks message = [header message]) :
      message.bytes = encode (header message) := by
    rw [Message.bytes, single, List.flatMap_singleton]
  cases message with
  | shutdown =>
    rw [alone rfl, first, Worker.next, whole]
    rfl
  | command c =>
    cases c with
    | reset =>
      rw [alone rfl, first, Worker.next, whole]
      rfl
    | decodeStep lastToken position =>
      rw [alone rfl, first, Worker.next, whole]
      rfl
    | prefill tokenIds =>
      by_cases empty : tokenIds = []
      · subst empty
        rw [alone rfl, first, Worker.next, whole]
        rfl
      · have count : (0 : Int) < tokenIds.length :=
          Int.natCast_pos.mpr (List.length_pos_iff.mpr empty)
        have both : Message.bytes (.command (.prefill tokenIds)) =
            encode (header (.command (.prefill tokenIds))) ++ encode tokenIds := by
          rw [Message.bytes, blocks, if_neg empty, List.flatMap_cons, List.flatMap_singleton]
        have reads : Worker.next ⟨.header, executed⟩
            (encode (header (.command (.prefill tokenIds)))) =
              ⟨.payload tokenIds.length, executed⟩ := by
          rw [Worker.next, whole]
          exact (if_neg (by decide)).trans (if_pos ⟨rfl, count⟩)
        rw [both, List.append_assoc, first, reads, absorb_block rfl empty, Worker.next]
        dsimp only
        rw [decode_encode fits.2]
        rfl

lemma absorb_sent {sent : List Message} (fits : ∀ message ∈ sent, message.Fits)
    (executed : List (Option WorkerCommand)) :
    (loop.absorb ⟨.header, executed⟩ (sent.flatMap Message.bytes)).1 =
      ⟨if .shutdown ∈ sent then .returned else .header,
        executed ++ (commands sent).map some⟩ := by
  induction sent generalizing executed with
  | nil => rw [List.flatMap_nil, BlockReader.absorb_nil, commands, List.map_nil, List.append_nil]; rfl
  | cons message sent ih =>
    obtain ⟨here, rest⟩ := List.forall_mem_cons.mp fits
    rw [List.flatMap_cons, absorb_message here]
    cases message with
    | shutdown =>
      rw [BlockReader.absorb_short (Or.inl rfl), if_pos List.mem_cons_self, commands, List.map_nil,
        List.append_nil]
      rfl
    | command c =>
      have other : Message.shutdown ∈ Message.command c :: sent ↔ .shutdown ∈ sent := by
        rw [List.mem_cons, or_iff_right (by rintro ⟨⟩)]
      rw [Worker.after, Worker.execute, ih rest, commands, List.map_cons, List.append_assoc]
      simp only [other]
      rfl

lemma executed_grows (w : Worker) (xs : List Byte) :
    w.executed <+: (loop.absorb w xs).1.executed := by
  refine BlockReader.absorb_grows (R := fun a b => a.executed <+: b.executed)
    (fun _ => List.prefix_rfl)
    (fun {a b c} (first : a.executed <+: b.executed) (second : b.executed <+: c.executed) =>
      first.trans second)
    (fun w block => ?_) w xs
  have more (command : Option WorkerCommand) : w.executed <+: (w.execute command).executed :=
    List.prefix_append _ _
  change w.executed <+: (w.next block).executed
  unfold Worker.next
  split
  · split
    · split_ifs
      · exact List.prefix_rfl
      · exact List.prefix_rfl
      · exact more _
      · exact more _
      · exact more _
      · exact more _
    · exact List.prefix_rfl
  · exact more _
  · exact List.prefix_rfl

/-! ## Runs -/

/-- What rank 0 has still to write to a worker. -/
def pending (toWrite : List (Fin n × List Byte)) (worker : Fin n) : List Byte :=
  toWrite.flatMap fun write => if write.1 = worker then write.2 else []

lemma pending_writes (sent : List Message) (worker : Fin n) :
    pending (writes n sent) worker = sent.flatMap Message.bytes := by
  have one (bytes : List Byte) :
      ((List.finRange n).flatMap fun w => if w = worker then bytes else []) = bytes := by
    obtain ⟨before, after, split⟩ := List.append_of_mem (List.mem_finRange worker)
    have nodup := List.nodup_finRange n
    rw [split] at nodup ⊢
    have outside : worker ∉ before ∧ worker ∉ after := by
      have := List.nodup_middle.mp nodup
      rw [List.nodup_cons, List.mem_append, not_or] at this
      exact this.1
    have nothing {part : List (Fin n)} (apart : worker ∉ part) :
        (part.flatMap fun w => if w = worker then bytes else []) = [] :=
      List.flatMap_eq_nil_iff.mpr fun w member => if_neg fun (eq : w = worker) => apart (eq ▸ member)
    rw [List.flatMap_append, List.flatMap_cons, nothing outside.1, nothing outside.2, if_pos rfl,
      List.nil_append, List.append_nil]
  unfold pending writes
  rw [List.flatMap_assoc]
  refine List.flatMap_congr fun message _ => ?_
  rw [List.flatMap_assoc, Message.bytes]
  refine List.flatMap_congr fun block _ => ?_
  rw [List.flatMap_map]
  exact one (encode block)

/-- What has been read, what is in the socket and what has still to be written is what was sent. -/
def State.Inv (sent : List Message) (s : State n) : Prop :=
  ∀ worker, ∃ read, s.reader worker = loop.absorb .start read ∧
    read ++ (s.socket worker ++ pending s.toWrite worker) = sent.flatMap Message.bytes

lemma start_inv (sent : List Message) : (State.start n sent).Inv sent := fun worker =>
  ⟨[], (BlockReader.absorb_nil _).symm, pending_writes sent worker⟩

lemma State.Inv.step {sent : List Message} {s t : State n} {e : Event n} (inv : s.Inv sent)
    (st : Step s e t) : t.Inv sent := by
  intro worker
  obtain ⟨read, reader, stream⟩ := inv worker
  cases st with
  | interrupted => exact ⟨read, reader, stream⟩
  | written first =>
    refine ⟨read, reader, stream ▸ ?_⟩
    rw [first]
    simp [pending]
  | @write other left rest count first pos le =>
    refine ⟨read, reader, stream ▸ ?_⟩
    rw [first]
    by_cases same : other = worker
    · subst same
      simp only [pending, List.flatMap_cons, if_true, Function.update_self, List.append_assoc]
      rw [← List.append_assoc (left.take count), List.take_append_drop]
    · simp [pending, same, Function.update_of_ne (Ne.symm same)]
  | @read other count pos le fits =>
    by_cases same : other = worker
    · subst same
      have taken : ((s.socket other).take count).length = count := List.length_take_of_le le
      have need : 0 < loop.need (s.reader other).1 := pos.trans_le ((Nat.le_add_left _ _).trans fits)
      refine ⟨read ++ (s.socket other).take count, ?_, ?_⟩
      · rw [← BlockReader.receive_absorb reader need (by rwa [taken])]
        exact Function.update_self ..
      · simp only [Function.update_self, List.append_assoc]
        rw [← List.append_assoc (List.take _ _), List.take_append_drop, stream]
    · refine ⟨read, ?_, ?_⟩
      · simpa only [Function.update_of_ne (Ne.symm same)] using reader
      · simpa only [Function.update_of_ne (Ne.symm same)] using stream

/-- Nothing is on its way to a worker that the worker reads. -/
def State.Idle (s : State n) (worker : Fin n) : Prop :=
  s.toWrite = [] ∧ ∀ count t, ¬ Step s (.read worker count) t

lemma State.Idle.done {s : State n} {worker : Fin n} (idle : s.Idle worker) {read : List Byte}
    (reader : s.reader worker = loop.absorb .start read) :
    (loop.absorb .start (read ++ (s.socket worker ++ pending s.toWrite worker))).1 =
      (s.reader worker).1 := by
  have nothing : pending s.toWrite worker = [] := by rw [idle.1]; rfl
  rw [nothing, List.append_nil, BlockReader.absorb_append, ← reader]
  by_cases empty : s.socket worker = []
  · rw [empty, List.append_nil, reader]
    have again := BlockReader.absorb_append (m := loop) .start read []
    rw [List.append_nil, List.append_nil] at again
    exact congrArg Prod.fst again.symm
  · -- the worker does not read what is there, so it has returned
    have stopped : (s.reader worker).1.need ≤ (s.reader worker).2.length := by
      refine Nat.not_lt.mp fun more => idle.2 1 _ (.read Nat.one_pos ?_ more)
      exact List.length_pos_iff.mpr empty
    rcases BlockReader.absorb_rest (m := loop) .start read with returned | more
    · rw [← reader] at returned
      rw [BlockReader.absorb_short (Or.inl returned)]
    · rw [← reader] at more
      exact absurd more (Nat.not_lt.mpr stopped)

/-- In every run a worker has executed a beginning of the commands that were sent. When nothing is on
its way to it, it has executed all, and has returned if it was shut down. -/
theorem executes_sent {sent : List Message} (fits : ∀ message ∈ sent, message.Fits)
    {trace : List (State n × Event n)} {last : State n}
    (run : Run Step (State.start n sent) trace last) :
    Throughout (fun s => ∀ worker,
      (s.reader worker).1.executed <+: (commands sent).map some ∧
      (s.Idle worker → (s.reader worker).1.executed = (commands sent).map some ∧
        ((s.reader worker).1.phase = .returned ↔ .shutdown ∈ sent))) trace last := by
  have all := run.invariant (C := fun _ _ => True) (start_inv sent)
    (fun inv _ st => inv.step st) fun _ _ => trivial
  refine all.imp fun {s} inv worker => ?_
  obtain ⟨read, reader, stream⟩ := inv worker
  have whole : (loop.absorb .start (sent.flatMap Message.bytes)).1 =
      ⟨if .shutdown ∈ sent then .returned else .header, (commands sent).map some⟩ :=
    absorb_sent fits []
  constructor
  · have grows := executed_grows (loop.absorb .start read).1
      ((loop.absorb .start read).2 ++ (s.socket worker ++ pending s.toWrite worker))
    rwa [← BlockReader.absorb_append, stream, whole, ← reader] at grows
  · intro idle
    have done := idle.done reader
    rw [stream] at done
    have here : (s.reader worker).1 = _ := done.symm.trans whole
    rw [here]
    refine ⟨rfl, ?_⟩
    split_ifs with shut
    · exact iff_of_true rfl shut
    · exact iff_of_false (by rintro ⟨⟩) shut

/-- A worker that decodes one token and is shut down. -/
def decodeOne : List Message := [.command (.decodeStep 7 1), .shutdown]

/-- Five bytes of the first header are written and read, with an interrupted call between. -/
theorem executes_sent_decode : ∃ trace, ∃ last : State 1,
    Run Step (State.start 1 decodeOne) trace last ∧ Throughout (fun s => ∀ worker,
      (s.reader worker).1.executed <+: (commands decodeOne).map some ∧
      (s.Idle worker → (s.reader worker).1.executed = (commands decodeOne).map some ∧
        ((s.reader worker).1.phase = .returned ↔ .shutdown ∈ decodeOne))) trace last := by
  have fits : ∀ message ∈ decodeOne, message.Fits := by
    refine List.forall_mem_cons.mpr ⟨⟨?_, ?_⟩, List.forall_mem_singleton.mpr trivial⟩
    · unfold Word.Fits
      omega
    · unfold Word.Fits
      omega
  have run : Run Step (State.start 1 decodeOne) _ _ :=
    .cons (@Step.write 1 _ 0 _ _ 5 rfl (by decide) (by decide)) <|
    .cons .interrupted <|
    .cons (@Step.read 1 _ 0 5 (by decide) (by decide) (by decide)) (.nil _)
  exact ⟨_, _, run, executes_sent fits run⟩

end PocketMoE.Engine.CmdChannel
