import Mathlib.Algebra.GroupWithZero.Nat
import Mathlib.Data.Finset.Sort
import PocketMoE.Runtime.PrefixSnapshot
import PocketMoE.Server.Rows

/-!
# The generation loops

Model of `generate` and `generate_stream` (`generation.py`) for greedy decoding: prompts of any
lengths, prefill whole, in chunks or up to capture points, prefix snapshots, and decoding one token
at a time or with a draft that the model verifies (`DEEPSEEK_DECODE_MTP_SPEC`). The loops are two
pieces of code in the source and two definitions here (`step`, `streamStep`); what they do in the
same words is shared.

`Speculator` is the model with its draft head. `LoopState` is what the loops keep between two rounds.
`captured` and `calls` of a `Session` are not in the source: they record at which states snapshots
were taken, and which columns the model has been fed.

Timings, profiling and log probabilities are left out.
-/

namespace PocketMoE.Generation
open PocketMoE.Serving PocketMoE.Runtime PocketMoE.Lib

variable {S L D K : Type}

/-- The model with its draft head. `forwardBoth` is a forward call on two columns that returns the
outputs at both (`keep_all_positions`). `draftWithMtp` gets the output at the position before the
token, the token of each row and the position; it may raise an exception. -/
structure Speculator (S L D : Type) extends Decoder S L where
  forwardBoth : S → List (List Int) → Nat → List (L × L) × S
  draftWithMtp : D → List L → List Int → Nat → Option (List Int) × D
  draft_length : ∀ {h hidden tokens pos drafts}, (draftWithMtp h hidden tokens pos).1 = some drafts →
    drafts.length = tokens.length

/-- What the environment asks for: `DEEPSEEK_MTP_LOG`, `DEEPSEEK_DECODE_MTP_SPEC` and
`DEEPSEEK_DECODE_MTP_SPEC_TWO_LEN1`. -/
structure Settings where
  mtpLog : Bool
  mtpSpec : Bool
  twoLen1 : Bool

/-- The snapshots of the process, and what `_apply_buffers` does to the model. -/
structure Snapshots (K S : Type) where
  cache : PrefixSnapshotCache K
  entries : OrderedDict K SnapshotEntry
  applyBuffers : S → SnapshotEntry → S

/-- A forward call: the columns it is fed, up to `stop`, or the column at `start` and the drafts. -/
inductive Call where
  | forward (start stop : Nat)
  | verify (start : Nat)
deriving DecidableEq

/-- The model in a call of `generate`: its state, the positions that are still to be captured, and
what was captured and fed so far. -/
structure Session (S : Type) where
  state : S
  pendingCaptures : Finset Nat
  captured : List (Nat × S)
  calls : List Call

/-- What the loops keep between two rounds. -/
structure LoopState (S D : Type) where
  session : Session S
  drafter : D
  rows : List Row
  prevPos : Nat
  curPos : Nat
  pendingDrafts : Option (List Int)
  decodeTokens : Nat

/-- What does not change in a call of `generate`. -/
structure Job where
  settings : Settings
  options : GenerationOptions
  prompts : List (List Nat)
  totalLen : Nat

namespace Job

variable (job : Job)

/-- `needs_logits` at temperature 0. -/
def needsLogits : Bool := job.options.hasProcessors

/-- `min(prompt_lens)`. -/
def shortest : Nat := minLen job.prompts

/-- `mtp_spec_enabled` after the test of the prompts' lengths. -/
def mtpSpecEnabled : Bool :=
  job.settings.mtpSpec &&
    !(job.needsLogits || decide (1 < (job.prompts.map List.length).toFinset.card))

end Job

/-! ## Prefix snapshots -/

/-- `cache.restore` of a hint: the position, and the model after it. -/
def Snapshots.restore [DecidableEq K] (snap : Snapshots K S) (hint : Option (SnapshotHint K))
    (prompt : List Nat) (s : S) : Nat × S :=
  let pos := (PrefixSnapshotCache.restore snap.entries hint prompt).1
  match (hint.bind SnapshotHint.matchKey).bind snap.entries.get with
  | some entry => (pos, if pos = 0 then s else snap.applyBuffers s entry)
  | none => (pos, s)

/-- `_prefix_snapshot_settings`, with the model after it; `none` is a cache that is not enabled. -/
def prefixSnapshotSettings [DecidableEq K] (snap : Option (Snapshots K S))
    (hint : Option (SnapshotHint K)) (prompts : List (List Nat)) (s : S) : Nat × List Nat × S :=
  match snap, prompts with
  | some snap, [prompt] =>
    ((snap.cache.prefixSnapshotSettings snap.entries hint prompt).1,
      (snap.cache.prefixSnapshotSettings snap.entries hint prompt).2,
      (snap.restore hint prompt s).2)
  | _, _ => (0, [], s)

/-- `maybe_capture_prefix_snapshot`. -/
def Session.maybeCapture (job : Job) (w : Session S) (pos : Nat) : Session S :=
  if pos ∈ w.pendingCaptures then
    if job.prompts.length ≠ 1 ∨ (job.prompts.headD []).length < pos then w
    else
      { w with
        captured := w.captured ++ [(pos, w.state)]
        pendingCaptures := w.pendingCaptures.erase pos }
  else w

/-! ## Forward calls -/

/-- `spec_verify`: the drafts that are verified in this round. -/
def verified (job : Job) (st : LoopState S D) : Option (List Int) :=
  if job.mtpSpecEnabled && 0 < st.prevPos && st.curPos + 1 < job.totalLen &&
      !(st.rows.all fun row => row.mask.getD st.curPos false) &&
      !(st.rows.any fun row => row.mask.getD (st.curPos + 1) false) &&
      !job.needsLogits && !decide (st.prevPos < job.shortest) then st.pendingDrafts
  else none

/-- The tokens of a column. -/
def column (rows : List Row) (pos : Nat) : List Int :=
  rows.map fun row => row.tokens.getD pos (-1)

/-- How many rows generate a token at a position. -/
def generatedAt (rows : List Row) (pos : Nat) : Nat :=
  rows.countP fun row => !row.mask.getD pos false

namespace Speculator

variable (d : Speculator S L D) (job : Job)

/-- A forward call on the columns. -/
def call (w : Session S) (rows : List Row) (start stop : Nat) : List L × Session S :=
  let (outputs, s) := d.forward w.state (columns rows start stop) start
  (outputs, { w with state := s, calls := w.calls ++ [.forward start stop] })

/-- The columns in chunks; only the last call's outputs are returned. -/
def prefillChunks (rows : List Row) (chunk stop : Nat) : Nat → Session S → Nat → List L × Session S
  | 0, w, start => d.call w rows start stop
  | fuel + 1, w, start =>
    if start + chunk < stop then
      let (_, w) := d.call w rows start (start + chunk)
      prefillChunks rows chunk stop fuel (w.maybeCapture job (start + chunk)) (start + chunk)
    else d.call w rows start stop

/-- The columns up to the capture points, and the rest. -/
def prefillCaptures (rows : List Row) (stop : Nat) :
    List Nat → Session S → Nat → List L × Session S
  | [], w, start => d.call w rows start stop
  | chunkEnd :: rest, w, start =>
    let (_, w) := d.call w rows start chunkEnd
    prefillCaptures rows stop rest (w.maybeCapture job chunkEnd) chunkEnd

/-- The forward calls of a prefill step. -/
def prefill (w : Session S) (rows : List Row) (prev cur : Nat) : List L × Session S :=
  let capturePoints := (w.pendingCaptures.filter fun pos => prev < pos ∧ pos < cur).sort
  if 0 < d.prefillChunkTokens ∧ d.prefillChunkTokens < cur - prev then
    d.prefillChunks job rows d.prefillChunkTokens.toNat cur cur w prev
  else if capturePoints ≠ [] then
    d.prefillCaptures job rows cur capturePoints w prev
  else d.call w rows prev cur

/-- The forward calls of a round that does not verify drafts. -/
def forwardRound (w : Session S) (rows : List Row) (prev cur : Nat) : List L × Session S :=
  if job.needsLogits then d.call w rows prev cur
  else if prev < job.shortest then d.prefill job w rows prev cur
  else d.call w rows prev cur

/-- The forward calls that verify drafts: one on two columns, or two. -/
def verify (w : Session S) (rows : List Row) (prev cur : Nat) (drafts : List Int) :
    List (L × L) × Session S :=
  let inp := columns rows prev cur
  let after := fun s => { w with state := s, calls := w.calls ++ [.verify prev] }
  if job.settings.twoLen1 then
    let (first, s) := d.forward w.state inp prev
    let (second, s) := d.forward s (drafts.map ([·])) cur
    (first.zip second, after s)
  else
    let (both, s) := d.forwardBoth w.state (List.zipWith (· ++ [·]) inp drafts) prev
    (both, after s)

/-- The round's next tokens go to a column. -/
def writeColumn (cur : Nat) (rows : List Row) (outputs : List L) : List Row :=
  List.zipWith (d.write job.options cur) rows outputs

/-- A decode round asks for a draft, when the hidden rows are there: the drafts for the next round,
none if there was an exception. -/
def draftRound (st : LoopState S D) (outputs : List L) (rows : List Row) : Option (List Int) × D :=
  if (job.settings.mtpLog || job.mtpSpecEnabled) && !job.needsLogits && 0 < st.prevPos then
    d.draftWithMtp st.drafter outputs (column rows st.curPos) (st.curPos - 1)
  else (st.pendingDrafts, st.drafter)

/-! ## `generate` -/

/-- A round that verifies drafts. -/
def specRound (st : LoopState S D) (drafts : List Int) : LoopState S D :=
  let (outputs, w) := d.verify job st.session st.rows st.prevPos st.curPos drafts
  let rows := d.writeColumn job st.curPos st.rows (outputs.map Prod.fst)
  let accept := column rows st.curPos == drafts
  if accept && !(rows.any Row.finished) then
    let rows := d.writeColumn job (st.curPos + 1) rows (outputs.map Prod.snd)
    let (drafts, drafter) :=
      d.draftWithMtp st.drafter (outputs.map Prod.snd) (column rows (st.curPos + 1)) st.curPos
    { session := w
      drafter := drafter
      rows := rows
      prevPos := st.curPos + 1
      curPos := st.curPos + 2
      pendingDrafts := drafts
      decodeTokens :=
        st.decodeTokens + generatedAt rows st.curPos + generatedAt rows (st.curPos + 1) }
  else
    let (drafts, drafter) :=
      d.draftWithMtp st.drafter (outputs.map Prod.fst) (column rows st.curPos) (st.curPos - 1)
    { session := w
      drafter := drafter
      rows := rows
      prevPos := st.curPos
      curPos := st.curPos + 1
      pendingDrafts := drafts
      decodeTokens := st.decodeTokens + generatedAt rows st.curPos }

/-- A round that feeds the columns up to the next position. -/
def plainRound (st : LoopState S D) : LoopState S D :=
  let (outputs, w) := d.forwardRound job st.session st.rows st.prevPos st.curPos
  let rows := d.writeColumn job st.curPos st.rows outputs
  if st.prevPos < job.shortest then
    { st with
      session := w.maybeCapture job st.curPos
      rows := rows
      prevPos := st.curPos
      curPos := st.curPos + 1 }
  else
    let (drafts, drafter) := d.draftRound job st outputs rows
    { session := w
      drafter := drafter
      rows := rows
      prevPos := st.curPos
      curPos := st.curPos + 1
      pendingDrafts := drafts
      decodeTokens := st.decodeTokens + generatedAt rows st.curPos }

/-- A round of `generate`; `none` is the failed assertion about the positions. -/
def step (st : LoopState S D) : Option (LoopState S D) :=
  match verified job st with
  | some drafts =>
    if st.prevPos + 1 = st.curPos then some (d.specRound job st drafts) else none
  | none => some (d.plainRound job st)

/-- The loop of `generate`. -/
def loop : Nat → LoopState S D → Option (LoopState S D)
  | 0, st => some st
  | fuel + 1, st =>
    if st.curPos < job.totalLen then
      match d.step job st with
      | none => none
      | some st => if st.rows.all Row.finished then some st else loop fuel st
    else some st

/-- What both functions do before the loop. They raise an exception if there is no prompt, if one is
longer than the model allows, or than the matrix, which a negative `max_new_tokens` makes too
small. -/
def begin [DecidableEq K] (settings : Settings) (options : GenerationOptions)
    (snap : Option (Snapshots K S)) (hint : Option (SnapshotHint K)) (s : S) (drafter : D)
    (prompts : List (List Nat)) (maxNewTokens : Int) : Option (Job × LoopState S D) :=
  let total := min (d.maxSeqLen : Int) (maxNewTokens + maxLen prompts)
  if prompts.isEmpty || d.maxSeqLen < maxLen prompts || total < maxLen prompts then none
  else
    let (restorePos, captures, s) := prefixSnapshotSettings snap hint prompts s
    some ({ settings := settings, options := options, prompts := prompts, totalLen := total.toNat },
      { session := { state := s, pendingCaptures := captures.toFinset, captured := [], calls := [] }
        drafter := drafter
        rows := prompts.map (Row.init total.toNat)
        prevPos := restorePos
        curPos := minLen prompts
        pendingDrafts := none
        decodeTokens := 0 })

/-- What `generate` returns, and the session behind it. -/
structure Generated (S : Type) where
  completionTokens : List (List Int)
  prefillTokens : Nat
  decodeTokens : Nat
  session : Session S

/-- `completion_tokens`. -/
def completions (prompts : List (List Nat)) (maxNewTokens : Int) (rows : List Row) :
    List (List Int) :=
  List.zipWith (d.finish maxNewTokens.toNat) prompts rows

/-- `generate` without sampling. -/
def generate [DecidableEq K] (settings : Settings) (options : GenerationOptions)
    (snap : Option (Snapshots K S)) (hint : Option (SnapshotHint K)) (s : S) (drafter : D)
    (prompts : List (List Nat)) (maxNewTokens : Int) : Option (Generated S) :=
  match d.begin settings options snap hint s drafter prompts maxNewTokens with
  | none => none
  | some (job, st) =>
    (d.loop job job.totalLen st).map fun st =>
      { completionTokens := d.completions prompts maxNewTokens st.rows
        prefillTokens := (prompts.map List.length).sum
        decodeTokens := st.decodeTokens
        session := st.session }

end Speculator

end PocketMoE.Generation
