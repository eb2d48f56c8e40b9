import Mathlib.Algebra.GroupWithZero.Nat
import PocketMoE.Generation.Completions
import PocketMoE.Server.Batch

/-!
# The streaming loop

Model of `generate_stream` (`generation.py`), a second copy of the loop of `generate` that yields the
tokens as it writes them. Its rounds are translated from its own text; they keep the same state
(`streamStep_state`). For one prompt the token events are the tokens of the row one after the other
(`Emits`), and `generate_stream_refines` compares the two functions.
-/

namespace PocketMoE.Generation
open PocketMoE.Serving PocketMoE.Runtime PocketMoE.Lib

variable {S L D K : Type}

/-- `phase` of an event. -/
inductive Phase where
  | prefill
  | decode
deriving DecidableEq

/-- An event of type `token`. -/
structure TokenEvent where
  tokenIds : List Int
  position : Nat
  phase : Phase
deriving DecidableEq

/-- The event of type `done`, and the session behind it. -/
structure DoneEvent (S : Type) where
  completionTokens : List (List Int)
  prefillTokens : Nat
  decodeTokens : Nat
  finishReason : FinishReason
  session : Session S

/-- The tokens of a column that are not a prompt's. -/
def unmasked (rows : List Row) (pos : Nat) : List Int :=
  (rows.filter fun row => !row.mask.getD pos false).map fun row => row.tokens.getD pos (-1)

/-- The event of some tokens, if there are any. -/
def tokenEvent (tokenIds : List Int) (position : Nat) (phase : Phase) : List TokenEvent :=
  if tokenIds.isEmpty then [] else [⟨tokenIds, position, phase⟩]

namespace Speculator

variable (d : Speculator S L D) (job : Job)

/-- A round of `generate_stream` that verifies drafts. -/
def streamSpecRound (st : LoopState S D) (drafts : List Int) : List TokenEvent × LoopState S D :=
  let (outputs, w) := d.verify job st.session st.rows st.prevPos st.curPos drafts
  let rows := d.writeColumn job st.curPos st.rows (outputs.map Prod.fst)
  let mainT1 := unmasked rows st.curPos
  let accept := column rows st.curPos == drafts
  if accept && !(rows.any Row.finished) then
    let rows := d.writeColumn job (st.curPos + 1) rows (outputs.map Prod.snd)
    let mainT2 := unmasked rows (st.curPos + 1)
    let (drafts, drafter) :=
      d.draftWithMtp st.drafter (outputs.map Prod.snd) (column rows (st.curPos + 1)) st.curPos
    (tokenEvent (mainT1 ++ mainT2) st.curPos .decode,
      { session := w
        drafter := drafter
        rows := rows
        prevPos := st.curPos + 1
        curPos := st.curPos + 2
        pendingDrafts := drafts
        decodeTokens :=
          st.decodeTokens + generatedAt rows st.curPos + generatedAt rows (st.curPos + 1) })
  else
    let (drafts, drafter) :=
      d.draftWithMtp st.drafter (outputs.map Prod.fst) (column rows st.curPos) (st.curPos - 1)
    (tokenEvent mainT1 st.curPos .decode,
      { session := w
        drafter := drafter
        rows := rows
        prevPos := st.curPos
        curPos := st.curPos + 1
        pendingDrafts := drafts
        decodeTokens := st.decodeTokens + generatedAt rows st.curPos })

/-- A round of `generate_stream` that feeds the columns up to the next position. -/
def streamPlainRound (st : LoopState S D) : List TokenEvent × LoopState S D :=
  let (outputs, w) := d.forwardRound job st.session st.rows st.prevPos st.curPos
  let rows := d.writeColumn job st.curPos st.rows outputs
  let generatedThisStep := generatedAt rows st.curPos
  if st.prevPos < job.shortest then
    (if 0 < generatedThisStep then [⟨unmasked rows st.curPos, st.curPos, .prefill⟩] else [],
      { st with
        session := w.maybeCapture job st.curPos
        rows := rows
        prevPos := st.curPos
        curPos := st.curPos + 1 })
  else
    let (drafts, drafter) := d.draftRound job st outputs rows
    (if 0 < generatedThisStep then [⟨unmasked rows st.curPos, st.curPos, .decode⟩] else [],
      { session := w
        drafter := drafter
        rows := rows
        prevPos := st.curPos
        curPos := st.curPos + 1
        pendingDrafts := drafts
        decodeTokens := st.decodeTokens + generatedThisStep })

/-- A round of `generate_stream`; `none` is the failed assertion about the positions. -/
def streamStep (st : LoopState S D) : Option (List TokenEvent × LoopState S D) :=
  match verified job st with
  | some drafts =>
    if st.prevPos + 1 = st.curPos then some (d.streamSpecRound job st drafts) else none
  | none => some (d.streamPlainRound job st)

/-- The loop of `generate_stream`: what it yields, and the state after it. -/
def streamLoop : Nat → LoopState S D → Option (List TokenEvent × LoopState S D)
  | 0, st => some ([], st)
  | fuel + 1, st =>
    if st.curPos < job.totalLen then
      match d.streamStep job st with
      | none => none
      | some (events, st) =>
        if st.rows.all Row.finished then some (events, st)
        else (streamLoop fuel st).map fun (later, st) => (events ++ later, st)
    else some ([], st)

/-- `generate_stream` without sampling. -/
def generateStream [DecidableEq K] (settings : Settings) (options : GenerationOptions)
    (snap : Option (Snapshots K S)) (hint : Option (SnapshotHint K)) (s : S) (drafter : D)
    (prompts : List (List Nat)) (maxNewTokens : Int) : Option (List TokenEvent × DoneEvent S) :=
  match d.begin settings options snap hint s drafter prompts maxNewTokens with
  | none => none
  | some (job, st) =>
    (d.streamLoop job job.totalLen st).map fun (events, st) =>
      (events,
        { completionTokens := d.completions prompts maxNewTokens st.rows
          prefillTokens := (prompts.map List.length).sum
          decodeTokens := st.decodeTokens
          finishReason := if st.rows.all Row.finished then .stop else .length
          session := st.session })

end Speculator

variable {d : Speculator S L D} {job : Job} {st : LoopState S D}

/-! ## The states -/

lemma streamStep_state (d : Speculator S L D) (job : Job) (st : LoopState S D) :
    (d.streamStep job st).map Prod.snd = d.step job st := by
  unfold Speculator.streamStep Speculator.step
  cases verified job st with
  | some drafts =>
    dsimp only
    split_ifs
    · refine congrArg some ?_
      unfold Speculator.streamSpecRound Speculator.specRound
      dsimp only
      split_ifs
      · rfl
      · rfl
    · rfl
  | none =>
    refine congrArg some ?_
    unfold Speculator.streamPlainRound Speculator.plainRound
    dsimp only
    split_ifs
    · rfl
    · rfl
    · rfl
    · rfl

lemma streamLoop_state (d : Speculator S L D) (job : Job) (fuel : Nat) (st : LoopState S D) :
    (d.streamLoop job fuel st).map Prod.snd = d.loop job fuel st := by
  induction fuel generalizing st with
  | zero => rfl
  | succ fuel ih =>
    unfold Speculator.streamLoop Speculator.loop
    rw [← streamStep_state]
    split_ifs
    · cases d.streamStep job st with
      | none => rfl
      | some next =>
        obtain ⟨events, st⟩ := next
        dsimp only [Option.map_some]
        split_ifs
        · rfl
        · rw [← ih st, Option.map_map]
          rfl
    · rfl

/-! ## The events -/

variable {output : List Int → L} {Holds : List (List Int) → S → Prop} {start cur : Nat}
  {prompt : List Nat}

/-- Events that follow each other from a position on, each with a token. -/
def Contiguous : Nat → List TokenEvent → Prop
  | _, [] => True
  | pos, event :: rest =>
    event.position = pos ∧ event.tokenIds ≠ [] ∧ Contiguous (pos + event.tokenIds.length) rest

/-- What is yielded between two positions: the tokens that the row generates there. -/
structure Emits (d : Speculator S L D) (output : List Int → L) (job : Job) (prompt : List Nat)
    (cur stop : Nat) (events : List TokenEvent) : Prop where
  contiguous : Contiguous cur events
  count : cur + (events.flatMap TokenEvent.tokenIds).length = stop
  tokens : d.generated output job.options prompt (stop - prompt.length) =
    d.generated output job.options prompt (cur - prompt.length) ++
      events.flatMap TokenEvent.tokenIds

lemma Contiguous.append {pos : Nat} {events later : List TokenEvent}
    (before : Contiguous pos events)
    (after : Contiguous (pos + (events.flatMap TokenEvent.tokenIds).length) later) :
    Contiguous pos (events ++ later) := by
  induction events generalizing pos with
  | nil => exact after
  | cons event events ih =>
    obtain ⟨here, some, before⟩ := before
    refine ⟨here, some, ih before ?_⟩
    rwa [List.flatMap_cons, List.length_append, ← Nat.add_assoc] at after

lemma Contiguous.increasing {pos : Nat} {events : List TokenEvent}
    (contiguous : Contiguous pos events) :
    (∀ event ∈ events, pos ≤ event.position) ∧
      events.Pairwise fun event later => event.position < later.position := by
  induction events generalizing pos with
  | nil => exact ⟨nofun, List.Pairwise.nil⟩
  | cons event events ih =>
    obtain ⟨rfl, some, rest⟩ := contiguous
    obtain ⟨above, increasing⟩ := ih rest
    have more := List.length_pos_iff.mpr some
    refine ⟨List.forall_mem_cons.mpr ⟨le_rfl, fun later member => ?_⟩,
      List.pairwise_cons.mpr ⟨fun later member => ?_, increasing⟩⟩
    · exact (Nat.le_add_right ..).trans (above later member)
    · have le := above later member
      omega

lemma Emits.refl : Emits d output job prompt cur cur [] where
  contiguous := trivial
  count := rfl
  tokens := (List.append_nil _).symm

lemma Emits.append {middle stop : Nat} {events later : List TokenEvent}
    (before : Emits d output job prompt cur middle events)
    (after : Emits d output job prompt middle stop later) :
    Emits d output job prompt cur stop (events ++ later) where
  contiguous := before.contiguous.append (before.count ▸ after.contiguous)
  count := by
    rw [List.flatMap_append, List.length_append, ← Nat.add_assoc, before.count, after.count]
  tokens := by
    rw [after.tokens, before.tokens, List.flatMap_append, List.append_assoc]

lemma generatedAt_eq (rows : List Row) (pos : Nat) :
    generatedAt rows pos = (unmasked rows pos).length := by
  rw [generatedAt, unmasked, List.length_map, List.countP_eq_length_filter]

variable (d output) in
lemma unmasked_rowsAt (only : job.prompts = [prompt]) (first : prompt.length ≤ cur) :
    ∃ token, unmasked (rowsAt d output job (cur + 1)) cur = [token] ∧
      d.generated output job.options prompt (cur + 1 - prompt.length) =
        d.generated output job.options prompt (cur - prompt.length) ++ [token] := by
  obtain ⟨k, rfl⟩ := Nat.exists_eq_add_of_le first
  have later : prompt.length + k + 1 - prompt.length = k + 1 := by omega
  have front : (prompt.map Int.ofNat ++ d.generated output job.options prompt k).length =
      prompt.length + k := by simp
  refine ⟨_, ?_, by rw [later, Nat.add_sub_cancel_left, Decoder.generated]⟩
  have open' : (Row.init job.totalLen prompt).mask.getD (prompt.length + k) false = false := by
    rw [Decoder.mask_getD]
    simp
  have row : rowsAt d output job (prompt.length + k + 1) =
      [d.rowAt output job.options job.totalLen (prompt.length + (k + 1)) prompt] := by
    rw [rowsAt, only]
    rfl
  rw [row, unmasked, Decoder.rowAt_add, List.filter_singleton, open', Decoder.generated]
  simp only [Bool.not_false, cond_true, List.map_singleton, ← List.append_assoc]
  rw [List.append_assoc, List.getD_append_right _ _ _ _ front.le, front, Nat.sub_self]
  rfl

variable (d output) in
lemma emits_one (only : job.prompts = [prompt]) (first : prompt.length ≤ cur) (phase : Phase) :
    unmasked (rowsAt d output job (cur + 1)) cur ≠ [] ∧
      Emits d output job prompt cur (cur + 1)
        [⟨unmasked (rowsAt d output job (cur + 1)) cur, cur, phase⟩] := by
  obtain ⟨token, tokens, next⟩ := unmasked_rowsAt d output only first
  rw [tokens]
  exact ⟨List.cons_ne_nil _ _, ⟨rfl, List.cons_ne_nil _ _, trivial⟩, rfl, next⟩

lemma emits_two (only : job.prompts = [prompt]) (first : prompt.length ≤ cur) (phase : Phase) :
    Emits d output job prompt cur (cur + 2)
      (tokenEvent (unmasked (rowsAt d output job (cur + 1)) cur ++
        unmasked (rowsAt d output job (cur + 2)) (cur + 1)) cur phase) := by
  obtain ⟨token, tokens, next⟩ := unmasked_rowsAt d output only first
  obtain ⟨token', tokens', next'⟩ := unmasked_rowsAt d output only
    (first.trans (Nat.le_succ cur))
  rw [tokens, tokens']
  refine ⟨⟨rfl, List.cons_ne_nil _ _, trivial⟩, rfl, ?_⟩
  rw [next', next, List.append_assoc]
  rfl

lemma Round.streamPlain (isPure : Pure d output Holds) (fits : job.Fits)
    (only : job.prompts = [prompt]) (round : Round d output Holds job start st)
    (lt : st.curPos < job.totalLen) (first : prompt.length ≤ st.curPos) :
    Emits d output job prompt st.curPos (st.curPos + 1) (d.streamPlainRound job st).1 := by
  obtain ⟨written, -⟩ := round.forward isPure fits lt
  obtain ⟨some, -⟩ := emits_one d output only first .decode
  have more : 0 < generatedAt (rowsAt d output job (st.curPos + 1)) st.curPos := by
    rw [generatedAt_eq]
    exact List.length_pos_iff.mpr some
  unfold Speculator.streamPlainRound
  dsimp only
  rw [written]
  split_ifs
  · exact (emits_one d output only first .prefill).2
  · exact (emits_one d output only first .decode).2

lemma Round.streamSpec (isPure : Pure d output Holds) (fits : job.Fits)
    (only : job.prompts = [prompt]) (round : Round d output Holds job start st)
    (more : st.curPos + 1 < job.totalLen) (next : st.prevPos + 1 = st.curPos) {drafts : List Int}
    (count : drafts.length = job.prompts.length) (first : prompt.length ≤ st.curPos) :
    Emits d output job prompt st.curPos (d.specRound job st drafts).curPos
      (d.streamSpecRound job st drafts).1 := by
  obtain ⟨written, second, -⟩ := round.verify isPure fits (by omega) next count
  unfold Speculator.streamSpecRound Speculator.specRound
  dsimp only
  rw [written, second]
  split_ifs with accepted
  · rw [Bool.and_eq_true, beq_iff_eq] at accepted
    rw [rowsAt_accepted fits more accepted.1]
    exact emits_two only first .decode
  · obtain ⟨some, emits⟩ := emits_one d output only first .decode
    rw [tokenEvent, List.isEmpty_eq_false_iff.mpr some]
    exact emits

lemma Round.streamStep (isPure : Pure d output Holds) (fits : job.Fits)
    (only : job.prompts = [prompt]) (round : Round d output Holds job start st)
    (lt : st.curPos < job.totalLen) :
    ∃ events st', d.streamStep job st = some (events, st') ∧ d.step job st = some st' ∧
      Round d output Holds job start st' ∧
      Emits d output job prompt st.curPos st'.curPos events := by
  have first : prompt.length ≤ st.curPos := by
    have short := round.first
    rwa [Job.shortest, only, minLen_singleton] at short
  obtain ⟨st', stepped, round', -⟩ := round.step isPure fits lt
  have same := streamStep_state d job st
  rw [stepped] at same
  obtain ⟨⟨events, last⟩, streamed, rfl⟩ := Option.map_eq_some_iff.mp same
  refine ⟨events, last, streamed, stepped, round', ?_⟩
  unfold Speculator.streamStep at streamed
  unfold Speculator.step at stepped
  cases tested : verified job st with
  | none =>
    rw [tested] at streamed stepped
    have yields : (d.streamPlainRound job st).1 = events :=
      congrArg Prod.fst (Option.some.inj streamed)
    have position := (round.plain isPure fits lt).2
    rw [Option.some.inj stepped] at position
    rw [position, ← yields]
    exact round.streamPlain isPure fits only lt first
  | some drafts =>
    obtain ⟨-, more, pending⟩ := verified_eq_some tested
    rw [tested] at streamed stepped
    dsimp only at streamed stepped
    split_ifs at streamed stepped with next
    have yields : (d.streamSpecRound job st drafts).1 = events :=
      congrArg Prod.fst (Option.some.inj streamed)
    rw [← Option.some.inj stepped, ← yields]
    exact round.streamSpec isPure fits only more next (round.drafts drafts pending) first

lemma Round.streamLoop (isPure : Pure d output Holds) (fits : job.Fits)
    (only : job.prompts = [prompt]) (fuel : Nat) (round : Round d output Holds job start st) :
    ∃ events st', d.streamLoop job fuel st = some (events, st') ∧
      Emits d output job prompt st.curPos st'.curPos events := by
  induction fuel generalizing st with
  | zero => exact ⟨[], st, rfl, Emits.refl⟩
  | succ fuel ih =>
    unfold Speculator.streamLoop
    split_ifs with more
    · obtain ⟨events, st', streamed, -, next, emits⟩ := round.streamStep isPure fits only more
      rw [streamed]
      dsimp only
      split_ifs
      · exact ⟨events, st', rfl, emits⟩
      · obtain ⟨later, last, looped, rest⟩ := ih next
        rw [looped]
        exact ⟨events ++ later, last, rfl, emits.append rest⟩
    · exact ⟨[], st, rfl, Emits.refl⟩

lemma step_position {st' : LoopState S D} (isPure : Pure d output Holds) (fits : job.Fits)
    (round : Round d output Holds job start st) (lt : st.curPos < job.totalLen)
    (stepped : d.step job st = some st') : st'.curPos = st.curPos + 1 ∨
      st'.curPos = st.curPos + 2 ∧
        (rowsAt d output job (st.curPos + 1)).any Row.finished = false := by
  unfold Speculator.step at stepped
  cases tested : verified job st with
  | none =>
    rw [tested] at stepped
    have position := (round.plain isPure fits lt).2
    rw [Option.some.inj stepped] at position
    exact Or.inl position
  | some drafts =>
    obtain ⟨-, -, pending⟩ := verified_eq_some tested
    rw [tested] at stepped
    dsimp only at stepped
    split_ifs at stepped with next
    obtain ⟨written, -⟩ := round.verify isPure fits lt next (round.drafts drafts pending)
    rw [← Option.some.inj stepped]
    unfold Speculator.specRound
    dsimp only
    rw [written]
    split_ifs with accepted
    · rw [Bool.and_eq_true, Bool.not_eq_true'] at accepted
      exact Or.inr ⟨rfl, accepted.2⟩
    · exact Or.inl rfl

/-- The row has not ended before a position. -/
def Open (d : Speculator S L D) (output : List Int → L) (job : Job) (prompt : List Nat)
    (cur : Nat) : Prop :=
  d.eosId ∉ d.generated output job.options prompt (cur - prompt.length)

lemma rowsAt_finished (only : job.prompts = [prompt]) :
    (rowsAt d output job cur).all Row.finished = true ↔ ¬ Open d output job prompt cur := by
  rw [rowsAt, only, Open, not_not]
  simp [Decoder.rowAt]

lemma Round.loop_open (isPure : Pure d output Holds) (fits : job.Fits)
    (only : job.prompts = [prompt]) (fuel : Nat) (round : Round d output Holds job start st)
    (opened : Open d output job prompt st.curPos) {last : LoopState S D}
    (looped : d.loop job fuel st = some last) :
    Open d output job prompt last.curPos ∨ Open d output job prompt (last.curPos - 1) := by
  induction fuel generalizing st with
  | zero =>
    rw [← Option.some.inj looped]
    exact Or.inl opened
  | succ fuel ih =>
    unfold Speculator.loop at looped
    split_ifs at looped with more
    · obtain ⟨st', stepped, next, later⟩ := round.step isPure fits more
      rw [stepped] at looped
      dsimp only at looped
      split_ifs at looped with all
      · rw [← Option.some.inj looped]
        rcases step_position isPure fits round more stepped with one | ⟨two, unfinished⟩
        · rw [one]
          exact Or.inr opened
        · rw [two]
          refine Or.inr (not_not.mp fun closed => ?_)
          have finished := (rowsAt_finished only).mpr closed
          rw [rowsAt, only] at finished unfinished
          simp only [List.map_singleton, List.all_cons, List.all_nil, Bool.and_true,
            List.any_cons, List.any_nil, Bool.or_false] at finished unfinished
          exact absurd finished (unfinished ▸ Bool.false_ne_true)
      · rw [next.rows, rowsAt_finished only, not_not] at all
        exact ih next all looped
    · rw [← Option.some.inj looped]
      exact Or.inl opened

lemma Round.completion {maxNewTokens : Nat} (only : job.prompts = [prompt])
    (total : job.totalLen = min d.maxSeqLen (maxNewTokens + prompt.length))
    (round : Round d output Holds job start st)
    (ends : st.curPos = job.totalLen ∨ st.rows.all Row.finished = true) :
    (d.generated output job.options prompt (st.curPos - prompt.length)).takeWhile (· != d.eosId) ++
        [d.eosId] =
      d.completion output job.options maxNewTokens prompt := by
  have le := round.le
  have whole : min maxNewTokens (d.maxSeqLen - prompt.length) = job.totalLen - prompt.length := by
    omega
  rw [Decoder.completion, whole]
  rcases ends with last | all
  · rw [last]
  · have ended : d.eosId ∈ d.generated output job.options prompt (st.curPos - prompt.length) := by
      have member : prompt ∈ job.prompts := only ▸ List.mem_singleton_self prompt
      rw [round.rows] at all
      have here := List.all_eq_true.mp all _ (List.mem_map_of_mem member)
      exact List.contains_iff_mem.mp here
    have longer := List.take_append_drop (st.curPos - prompt.length)
      (d.generated output job.options prompt (job.totalLen - prompt.length))
    rw [Decoder.generated_take, Nat.min_eq_left (by omega)] at longer
    rw [← longer, Decoder.takeWhile_ended ended]

lemma Round.tokens (round : Round d output Holds job start st) (only : job.prompts = [prompt])
    (ends : st.curPos = job.totalLen ∨ st.rows.all Row.finished = true)
    (opened : Open d output job prompt st.curPos ∨ Open d output job prompt (st.curPos - 1)) :
    let run := d.generated output job.options prompt (job.totalLen - prompt.length)
    d.generated output job.options prompt (st.curPos - prompt.length) =
        (if d.eosId ∈ run then run.takeWhile (· != d.eosId) ++ [d.eosId] else run) ∧
      (st.rows.all Row.finished = true ↔ d.eosId ∈ run) := by
  intro run
  rw [round.rows, rowsAt_finished only] at ends ⊢
  by_cases open' : Open d output job prompt st.curPos
  · have last : st.curPos = job.totalLen := ends.resolve_right (not_not.mpr open')
    have same : d.generated output job.options prompt (st.curPos - prompt.length) = run := by
      rw [last]
    have none : d.eosId ∉ run := same ▸ open'
    rw [if_neg none]
    exact ⟨same, ⟨fun closed => absurd open' closed, fun member => absurd member none⟩⟩
  · have before := opened.resolve_left open'
    -- the end mark is the last token
    obtain ⟨k, next⟩ : ∃ k, st.curPos - prompt.length = k + 1 := by
      refine Nat.exists_eq_succ_of_ne_zero fun zero => open' ?_
      rw [Open, zero, Decoder.generated]
      exact List.not_mem_nil
    have previous : st.curPos - 1 - prompt.length = k := by omega
    rw [Open, previous] at before
    rw [Open, next, not_not] at open'
    have ended : d.generated output job.options prompt (k + 1) =
        d.generated output job.options prompt k ++ [d.eosId] := by
      rw [Decoder.generated] at open' ⊢
      rw [List.mem_singleton.mp ((List.mem_append.mp open').resolve_left before)]
    have le := round.le
    have longer := List.take_append_drop (k + 1) run
    rw [Decoder.generated_take, Nat.min_eq_left (by omega)] at longer
    have member : d.eosId ∈ run := by
      rw [← longer]
      exact List.mem_append_left _ open'
    have cut : run.takeWhile (· != d.eosId) = d.generated output job.options prompt k := by
      have others : ∀ token ∈ d.generated output job.options prompt k, (token != d.eosId) = true :=
        fun token here => bne_iff_ne.mpr fun same => before (same ▸ here)
      rw [← longer, ended, List.append_assoc, List.takeWhile_append_of_pos others]
      simp
    rw [if_pos member, cut, next, ended]
    refine ⟨rfl, fun _ => member, fun _ => ?_⟩
    rw [Open, next, not_not]
    exact open'

lemma Pure.stream_run [DecidableEq K] (isPure : Pure d output Holds) (settings : Settings)
    (options : GenerationOptions) {snap : Option (Snapshots K S)} {hint : Option (SnapshotHint K)}
    {s : S} (drafter : D) (maxNewTokens : Nat) (fits : prompt.length ≤ d.maxSeqLen)
    (exact : RestoresExactly Holds snap hint [prompt] s) :
    let run := d.generated output options prompt (min maxNewTokens (d.maxSeqLen - prompt.length))
    let completion := run.takeWhile (· != d.eosId) ++ [d.eosId]
    ∃ r events done,
      d.generate settings options snap hint s drafter [prompt] maxNewTokens = some r ∧
      d.generateStream settings options snap hint s drafter [prompt] maxNewTokens =
        some (events, done) ∧
      r.completionTokens = [completion] ∧ done.completionTokens = [completion] ∧
      events.flatMap TokenEvent.tokenIds = (if d.eosId ∈ run then completion else run) ∧
      done.finishReason = if d.eosId ∈ run then .stop else .length := by
  have fits' : ∀ p ∈ [prompt], p.length ≤ d.maxSeqLen := by
    intro p member
    rw [List.mem_singleton.mp member]
    exact fits
  obtain ⟨job, st, begins, -, rfl, only, total, inside, first, round⟩ :=
    begin_round isPure settings options drafter maxNewTokens (List.cons_ne_nil _ _) fits' exact
  obtain ⟨last, looped, round', -, ends⟩ := round.loop isPure inside job.totalLen
  have isOver := ends (Nat.le_add_left ..)
  obtain ⟨events, last', streamed, emits⟩ := round.streamLoop isPure inside only job.totalLen
  have same := streamLoop_state d job job.totalLen st
  rw [streamed, looped] at same
  obtain rfl : last' = last := Option.some.inj same
  have completions := round'.completions inside (only ▸ total) isOver
  rw [only, List.map_singleton] at completions
  rw [minLen_singleton] at first
  have opened : Open d output job prompt st.curPos := by
    rw [Open, first, Nat.sub_self, Decoder.generated]
    exact List.not_mem_nil
  obtain ⟨tokens, finished⟩ := round'.tokens only isOver
    (round.loop_open isPure inside only job.totalLen opened looped)
  have room : job.totalLen - prompt.length =
      min maxNewTokens (d.maxSeqLen - prompt.length) := by
    have maxLen_eq : maxLen [prompt] = prompt.length := Nat.max_eq_left (Nat.zero_le _)
    rw [total, maxLen_eq]
    omega
  have yielded := emits.tokens
  rw [first, Nat.sub_self, Decoder.generated, List.nil_append, tokens] at yielded
  rw [room] at finished yielded
  intro run completion
  have generated : d.generate settings job.options snap hint s drafter [prompt] maxNewTokens =
      some ⟨d.completions [prompt] maxNewTokens last'.rows, ([prompt].map List.length).sum,
        last'.decodeTokens, last'.session⟩ := by
    rw [Speculator.generate, begins]
    dsimp only
    rw [looped]
    rfl
  have streams : d.generateStream settings job.options snap hint s drafter [prompt] maxNewTokens =
      some (events, ⟨d.completions [prompt] maxNewTokens last'.rows,
        ([prompt].map List.length).sum, last'.decodeTokens,
        if last'.rows.all Row.finished then .stop else .length, last'.session⟩) := by
    rw [Speculator.generateStream, begins]
    dsimp only
    rw [streamed]
    rfl
  refine ⟨_, events, _, generated, streams, completions, completions, yielded.symm, ?_⟩
  exact if_congr finished rfl rfl

/-- `generate_stream` yields what `generate` returns. -/
theorem generate_stream_refines [DecidableEq K] (isPure : Pure d output Holds) (settings : Settings)
    (options : GenerationOptions) (snap : Option (Snapshots K S)) (hint : Option (SnapshotHint K))
    (s : S) (drafter : D) (prompt : List Nat) (maxNewTokens : Int)
    (exact : RestoresExactly Holds snap hint [prompt] s) :
    (d.generateStream settings options snap hint s drafter [prompt] maxNewTokens = none ↔
      d.generate settings options snap hint s drafter [prompt] maxNewTokens = none) ∧
    ∀ r events done,
      d.generate settings options snap hint s drafter [prompt] maxNewTokens = some r →
      d.generateStream settings options snap hint s drafter [prompt] maxNewTokens =
        some (events, done) →
      done.completionTokens = r.completionTokens ∧
      done.completionTokens =
        [(events.flatMap TokenEvent.tokenIds).takeWhile (· != d.eosId) ++ [d.eosId]] ∧
      done.decodeTokens = r.decodeTokens ∧ done.prefillTokens = r.prefillTokens ∧
      Contiguous prompt.length events ∧
      events.Pairwise fun event later => event.position < later.position := by
  unfold Speculator.generateStream Speculator.generate
  cases begins : d.begin settings options snap hint s drafter [prompt] maxNewTokens with
  | none => exact ⟨⟨fun _ => rfl, fun _ => rfl⟩, nofun⟩
  | some begun =>
    obtain ⟨some, fits, count, rfl⟩ := possible_of_begin begins
    obtain ⟨job, st, again, -, rfl, only, total, inside, first, round⟩ :=
      begin_round isPure settings options drafter count some fits exact
    obtain rfl := Option.some.inj (begins.symm.trans again)
    obtain ⟨last, looped, round', -, ends⟩ := round.loop isPure inside job.totalLen
    have isOver := ends (Nat.le_add_left ..)
    obtain ⟨events, last', streamed, emits⟩ := round.streamLoop isPure inside only job.totalLen
    have same := streamLoop_state d job job.totalLen st
    rw [streamed, looped] at same
    obtain rfl : last' = last := Option.some.inj same
    rw [minLen_singleton] at first
    dsimp only
    rw [looped, streamed]
    refine ⟨⟨nofun, nofun⟩, fun r events' done generated streams => ?_⟩
    obtain rfl := Option.some.inj generated
    obtain ⟨rfl, rfl⟩ := Prod.mk.inj (Option.some.inj streams)
    have completions := round'.completions inside (only ▸ total) isOver
    rw [only, List.map_singleton] at completions
    have maxLen_eq : maxLen [prompt] = prompt.length := Nat.max_eq_left (Nat.zero_le _)
    rw [maxLen_eq] at total
    have tokens := emits.tokens
    rw [first, Nat.sub_self, Decoder.generated, List.nil_append] at tokens
    refine ⟨rfl, ?_, rfl, rfl, first ▸ emits.contiguous, emits.contiguous.increasing.2⟩
    rw [← tokens, round'.completion only total isOver]
    exact completions

/-- A prompt that resumes at its first token, with drafts that are accepted and rejected. -/
theorem generate_stream_refines_recall :
    (recaller.generateStream ⟨false, true, false⟩ noOptions (some recalledOne)
        (some ⟨some [1], 1, []⟩) [] () [[1, 2]] 8).map Prod.fst =
      some [⟨[3], 2, .prefill⟩, ⟨[4], 3, .decode⟩, ⟨[5, 6], 4, .decode⟩, ⟨[7, 8], 6, .decode⟩,
        ⟨[9], 8, .decode⟩] ∧
    ∀ r events done,
      recaller.generate ⟨false, true, false⟩ noOptions (some recalledOne)
        (some ⟨some [1], 1, []⟩) [] () [[1, 2]] 8 = some r →
      recaller.generateStream ⟨false, true, false⟩ noOptions (some recalledOne)
        (some ⟨some [1], 1, []⟩) [] () [[1, 2]] 8 = some (events, done) →
      done.completionTokens = r.completionTokens ∧
      done.completionTokens = [(events.flatMap TokenEvent.tokenIds).takeWhile (· != 9) ++ [9]] := by
  have refines := generate_stream_refines recaller_pure ⟨false, true, false⟩ noOptions
    (some recalledOne) (some ⟨some [1], 1, []⟩) [] () [1, 2] 8 (recalled_exact [] _)
  refine ⟨by decide +kernel, fun r events done generated streams => ?_⟩
  obtain ⟨same, tokens, -⟩ := refines.2 r events done generated streams
  exact ⟨same, tokens⟩

end PocketMoE.Generation
