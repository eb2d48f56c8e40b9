import Mathlib.Algebra.GroupWithZero.Nat
import PocketMoE.Generation.Completions

/-!
# Log probabilities of the generated tokens

With `logprobs` every round of `generate` appends an entry for each row that is past its prompt
(`_record_generation_logprobs`), also after the row has ended, and the completions are cut at the
end mark and at `max_new_tokens` afterwards. `Aligned` says that a row's entries are about the
tokens of its completion. They are for every row if and only if the rows end together
(`EndTogether`), which a row by itself does (`logprobs_alone`).

`drawn` is what the model draws for a row at a position. Log probabilities and the best candidates
are parameters of the model like `pick`.
-/

namespace PocketMoE.Generation
open PocketMoE.Serving PocketMoE.Runtime PocketMoE.Lib

variable {S L D K F : Type}

/-- An entry of `logprob_rows`. -/
structure LogprobEntry (F : Type) where
  tokenId : Int
  logprob : F
  topLogprobs : Option (List (Int × F))

/-- The model with the log probabilities of a row's output, after the processors: that of a token,
and those of the best candidates. `forward` returns an output for each row. -/
structure Recorder (S L D F : Type) extends Speculator S L D where
  vocabSize : Nat
  logprob : GenerationOptions → List Int → L → Int → F
  topk : GenerationOptions → List Int → L → Nat → List (Int × F)
  forward_length : ∀ s chunk pos, (forward s chunk pos).1.length = chunk.length

/-- `max(int(options.get("top_logprobs") or 0), 0)`. -/
def topLogprobsOf (options : GenerationOptions) : Nat :=
  (options.topLogprobs.getD 0).toNat

/-- What the loop keeps between two rounds, with `logprob_rows`. -/
structure Recorded (S D F : Type) where
  loop : LoopState S D
  logprobRows : List (List (LogprobEntry F))

namespace Recorder

variable (r : Recorder S L D F) (job : Job)

/-- A row's part of `_record_generation_logprobs`. -/
def recordRow (cur : Nat) (row : Row) (output : L) (entries : List (LogprobEntry F)) :
    List (LogprobEntry F) :=
  if row.mask.getD cur false then entries
  else
    let history := row.tokens.take cur
    let token := r.pick job.options history output
    let top := topLogprobsOf job.options
    entries ++ [{
      tokenId := token
      logprob := r.logprob job.options history output token
      topLogprobs :=
        if 0 < top then some (r.topk job.options history output (min top r.vocabSize)) else none }]

/-- `_record_generation_logprobs`. -/
def recordGenerationLogprobs (cur : Nat) (rows : List Row) (outputs : List L)
    (entries : List (List (LogprobEntry F))) : List (List (LogprobEntry F)) :=
  List.zipWith (fun (row, output) entries => r.recordRow job cur row output entries)
    (rows.zip outputs) entries

/-- A round of `generate` that does not verify drafts. -/
def recordedRound (st : Recorded S D F) : Recorded S D F where
  loop := r.plainRound job st.loop
  logprobRows :=
    if job.options.logprobs && job.needsLogits then
      r.recordGenerationLogprobs job st.loop.curPos st.loop.rows
        (r.forwardRound job st.loop.session st.loop.rows st.loop.prevPos st.loop.curPos).1
        st.logprobRows
    else st.logprobRows

/-- A round of `generate`; none of those that verify drafts has the logits. -/
def recordedStep (st : Recorded S D F) : Option (Recorded S D F) :=
  match verified job st.loop with
  | some _ => (r.step job st.loop).map fun loop => { st with loop := loop }
  | none => some (r.recordedRound job st)

/-- The loop of `generate`. -/
def recordedLoop : Nat → Recorded S D F → Option (Recorded S D F)
  | 0, st => some st
  | fuel + 1, st =>
    if st.loop.curPos < job.totalLen then
      match r.recordedStep job st with
      | none => none
      | some st => if st.loop.rows.all Row.finished then some st else recordedLoop fuel st
    else some st

/-- The state before the loop. -/
def fresh (st : LoopState S D) : Recorded S D F where
  loop := st
  logprobRows := st.rows.map fun _ => []

/-- `generate`: its result, and `logprob_rows` if they are asked for. -/
def generateRecorded [DecidableEq K] (settings : Settings) (options : GenerationOptions)
    (snap : Option (Snapshots K S)) (hint : Option (SnapshotHint K)) (s : S) (drafter : D)
    (prompts : List (List Nat)) (maxNewTokens : Int) :
    Option (Speculator.Generated S × Option (List (List (LogprobEntry F)))) :=
  match r.begin settings options snap hint s drafter prompts maxNewTokens with
  | none => none
  | some (job, st) =>
    (r.recordedLoop job job.totalLen (fresh st)).map fun st =>
      ({ completionTokens := r.completions prompts maxNewTokens st.loop.rows
         prefillTokens := (prompts.map List.length).sum
         decodeTokens := st.loop.decodeTokens
         session := st.loop.session },
        if options.logprobs then some st.logprobRows else none)

end Recorder

/-- `_format_logprobs`: the texts of the tokens, their log probabilities, and the candidates'. -/
def formatLogprobs (decode : List Int → String) (rows : List (LogprobEntry F)) :
    List String × List F × List (List (String × F)) :=
  (rows.map fun row => decode [row.tokenId], rows.map LogprobEntry.logprob,
    rows.map fun row => (row.topLogprobs.getD []).map fun (token, value) => (decode [token], value))

/-- The entries of a row are about the tokens of its completion, all of them or all but the end mark
that `generate` appends. -/
def Aligned (eosId : Int) (completion : List Int) (entries : List (LogprobEntry F)) : Prop :=
  entries.map LogprobEntry.tokenId = completion ∨
    entries.map LogprobEntry.tokenId ++ [eosId] = completion

lemma Aligned.texts {eosId : Int} {completion : List Int} {entries : List (LogprobEntry F)}
    (aligned : Aligned eosId completion entries) (decode : List Int → String) :
    (formatLogprobs decode entries).1 = completion.map (fun token => decode [token]) ∨
      (formatLogprobs decode entries).1 ++ [decode [eosId]] =
        completion.map fun token => decode [token] := by
  rcases aligned with rfl | rfl
  · exact Or.inl (by rw [formatLogprobs, List.map_map]; rfl)
  · exact Or.inr (by rw [formatLogprobs, List.map_append, List.map_map]; rfl)

lemma aligned_cut {eosId : Int} {entries : List (LogprobEntry F)} {tokens : List Int}
    (recorded : entries.map LogprobEntry.tokenId = tokens) (maxNewTokens : Nat) :
    Aligned eosId ((tokens.take maxNewTokens).takeWhile (· != eosId) ++ [eosId]) entries ↔
      eosId ∉ tokens.dropLast ∧
        (tokens.length ≤ maxNewTokens ∨ tokens.length = maxNewTokens + 1 ∧ eosId ∈ tokens) := by
  have other {l : List Int} (free : eosId ∉ l) : l.takeWhile (· != eosId) = l := by
    refine List.takeWhile_eq_self_iff.mpr fun token member => ?_
    exact bne_iff_ne.mpr fun same => free (same ▸ member)
  have cutFree : eosId ∉ (tokens.take maxNewTokens).takeWhile (· != eosId) := fun member =>
    absurd (List.mem_takeWhile_imp member) (by simp)
  have cutLength : ((tokens.take maxNewTokens).takeWhile (· != eosId)).length ≤ maxNewTokens :=
    (List.takeWhile_sublist _).length_le.trans (List.length_take_le ..)
  unfold Aligned
  rw [recorded]
  constructor
  · intro aligned
    rcases aligned with whole | appended
    · generalize (tokens.take maxNewTokens).takeWhile (· != eosId) = cut at whole cutFree cutLength
      subst whole
      rw [List.dropLast_concat, List.length_append, List.length_singleton]
      refine ⟨cutFree, ?_⟩
      rcases Nat.lt_or_ge cut.length maxNewTokens with shorter | full
      · exact Or.inl shorter
      · exact Or.inr ⟨by omega, List.mem_append_right _ List.mem_cons_self⟩
    · have same := List.append_cancel_right appended
      rw [← same] at cutFree cutLength
      exact ⟨fun member => cutFree (List.mem_of_mem_dropLast member), Or.inl cutLength⟩
  · rintro ⟨free, room⟩
    by_cases ended : eosId ∈ tokens
    · -- the end mark is the last token: the cut takes it off and it is appended again
      left
      have some : tokens ≠ [] := List.ne_nil_of_mem ended
      have last : tokens.getLast some = eosId := by
        rw [← List.dropLast_append_getLast some] at ended
        rcases List.mem_append.mp ended with early | last
        · exact absurd early free
        · exact (List.mem_singleton.mp last).symm
      have split := List.dropLast_append_getLast some
      rw [last] at split
      generalize tokens.dropLast = front at free split
      subst split
      rw [List.length_append, List.length_singleton] at room
      have le : front.length ≤ maxNewTokens := by omega
      rw [List.take_append, List.take_of_length_le le, List.takeWhile_append_of_pos]
      · cases maxNewTokens - front.length with
        | zero => simp
        | succ n => simp
      · intro token member
        exact bne_iff_ne.mpr fun same => free (same ▸ member)
    · right
      have le : tokens.length ≤ maxNewTokens := room.resolve_right fun more => ended more.2
      rw [List.take_of_length_le le, other ended]

namespace Recorder

variable (r : Recorder S L D F) (job : Job)

/-- What the model draws in a round, whether it is written or not. -/
def draws (st : LoopState S D) : List Int :=
  List.zipWith (fun row output => r.pick job.options (row.tokens.take st.curPos) output) st.rows
    (r.forwardRound job st.session st.rows st.prevPos st.curPos).1

/-- What the model draws for a row at a position, when the rounds go on until there. -/
def drawn (start : LoopState S D) (i pos : Nat) : Int :=
  (r.draws job ((r.plainRound job)^[pos - start.curPos] start)).getD i (-1)

/-- The tokens of a row up to a position. -/
def tokensAt (start : LoopState S D) (i : Nat) (prompt : List Nat) (stop : Nat) : List Int :=
  (List.range' prompt.length (stop - prompt.length)).map (r.drawn job start i)

/-- The model draws the end mark for a row, at a position past its prompt. -/
def Ends (start : LoopState S D) (i pos : Nat) : Prop :=
  ∃ prompt, job.prompts[i]? = some prompt ∧ prompt.length ≤ pos ∧
    r.drawn job start i pos = r.eosId

/-- At `stop` the matrix is full, or all rows end. No row ends before, and none has generated more
than it was asked for, but for the end mark. -/
structure EndTogetherAt (start : LoopState S D) (maxNewTokens stop : Nat) : Prop where
  first : start.curPos ≤ stop
  le : stop ≤ job.totalLen
  ended : stop = job.totalLen ∨
    ∃ pos, stop = pos + 1 ∧ ∀ i < job.prompts.length, r.Ends job start i pos
  none : ∀ i pos, r.Ends job start i pos → stop ≤ pos + 1
  room : ∀ i prompt, job.prompts[i]? = some prompt → stop ≤ prompt.length + maxNewTokens ∨
    stop = prompt.length + maxNewTokens + 1 ∧ r.Ends job start i (prompt.length + maxNewTokens)

/-- The rows of a batch end together. -/
def EndTogether (start : LoopState S D) (maxNewTokens : Nat) : Prop :=
  ∃ stop, r.EndTogetherAt job start maxNewTokens stop

/-- The loop's end: the matrix is full, or all rows have ended for the first time. -/
def Done (start : LoopState S D) (st : Recorded S D F) : Prop :=
  ∃ n, st = (r.recordedRound job)^[n] (fresh start) ∧ start.curPos + n ≤ job.totalLen ∧
    (start.curPos + n = job.totalLen ∨ 0 < n ∧ st.loop.rows.all Row.finished = true) ∧
    ∀ j, 0 < j → j < n →
      ¬ ((r.recordedRound job)^[j] (fresh start)).loop.rows.all Row.finished = true

/-- What `begin` makes of a request for log probabilities. -/
structure Begun (start : LoopState S D) : Prop where
  rows : start.rows = job.prompts.map (Row.init job.totalLen)
  first : ∀ prompt ∈ job.prompts, start.curPos ≤ prompt.length
  fits : job.Fits
  some : job.prompts ≠ []
  logprobs : job.options.logprobs = true

end Recorder

namespace Recorder

variable {r : Recorder S L D F} {job : Job} {start : LoopState S D} {i : Nat} {prompt : List Nat}

lemma Begun.needsLogits (begun : Begun job start) : job.needsLogits = true := by
  unfold Job.needsLogits GenerationOptions.hasProcessors
  rw [begun.logprobs, Bool.or_true]

lemma plainRound_curPos (st : LoopState S D) : (r.plainRound job st).curPos = st.curPos + 1 := by
  unfold Speculator.plainRound
  split_ifs
  · rfl
  · rfl

lemma plainRound_rows (st : LoopState S D) :
    (r.plainRound job st).rows = r.writeColumn job st.curPos st.rows
      (r.forwardRound job st.session st.rows st.prevPos st.curPos).1 := by
  unfold Speculator.plainRound
  split_ifs
  · rfl
  · rfl

lemma rounds_curPos (st : LoopState S D) (k : Nat) :
    ((r.plainRound job)^[k] st).curPos = st.curPos + k := by
  induction k with
  | zero => rfl
  | succ k ih => rw [Function.iterate_succ_apply', plainRound_curPos, ih, Nat.add_assoc]

lemma recordedRounds_loop (st : Recorded S D F) (k : Nat) :
    ((r.recordedRound job)^[k] st).loop = (r.plainRound job)^[k] st.loop := by
  induction k with
  | zero => rfl
  | succ k ih =>
    rw [Function.iterate_succ_apply', Function.iterate_succ_apply', ← ih]
    rfl

lemma outputs_length (needed : job.needsLogits = true) (st : LoopState S D) :
    (r.forwardRound job st.session st.rows st.prevPos st.curPos).1.length = st.rows.length := by
  unfold Speculator.forwardRound
  rw [if_pos needed]
  refine (r.forward_length ..).trans ?_
  rw [columns, List.length_map]

@[simp]
lemma tokensAt_length (stop : Nat) :
    (r.tokensAt job start i prompt stop).length = stop - prompt.length := by
  rw [tokensAt, List.length_map, List.length_range']

lemma tokensAt_first {stop : Nat} (le : stop ≤ prompt.length) :
    r.tokensAt job start i prompt stop = [] :=
  List.eq_nil_of_length_eq_zero (by rw [tokensAt_length]; omega)

lemma tokensAt_succ {stop : Nat} (past : prompt.length ≤ stop) :
    r.tokensAt job start i prompt (stop + 1) =
      r.tokensAt job start i prompt stop ++ [r.drawn job start i stop] := by
  have last : prompt.length + (stop - prompt.length) = stop := by omega
  rw [tokensAt, tokensAt, Nat.succ_sub past, List.range'_1_concat, List.map_append, last]
  rfl

lemma tokensAt_dropLast (stop : Nat) :
    (r.tokensAt job start i prompt stop).dropLast = r.tokensAt job start i prompt (stop - 1) := by
  rcases Nat.lt_or_ge prompt.length stop with past | first
  · obtain ⟨pos, rfl⟩ : ∃ pos, stop = pos + 1 := ⟨stop - 1, by omega⟩
    rw [tokensAt_succ (by omega), List.dropLast_concat, Nat.add_sub_cancel]
  · rw [tokensAt_first first, tokensAt_first (by omega), List.dropLast_nil]

lemma ended_tokensAt (here : job.prompts[i]? = some prompt) (stop : Nat) :
    r.eosId ∈ r.tokensAt job start i prompt stop ↔ ∃ pos < stop, r.Ends job start i pos := by
  rw [tokensAt, List.mem_map]
  constructor
  · rintro ⟨pos, inside, drawn⟩
    obtain ⟨past, lt⟩ := List.mem_range'_1.mp inside
    exact ⟨pos, by omega, prompt, here, past, drawn⟩
  · rintro ⟨pos, lt, own, here', past, drawn⟩
    obtain rfl := Option.some.inj (here.symm.trans here')
    exact ⟨pos, List.mem_range'_1.mpr (by omega), drawn⟩

/-- A row after some rounds, and its entries. -/
structure RowAt (r : Recorder S L D F) (job : Job) (start : LoopState S D) (i : Nat)
    (prompt : List Nat) (st : Recorded S D F) : Prop where
  row : st.loop.rows[i]? = some (Decoder.holding r.eosId job.totalLen st.loop.curPos prompt
    (r.tokensAt job start i prompt st.loop.curPos))
  entries : ∃ entries, st.logprobRows[i]? = some entries ∧
    entries.map LogprobEntry.tokenId = r.tokensAt job start i prompt st.loop.curPos

lemma RowAt.round (begun : Begun job start) (k : Nat) {st : Recorded S D F}
    (loop : st.loop = (r.plainRound job)^[k] start) (lt : st.loop.curPos < job.totalLen)
    (rowAt : RowAt r job start i prompt st) :
    RowAt r job start i prompt (r.recordedRound job st) := by
  have position : st.loop.curPos = start.curPos + k := by rw [loop, rounds_curPos]
  have counts := outputs_length (r := r) begun.needsLogits st.loop
  obtain ⟨entries, logged, recorded⟩ := rowAt.entries
  have row := rowAt.row
  have member : i < st.loop.rows.length := (List.getElem?_eq_some_iff.mp row).1
  obtain ⟨output, out⟩ : ∃ output, (r.forwardRound job st.loop.session st.loop.rows
      st.loop.prevPos st.loop.curPos).1[i]? = some output :=
    ⟨_, List.getElem?_eq_getElem (by rw [counts]; exact member)⟩
  have pair : (st.loop.rows.zip (r.forwardRound job st.loop.session st.loop.rows
      st.loop.prevPos st.loop.curPos).1)[i]? = some (Decoder.holding r.eosId job.totalLen
        st.loop.curPos prompt (r.tokensAt job start i prompt st.loop.curPos), output) :=
    List.getElem?_zip_eq_some.mpr ⟨row, out⟩
  have next : (r.recordedRound job st).loop.curPos = st.loop.curPos + 1 := plainRound_curPos _
  have written : (r.recordedRound job st).loop.rows[i]? =
      some (r.write job.options st.loop.curPos (Decoder.holding r.eosId job.totalLen
        st.loop.curPos prompt (r.tokensAt job start i prompt st.loop.curPos)) output) := by
    show (r.plainRound job st.loop).rows[i]? = _
    rw [plainRound_rows, Speculator.writeColumn, List.getElem?_zipWith, row, out]
  have noted : (r.recordedRound job st).logprobRows[i]? =
      some (r.recordRow job st.loop.curPos (Decoder.holding r.eosId job.totalLen
        st.loop.curPos prompt (r.tokensAt job start i prompt st.loop.curPos)) output entries) := by
    unfold recordedRound
    rw [begun.logprobs, begun.needsLogits, Bool.and_self, if_pos rfl]
    show (r.recordGenerationLogprobs ..)[i]? = _
    unfold recordGenerationLogprobs
    rw [List.getElem?_zipWith, pair, logged]
  have masked : (Decoder.holding r.eosId job.totalLen st.loop.curPos prompt
      (r.tokensAt job start i prompt st.loop.curPos)).mask.getD st.loop.curPos false =
      decide (st.loop.curPos < prompt.length) := Decoder.mask_getD ..
  unfold recordRow at noted
  rw [masked] at noted
  rcases Nat.lt_or_ge st.loop.curPos prompt.length with inside | past
  · rw [decide_eq_true inside, if_pos rfl] at noted
    refine ⟨?_, entries, noted, ?_⟩
    · rw [written, next, tokensAt_first inside.le, tokensAt_first (by omega),
        Decoder.holding_init _ inside.le, Decoder.holding_init _ inside,
        Decoder.write_prompt _ inside]
    · rw [recorded, next, tokensAt_first inside.le, tokensAt_first (by omega)]
  · have front : (prompt.map Int.ofNat ++ r.tokensAt job start i prompt st.loop.curPos).length =
        st.loop.curPos := by
      rw [List.length_append, List.length_map, tokensAt_length]
      omega
    have fed : (Decoder.holding r.eosId job.totalLen st.loop.curPos prompt
        (r.tokensAt job start i prompt st.loop.curPos)).tokens.take st.loop.curPos =
        prompt.map Int.ofNat ++ r.tokensAt job start i prompt st.loop.curPos :=
      List.take_left' front
    have drawn : r.drawn job start i st.loop.curPos = r.pick job.options
        (prompt.map Int.ofNat ++ r.tokensAt job start i prompt st.loop.curPos) output := by
      have back : st.loop.curPos - start.curPos = k := by omega
      unfold Recorder.drawn draws
      rw [back, ← loop, List.getD_eq_getElem?_getD, List.getElem?_zipWith, row, out]
      dsimp only
      rw [fed]
      rfl
    rw [decide_eq_false (by omega), if_neg Bool.false_ne_true] at noted
    refine ⟨?_, _, noted, ?_⟩
    · rw [written, next, Decoder.write_holding _ (tokensAt_length _) past lt, tokensAt_succ past,
        drawn]
    · rw [List.map_append, List.map_singleton, recorded, next, tokensAt_succ past, drawn, fed]

end Recorder

namespace Recorder

variable {r : Recorder S L D F} {job : Job} {start : LoopState S D} {i : Nat} {prompt : List Nat}

lemma rowAt_fresh (begun : Begun job start) (here : job.prompts[i]? = some prompt) :
    RowAt r job start i prompt (fresh start) := by
  have first := begun.first prompt (List.mem_of_getElem? here)
  have row : start.rows[i]? = some (Row.init job.totalLen prompt) := by
    rw [begun.rows, List.getElem?_map, here]
    rfl
  refine ⟨?_, [], ?_, ?_⟩
  · show start.rows[i]? = some (Decoder.holding r.eosId job.totalLen start.curPos prompt
      (r.tokensAt job start i prompt start.curPos))
    rw [tokensAt_first first, Decoder.holding_init _ first, row]
  · show (start.rows.map fun _ => [])[i]? = some []
    rw [List.getElem?_map, row]
    rfl
  · exact (tokensAt_first first).symm

lemma rowAt_rounds (begun : Begun job start) (here : job.prompts[i]? = some prompt) {k : Nat}
    (le : start.curPos + k ≤ job.totalLen) :
    RowAt r job start i prompt ((r.recordedRound job)^[k] (fresh start)) := by
  induction k with
  | zero => exact rowAt_fresh begun here
  | succ k ih =>
    have loop : ((r.recordedRound job)^[k] (fresh start)).loop = (r.plainRound job)^[k] start :=
      recordedRounds_loop _ k
    rw [Function.iterate_succ_apply']
    refine RowAt.round begun k loop ?_ (ih (by omega))
    rw [loop, rounds_curPos]
    exact Nat.lt_of_succ_le le

lemma rows_length (begun : Begun job start) (k : Nat) :
    ((r.recordedRound job)^[k] (fresh start)).loop.rows.length = job.prompts.length := by
  induction k with
  | zero =>
    show start.rows.length = _
    rw [begun.rows, List.length_map]
  | succ k ih =>
    rw [Function.iterate_succ_apply', ← ih]
    show (r.plainRound job _).rows.length = _
    rw [plainRound_rows, Speculator.writeColumn, List.length_zipWith,
      outputs_length begun.needsLogits, Nat.min_self]

lemma logprobRows_length (begun : Begun job start) (k : Nat) :
    ((r.recordedRound job)^[k] (fresh start)).logprobRows.length = job.prompts.length := by
  induction k with
  | zero =>
    show (start.rows.map fun _ => []).length = _
    rw [begun.rows, List.length_map, List.length_map]
  | succ k ih =>
    have rows := rows_length (r := r) begun k
    rw [Function.iterate_succ_apply']
    generalize (r.recordedRound job)^[k] (fresh start) = st at ih rows
    unfold recordedRound
    rw [begun.logprobs, begun.needsLogits, Bool.and_self, if_pos rfl]
    unfold recordGenerationLogprobs
    rw [List.length_zipWith, List.length_zip, outputs_length begun.needsLogits, rows, ih,
      Nat.min_self, Nat.min_self]

lemma allFinished_iff (begun : Begun job start) {k : Nat} (le : start.curPos + k ≤ job.totalLen) :
    ((r.recordedRound job)^[k] (fresh start)).loop.rows.all Row.finished = true ↔
      ∀ i < job.prompts.length, ∃ pos < start.curPos + k, r.Ends job start i pos := by
  have position : ((r.recordedRound job)^[k] (fresh start)).loop.curPos = start.curPos + k := by
    rw [recordedRounds_loop, rounds_curPos]
    rfl
  have length := rows_length (r := r) begun k
  have finished {i : Nat} (lt : i < job.prompts.length)
      (inside : i < ((r.recordedRound job)^[k] (fresh start)).loop.rows.length) :
      ((r.recordedRound job)^[k] (fresh start)).loop.rows[i].finished = true ↔
        ∃ pos < start.curPos + k, r.Ends job start i pos := by
    have here := List.getElem?_eq_getElem lt
    have row := (rowAt_rounds (r := r) begun here le).row
    rw [List.getElem?_eq_getElem inside, position] at row
    rw [Option.some.inj row, ← ended_tokensAt here]
    exact List.contains_iff_mem
  rw [List.all_eq_true]
  constructor
  · intro all i lt
    have inside : i < ((r.recordedRound job)^[k] (fresh start)).loop.rows.length := by omega
    exact (finished lt inside).mp (all _ (List.getElem_mem inside))
  · intro all row member
    obtain ⟨i, inside, rfl⟩ := List.getElem_of_mem member
    have lt : i < job.prompts.length := by omega
    exact (finished lt inside).mpr (all i lt)

lemma recordedStep_eq (begun : Begun job start) (st : Recorded S D F) :
    r.recordedStep job st = some (r.recordedRound job st) := by
  have noDrafts : verified job st.loop = none := by
    unfold verified
    rw [begun.needsLogits]
    simp
  unfold recordedStep
  rw [noDrafts]

lemma recordedLoop_eq (begun : Begun job start) (fuel : Nat) {k : Nat}
    (le : start.curPos + k ≤ job.totalLen) (enough : job.totalLen ≤ start.curPos + k + fuel)
    (running : ∀ j, 0 < j → j ≤ k →
      ¬ ((r.recordedRound job)^[j] (fresh start)).loop.rows.all Row.finished = true) :
    ∃ st, r.recordedLoop job fuel ((r.recordedRound job)^[k] (fresh start)) = some st ∧
      r.Done job start st := by
  have before : ∀ j, 0 < j → j < k →
      ¬ ((r.recordedRound job)^[j] (fresh start)).loop.rows.all Row.finished = true :=
    fun j positive lt => running j positive lt.le
  induction fuel generalizing k with
  | zero => exact ⟨_, rfl, k, rfl, le, Or.inl (by omega), before⟩
  | succ fuel ih =>
    have position : ((r.recordedRound job)^[k] (fresh start)).loop.curPos = start.curPos + k := by
      rw [recordedRounds_loop, rounds_curPos]
      rfl
    unfold recordedLoop
    rw [position]
    split_ifs with more
    · rw [recordedStep_eq begun]
      dsimp only
      rw [← Function.iterate_succ_apply' (r.recordedRound job)]
      split_ifs with all
      · exact ⟨_, rfl, k + 1, rfl, more, Or.inr ⟨Nat.succ_pos k, all⟩,
          fun j positive lt => running j positive (Nat.lt_succ_iff.mp lt)⟩
      · have running' : ∀ j, 0 < j → j ≤ k + 1 →
            ¬ ((r.recordedRound job)^[j] (fresh start)).loop.rows.all Row.finished = true := by
          intro j positive le'
          rcases Nat.lt_or_eq_of_le le' with earlier | rfl
          · exact running j positive (Nat.lt_succ_iff.mp earlier)
          · exact all
        exact ih more (by omega) running' fun j positive lt => running' j positive lt.le
    · exact ⟨_, rfl, k, rfl, le, Or.inl (by omega), before⟩

end Recorder

namespace Recorder

variable {r : Recorder S L D F} {job : Job} {start : LoopState S D} {maxNewTokens : Nat}

lemma rowAligned_iff (begun : Begun job start) {i : Nat} {prompt : List Nat}
    (here : job.prompts[i]? = some prompt) {stop : Nat} {entries : List (LogprobEntry F)}
    (recorded : entries.map LogprobEntry.tokenId = r.tokensAt job start i prompt stop)
    (isOver : stop = job.totalLen ∨ r.eosId ∈ r.tokensAt job start i prompt stop) :
    Aligned r.eosId (r.finish maxNewTokens prompt (Decoder.holding r.eosId job.totalLen stop prompt
        (r.tokensAt job start i prompt stop))) entries ↔
      (∀ pos, r.Ends job start i pos → stop ≤ pos + 1) ∧
        (stop ≤ prompt.length + maxNewTokens ∨ stop = prompt.length + maxNewTokens + 1 ∧
          r.Ends job start i (prompt.length + maxNewTokens)) := by
  have fits := begun.fits prompt (List.mem_of_getElem? here)
  rw [Decoder.finish_holding isOver, aligned_cut recorded, tokensAt_dropLast,
    ended_tokensAt here, ended_tokensAt here, tokensAt_length]
  constructor
  · rintro ⟨early, room⟩
    have first : ∀ pos, r.Ends job start i pos → stop ≤ pos + 1 := by
      intro pos ends
      by_contra later
      exact early ⟨pos, by omega, ends⟩
    refine ⟨first, ?_⟩
    rcases room with enough | ⟨more, pos, lt, ends⟩
    · exact Or.inl (by omega)
    · have le := first pos ends
      obtain rfl : pos = prompt.length + maxNewTokens := by omega
      exact Or.inr ⟨by omega, ends⟩
  · rintro ⟨first, room⟩
    refine ⟨?_, ?_⟩
    · rintro ⟨pos, lt, ends⟩
      have le := first pos ends
      omega
    · rcases room with enough | ⟨rfl, ends⟩
      · exact Or.inl (by omega)
      · exact Or.inr ⟨by omega, _, Nat.lt_succ_self _, ends⟩

lemma EndTogetherAt.stop_eq (begun : Begun job start) {stop n : Nat}
    (together : r.EndTogetherAt job start maxNewTokens stop)
    (le : start.curPos + n ≤ job.totalLen)
    (isOver : start.curPos + n = job.totalLen ∨ 0 < n ∧
      ((r.recordedRound job)^[n] (fresh start)).loop.rows.all Row.finished = true)
    (running : ∀ j, 0 < j → j < n →
      ¬ ((r.recordedRound job)^[j] (fresh start)).loop.rows.all Row.finished = true) :
    stop = start.curPos + n := by
  have first := together.first
  have inside := together.le
  rcases Nat.lt_trichotomy stop (start.curPos + n) with early | same | late
  · -- the rounds end at `stop` already
    exfalso
    rcases together.ended with full | ⟨pos, rfl, all⟩
    · omega
    · obtain ⟨prompt, here, past, -⟩ := all 0 (List.length_pos_of_ne_nil begun.some)
      have begins := begun.first prompt (List.mem_of_getElem? here)
      have count : start.curPos + (pos + 1 - start.curPos) = pos + 1 := by omega
      refine running (pos + 1 - start.curPos) (by omega) (by omega) ?_
      rw [allFinished_iff begun (by omega), count]
      exact fun i lt => ⟨pos, Nat.lt_succ_self pos, all i lt⟩
  · exact same
  · -- a row has ended before `stop`
    exfalso
    rcases isOver with full | ⟨-, all⟩
    · omega
    · obtain ⟨pos, lt, ends⟩ := (allFinished_iff begun le).mp all 0
        (List.length_pos_of_ne_nil begun.some)
      have le := together.none 0 pos ends
      omega

lemma allAligned_iff (begun : Begun job start) {n : Nat} (le : start.curPos + n ≤ job.totalLen)
    (isOver : start.curPos + n = job.totalLen ∨
      ((r.recordedRound job)^[n] (fresh start)).loop.rows.all Row.finished = true) :
    List.Forall₂ (Aligned r.eosId)
        (r.completions job.prompts maxNewTokens
          ((r.recordedRound job)^[n] (fresh start)).loop.rows)
        ((r.recordedRound job)^[n] (fresh start)).logprobRows ↔
      ∀ i prompt, job.prompts[i]? = some prompt →
        (∀ pos, r.Ends job start i pos → start.curPos + n ≤ pos + 1) ∧
        (start.curPos + n ≤ prompt.length + maxNewTokens ∨
          start.curPos + n = prompt.length + maxNewTokens + 1 ∧
            r.Ends job start i (prompt.length + maxNewTokens)) := by
  have position : ((r.recordedRound job)^[n] (fresh start)).loop.curPos = start.curPos + n := by
    rw [recordedRounds_loop, rounds_curPos]
    rfl
  have rows := rows_length (r := r) begun n
  have logs := logprobRows_length (r := r) begun n
  have all := allFinished_iff (r := r) begun le
  have each (i : Nat) (prompt : List Nat) (here : job.prompts[i]? = some prompt) :=
    rowAt_rounds (r := r) begun here le
  generalize (r.recordedRound job)^[n] (fresh start) = st at position rows logs all each isOver
  have length : (r.completions job.prompts maxNewTokens st.loop.rows).length =
      job.prompts.length := by
    rw [Speculator.completions, List.length_zipWith, rows, Nat.min_self]
  have pair {i : Nat} {prompt : List Nat} (here : job.prompts[i]? = some prompt) :
      ∃ completion entries, (r.completions job.prompts maxNewTokens st.loop.rows)[i]? =
          some completion ∧ st.logprobRows[i]? = some entries ∧
        (Aligned r.eosId completion entries ↔
          (∀ pos, r.Ends job start i pos → start.curPos + n ≤ pos + 1) ∧
          (start.curPos + n ≤ prompt.length + maxNewTokens ∨
            start.curPos + n = prompt.length + maxNewTokens + 1 ∧
              r.Ends job start i (prompt.length + maxNewTokens))) := by
    obtain ⟨row, entries, logged, recorded⟩ := each i prompt here
    rw [position] at row recorded
    refine ⟨_, entries, ?_, logged, rowAligned_iff begun here recorded ?_⟩
    · rw [Speculator.completions, List.getElem?_zipWith, here, row]
      rfl
    · rcases isOver with full | ended
      · exact Or.inl full
      · exact Or.inr ((ended_tokensAt here _).mpr
          (all.mp ended i (List.getElem?_eq_some_iff.mp here).1))
  rw [List.forall₂_iff_get]
  constructor
  · rintro ⟨-, aligned⟩ i prompt here
    obtain ⟨completion, entries, kept, logged, iff⟩ := pair here
    obtain ⟨lt, rfl⟩ := List.getElem?_eq_some_iff.mp kept
    obtain ⟨lt', rfl⟩ := List.getElem?_eq_some_iff.mp logged
    exact iff.mp (aligned i lt lt')
  · intro good
    refine ⟨length.trans logs.symm, fun i lt lt' => ?_⟩
    have here := List.getElem?_eq_getElem (lt.trans_eq length)
    obtain ⟨completion, entries, kept, logged, iff⟩ := pair here
    obtain ⟨_, rfl⟩ := List.getElem?_eq_some_iff.mp kept
    obtain ⟨_, rfl⟩ := List.getElem?_eq_some_iff.mp logged
    exact iff.mpr (good i _ here)

end Recorder

section

variable [DecidableEq K] {r : Recorder S L D F} {settings : Settings} {options : GenerationOptions}
  {snap : Option (Snapshots K S)} {hint : Option (SnapshotHint K)} {s : S} {drafter : D}
  {prompts : List (List Nat)} {maxNewTokens : Int} {job : Job} {start : LoopState S D}

lemma begun_of_begin (enabled : options.logprobs = true)
    (begins : r.begin settings options snap hint s drafter prompts maxNewTokens =
      some (job, start)) :
    Recorder.Begun job start ∧ job.prompts = prompts ∧ start.curPos ≤ job.totalLen ∧
      job.totalLen ≤ maxLen prompts + maxNewTokens.toNat := by
  obtain ⟨some, fits, count, rfl⟩ := possible_of_begin begins
  have longest := Decoder.maxLen_le fits
  unfold Speculator.begin at begins
  dsimp only at begins
  split_ifs at begins with possible
  obtain ⟨rfl, rfl⟩ := Prod.mk.inj (Option.some.inj begins)
  have inside : ∀ prompt ∈ prompts, prompt.length ≤
      (min (r.maxSeqLen : Int) (count + maxLen prompts)).toNat := by
    intro prompt member
    have le : prompt.length ≤ maxLen prompts := Decoder.le_maxLen member
    omega
  have short : minLen prompts ≤ (min (r.maxSeqLen : Int) (count + maxLen prompts)).toNat := by
    obtain ⟨first, rest, rfl⟩ := List.exists_cons_of_ne_nil some
    exact (Decoder.minLen_le List.mem_cons_self).trans (inside first List.mem_cons_self)
  refine ⟨⟨rfl, fun _ member => Decoder.minLen_le member, inside, some, enabled⟩, rfl, short, ?_⟩
  show (min (r.maxSeqLen : Int) (count + maxLen prompts)).toNat ≤ _
  omega

lemma loop_aligned_iff {st : Recorded S D F} {maxNewTokens : Nat}
    (begun : Recorder.Begun job start) (done : r.Done job start st) :
    List.Forall₂ (Aligned r.eosId) (r.completions job.prompts maxNewTokens st.loop.rows)
        st.logprobRows ↔ r.EndTogether job start maxNewTokens := by
  obtain ⟨n, rfl, le, isOver, running⟩ := done
  refine (Recorder.allAligned_iff begun le (isOver.imp id And.right)).trans ?_
  constructor
  · intro each
    refine ⟨start.curPos + n, Nat.le_add_right .., le, ?_, ?_, fun i prompt here =>
      (each i prompt here).2⟩
    · rcases isOver with full | ⟨positive, all⟩
      · exact Or.inl full
      · refine Or.inr ⟨start.curPos + n - 1, by omega, fun i lt => ?_⟩
        obtain ⟨pos, inside, ends⟩ := (Recorder.allFinished_iff begun le).mp all i lt
        have last := (each i _ (List.getElem?_eq_getElem lt)).1 pos ends
        have same : start.curPos + n - 1 = pos := by omega
        rw [same]
        exact ends
    · intro i pos ends
      obtain ⟨prompt, here, -⟩ := id ends
      exact (each i prompt here).1 pos ends
  · rintro ⟨stop, together⟩
    obtain rfl := together.stop_eq begun le isOver running
    exact fun i prompt here => ⟨together.none i, together.room i prompt here⟩

lemma generateRecorded_eq (enabled : options.logprobs = true)
    (begins : r.begin settings options snap hint s drafter prompts maxNewTokens =
      some (job, start)) :
    ∃ st generated, r.generateRecorded settings options snap hint s drafter prompts maxNewTokens =
        some (generated, some st.logprobRows) ∧
      generated.completionTokens = r.completions prompts maxNewTokens st.loop.rows ∧
      r.Done job start st := by
  obtain ⟨begun, -, short, -⟩ := begun_of_begin enabled begins
  obtain ⟨st, looped, done⟩ := Recorder.recordedLoop_eq (r := r) begun job.totalLen
    (k := 0) short (Nat.le_add_left ..) fun j positive le => absurd positive (by omega)
  rw [Function.iterate_zero_apply] at looped
  let generated : Speculator.Generated S :=
    { completionTokens := r.completions prompts maxNewTokens st.loop.rows
      prefillTokens := (prompts.map List.length).sum
      decodeTokens := st.loop.decodeTokens
      session := st.loop.session }
  refine ⟨st, generated, ?_, rfl, done⟩
  unfold Recorder.generateRecorded
  rw [begins]
  dsimp only
  rw [looped, enabled]
  rfl

/-- With `logprobs` every row's entries are about the tokens of its completion if and only if the
rows end together. -/
theorem logprobs_aligned_iff (r : Recorder S L D F) (settings : Settings)
    (options : GenerationOptions) (enabled : options.logprobs = true)
    (snap : Option (Snapshots K S)) (hint : Option (SnapshotHint K)) (s : S) (drafter : D)
    (prompts : List (List Nat)) (maxNewTokens : Int)
    (begins : r.begin settings options snap hint s drafter prompts maxNewTokens =
      some (job, start)) :
    ∃ generated logprobRows,
      r.generateRecorded settings options snap hint s drafter prompts maxNewTokens =
        some (generated, some logprobRows) ∧
      (List.Forall₂ (Aligned r.eosId) generated.completionTokens logprobRows ↔
        r.EndTogether job start maxNewTokens.toNat) := by
  obtain ⟨st, generated, result, completions, done⟩ := generateRecorded_eq enabled begins
  obtain ⟨begun, rfl, -, -⟩ := begun_of_begin enabled begins
  refine ⟨generated, st.logprobRows, result, ?_⟩
  rw [completions]
  exact loop_aligned_iff begun done

lemma endTogether_alone {maxNewTokens : Nat} {prompt : List Nat}
    (only : job.prompts = [prompt]) (begun : Recorder.Begun job start)
    (room : job.totalLen ≤ prompt.length + maxNewTokens) :
    r.EndTogether job start maxNewTokens := by
  classical
  have member : prompt ∈ job.prompts := only ▸ List.mem_singleton_self prompt
  have short := begun.first prompt member
  have fits := begun.fits prompt member
  have single {i : Nat} {own : List Nat} (here : job.prompts[i]? = some own) :
      i = 0 ∧ own = prompt := by
    rw [only] at here
    cases i with
    | zero => exact ⟨rfl, (Option.some.inj here).symm⟩
    | succ i => cases here
  by_cases ends : ∃ pos, pos + 1 ≤ job.totalLen ∧ r.Ends job start 0 pos
  · obtain ⟨inside, ended⟩ := Nat.find_spec ends
    obtain ⟨own, here, past, -⟩ := id ended
    obtain ⟨-, rfl⟩ := single here
    refine ⟨Nat.find ends + 1, by omega, inside, Or.inr ⟨_, rfl, fun i lt => ?_⟩, ?_, ?_⟩
    · rw [only, List.length_singleton] at lt
      obtain rfl : i = 0 := by omega
      exact ended
    · intro i pos more
      obtain ⟨own, here, -⟩ := id more
      obtain ⟨rfl, -⟩ := single here
      rcases Nat.lt_or_ge pos job.totalLen with lt | ge
      · exact Nat.succ_le_succ (Nat.find_min' ends ⟨lt, more⟩)
      · omega
    · intro i own here
      obtain ⟨-, rfl⟩ := single here
      exact Or.inl (inside.trans room)
  · push Not at ends
    refine ⟨job.totalLen, by omega, le_refl _, Or.inl rfl, ?_, ?_⟩
    · intro i pos more
      obtain ⟨own, here, -⟩ := id more
      obtain ⟨rfl, -⟩ := single here
      rcases Nat.lt_or_ge pos job.totalLen with lt | ge
      · exact absurd more (ends pos lt)
      · omega
    · intro i own here
      obtain ⟨-, rfl⟩ := single here
      exact Or.inl room

/-- A request by itself gets entries for its completion. -/
theorem logprobs_alone {prompt : List Nat} (enabled : options.logprobs = true)
    (begins : r.begin settings options snap hint s drafter [prompt] maxNewTokens =
      some (job, start)) :
    ∃ generated logprobRows,
      r.generateRecorded settings options snap hint s drafter [prompt] maxNewTokens =
        some (generated, some logprobRows) ∧
      List.Forall₂ (Aligned r.eosId) generated.completionTokens logprobRows := by
  obtain ⟨st, generated, result, completions, done⟩ := generateRecorded_eq enabled begins
  obtain ⟨begun, only, -, room⟩ := begun_of_begin enabled begins
  refine ⟨generated, st.logprobRows, result, ?_⟩
  rw [completions, ← only]
  refine (loop_aligned_iff begun done).mpr (endTogether_alone only begun ?_)
  rwa [maxLen, List.map_singleton, List.foldr_cons, List.foldr_nil, Nat.max_zero] at room

end

namespace Recorder

variable {r : Recorder S L D F} {job : Job}

end Recorder

/-- A model that counts: the next token is one more than the last one, and 9 is the end mark. -/
def counting : Recorder Unit (List Int) Unit Unit where
  maxSeqLen := 12
  maxSeqLen_pos := Nat.succ_pos 11
  eosId := 9
  prefillChunkTokens := 0
  forward s chunk _ := (chunk, s)
  pick _ _ output := output.getLastD 0 + 1
  forwardBoth s chunk _ := (chunk.map fun row => (row, row), s)
  draftWithMtp _ _ _ _ := (none, ())
  draft_length := nofun
  vocabSize := 10
  logprob _ _ _ _ := ()
  topk _ _ _ _ := []
  forward_length _ _ _ := rfl

/-- Options that ask for log probabilities. -/
def withLogprobs : GenerationOptions := { noOptions with logprobs := true }

/-- Two prompts of one token that end together. -/
theorem logprobs_aligned_together :
    ∃ generated logprobRows,
      counting.generateRecorded ⟨false, false, false⟩ withLogprobs
        (none : Option (Snapshots Nat Unit)) none () () [[7], [7]] 4 =
        some (generated, some logprobRows) ∧
      (List.Forall₂ (Aligned 9) generated.completionTokens logprobRows ↔
        counting.EndTogether ⟨⟨false, false, false⟩, withLogprobs, [[7], [7]], 5⟩
          ⟨⟨(), ∅, [], []⟩, (), [[7], [7]].map (Row.init 5), 0, 1, none, 0⟩ 4) :=
  logprobs_aligned_iff counting ⟨false, false, false⟩ withLogprobs rfl none none () () [[7], [7]] 4
    rfl

/-- One prompt: an entry for 8 and one for the end mark. -/
theorem logprobs_alone_seven : ∃ generated logprobRows,
    counting.generateRecorded ⟨false, false, false⟩ withLogprobs
      (none : Option (Snapshots Nat Unit)) none () () [[7]] 4 =
      some (generated, some logprobRows) ∧
    List.Forall₂ (Aligned 9) generated.completionTokens logprobRows :=
  logprobs_alone rfl rfl

/-- The first row ends at once and goes on generating until the second one ends: there is an entry
for a token that is not in its completion. -/
theorem recorded_past_end :
    ∃ generated logprobRows,
      counting.generateRecorded ⟨false, false, false⟩ withLogprobs
        (none : Option (Snapshots Nat Unit)) none () () [[8], [7]] 4 =
        some (generated, some logprobRows) ∧
      generated.completionTokens = [[9], [8, 9]] ∧
      logprobRows.map (List.map LogprobEntry.tokenId) = [[9, 10], [8, 9]] ∧
      ¬ List.Forall₂ (Aligned 9) generated.completionTokens logprobRows := by
  have result : (counting.generateRecorded ⟨false, false, false⟩ withLogprobs
      (none : Option (Snapshots Nat Unit)) none () () [[8], [7]] 4).map (fun result =>
        (result.1.completionTokens, result.2.map (List.map (List.map LogprobEntry.tokenId)))) =
      some ([[9], [8, 9]], some [[9, 10], [8, 9]]) := by decide +kernel
  obtain ⟨⟨generated, logprobRows⟩, returned, fields⟩ := Option.map_eq_some_iff.mp result
  obtain ⟨completions, logged⟩ := Prod.mk.inj fields
  obtain ⟨rows, rfl, ids⟩ := Option.map_eq_some_iff.mp logged
  refine ⟨generated, rows, returned, completions, ids, fun aligned => ?_⟩
  dsimp only at completions
  rw [completions] at aligned
  cases aligned with
  | cons first _ =>
    obtain ⟨recorded, -⟩ := List.cons.inj ids
    unfold Aligned at first
    rw [recorded] at first
    exact absurd first (by decide)

end PocketMoE.Generation
