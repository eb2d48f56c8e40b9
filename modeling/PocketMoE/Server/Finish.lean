import PocketMoE.Generation.Stream

/-!
# How a completion is reported to have ended

A request with one choice is answered at once (`_run_payload`, `_format_completion_result`) or as a
stream (`_run_payload_stream`, the end of `do_POST`). Both report why the completion ended and how
many tokens it has (`openai.py`).

`generate` ends every completion with the end mark, which the model may or may not have generated.
The response at once compares the number of tokens with it to `max_tokens`, the stream has the reason
from the loop. `finish_iff` says for which runs of tokens the two reports are the same, with the
reason `length` for those without an end mark.

The model is pure, so that both calls generate the same tokens.
-/

namespace PocketMoE.Serving
open PocketMoE.Generation PocketMoE.Runtime PocketMoE.Lib

variable {S L D K J : Type}

/-- The tokenizer's `decode`, `parse_message_from_completion_text` and the text of the end mark. -/
structure Texts where
  decode : List Int → String
  parseMessage : String → ThinkingMode → Option Message
  eosToken : String

namespace Texts

variable (x : Texts)

/-- The model with its texts. -/
def runtime (d : Decoder S L) : Runtime S L :=
  { d with decode := x.decode, parseMessage := x.parseMessage, eosToken := x.eosToken }

/-- `final_message`. -/
def finalMessage (tokenIds : List Int) (mode : ThinkingMode) : Message :=
  let text := x.decode tokenIds
  (x.parseMessage text mode).getD
    { content := stripEos x.eosToken text, reasoning := "", toolCalls := [] }

end Texts

/-- `int(payload.get("max_tokens") or 512)`. -/
def Payload.limit (r : Payload J) : Int := if r.maxTokens = 0 then 512 else r.maxTokens

/-- `finish_reason` and the completion tokens of a response. -/
structure Report where
  finishReason : FinishReason
  completionTokens : Nat
deriving DecidableEq

section
variable [DecidableEq K] (x : Texts) (d : Speculator S L D) (settings : Settings)
  (snap : Option (Snapshots K S)) (hint : Option (SnapshotHint K)) (s : S) (drafter : D)

/-- `_run_payload` of one request: what its choices report. -/
def report (r : GreedyRequest J) : Option (List Report) :=
  let n := if r.n = 0 then 1 else r.n
  (d.generate settings r.options snap hint s drafter (List.replicate n r.promptIds) r.limit).map
    fun g => (g.completionTokens.take n).map fun completionIds =>
      let choice := (x.runtime d.toDecoder).formatCompletionResult r.thinkingMode r.promptIds
        completionIds r.stop.strings r.limit
      { finishReason := choice.finishReason, completionTokens := choice.completionTokens }

/-- The end of a stream in `do_POST`; `stopped` is whether a stop text has cut the content. -/
def reportStream (stopped : Bool) (r : GreedyRequest J) : Option Report :=
  (d.generateStream settings r.options snap hint s drafter [r.promptIds] r.limit).map
    fun (events, done) =>
      let message := x.finalMessage (events.flatMap TokenEvent.tokenIds) r.thinkingMode
      { finishReason :=
          if !message.toolCalls.isEmpty then .toolCalls
          else if stopped then .stop
          else done.finishReason
        completionTokens := (done.completionTokens.headD []).length }

end

/-- A run of tokens whose two reports agree: it has an end mark, and either tool calls or room for one
more token; or it has none, and it is too long for one more token and has no tool calls, with the end
mark behind it or not. -/
def Settled (x : Texts) (mode : ThinkingMode) (eosId : Int) (run : List Int) (limit : Int) : Prop :=
  let completion := run.takeWhile (· != eosId) ++ [eosId]
  if eosId ∈ run then
    (x.finalMessage completion mode).toolCalls ≠ [] ∨ (completion.length : Int) < limit
  else
    (x.finalMessage run mode).toolCalls = [] ∧ (x.finalMessage completion mode).toolCalls = [] ∧
      limit ≤ completion.length

variable {x : Texts} {d : Speculator S L D} {output : List Int → L}
  {Holds : List (List Int) → S → Prop}

/-- The tokens that the model generates for a request, up to its limit or the end of its context. -/
def Payload.run (r : Payload J) (d : Speculator S L D) (output : List Int → L) : List Int :=
  d.generated output r.options r.promptIds
    (min r.limit.toNat (d.maxSeqLen - r.promptIds.length))

lemma formatCompletionResult_finish (x : Texts) (d : Decoder S L) (mode : ThinkingMode)
    (promptIds : List Nat) (completionIds : List Int) (limit : Int) :
    ((x.runtime d).formatCompletionResult mode promptIds completionIds [] limit).finishReason =
        (if (x.finalMessage completionIds mode).toolCalls ≠ [] then .toolCalls
          else if limit ≤ completionIds.length then .length
          else .stop) ∧
      ((x.runtime d).formatCompletionResult mode promptIds completionIds [] limit).completionTokens =
        completionIds.length := by
  refine ⟨?_, rfl⟩
  have reason : ((x.runtime d).formatCompletionResult mode promptIds completionIds []
      limit).finishReason =
      if !(x.finalMessage completionIds mode).toolCalls.isEmpty then .toolCalls
      else if limit ≤ completionIds.length then .length
      else .stop := rfl
  rw [reason]
  simp only [Bool.not_eq_true', List.isEmpty_eq_false_iff]

lemma reports_eq [DecidableEq K] (isPure : Pure d output Holds) {settings settings' : Settings}
    {snap snap' : Option (Snapshots K S)} {hint hint' : Option (SnapshotHint K)} {s s' : S}
    {drafter drafter' : D} {r : GreedyRequest J} (one : r.n ≤ 1) (noStops : r.stop.strings = [])
    (exact : RestoresExactly Holds snap hint [r.promptIds] s)
    (exact' : RestoresExactly Holds snap' hint' [r.promptIds] s') {choice choice' : Report}
    (plain : report x d settings snap hint s drafter r = some [choice])
    (streamed : reportStream x d settings' snap' hint' s' drafter' false r = some choice') :
    let run := r.run d output
    let completion := run.takeWhile (· != d.eosId) ++ [d.eosId]
    choice = ⟨if (x.finalMessage completion r.thinkingMode).toolCalls ≠ [] then .toolCalls
        else if r.limit ≤ completion.length then .length else .stop, completion.length⟩ ∧
      choice' = ⟨if (x.finalMessage (if d.eosId ∈ run then completion else run)
          r.thinkingMode).toolCalls ≠ [] then .toolCalls
        else if d.eosId ∈ run then .stop else .length, completion.length⟩ := by
  intro run completion
  have single : (if r.n = 0 then 1 else r.n) = 1 := by
    split_ifs
    · rfl
    · omega
  rw [report, single] at plain
  obtain ⟨g, generated, choices⟩ := Option.map_eq_some_iff.mp plain
  obtain ⟨-, fits, count, limit⟩ := possible_of_generate generated
  have fits' : r.promptIds.length ≤ d.maxSeqLen := fits _ (List.mem_singleton_self _)
  have tokens : run = d.generated output r.options r.promptIds
      (min count (d.maxSeqLen - r.promptIds.length)) := by
    show r.run d output = _
    rw [Payload.run, limit, Int.toNat_natCast]
  have both := isPure.stream_run settings r.options drafter count fits' exact
  have both' := isPure.stream_run settings' r.options drafter' count fits' exact'
  rw [← tokens] at both both'
  obtain ⟨g', -, -, again, -, completions, -⟩ := both
  obtain ⟨-, events, done, -, streams, -, completions', yielded, reason⟩ := both'
  rw [← limit] at again streams
  obtain rfl : g = g' := Option.some.inj (generated.symm.trans again)
  rw [reportStream, streams] at streamed
  refine ⟨?_, ?_⟩
  · rw [completions] at choices
    obtain ⟨finish, length⟩ := formatCompletionResult_finish x d.toDecoder r.thinkingMode
      r.promptIds completion r.limit
    rw [← (List.cons.inj choices).1, noStops]
    exact congrArg₂ Report.mk finish length
  · rw [← Option.some.inj streamed]
    dsimp only
    rw [yielded, completions', reason]
    refine congrArg₂ Report.mk ?_ rfl
    simp only [Bool.not_eq_true', List.isEmpty_eq_false_iff, Bool.false_eq_true, if_false]
    rfl

lemma reasons_ended (calls : List ToolCall) (limit : Int) (length : Nat) :
    ((if calls ≠ [] then FinishReason.toolCalls
          else if limit ≤ length then .length else .stop) =
        (if calls ≠ [] then .toolCalls else .stop) ∧
      ¬ (if calls ≠ [] then FinishReason.toolCalls else .stop) = .length) ↔
      calls ≠ [] ∨ (length : Int) < limit := by
  by_cases some : calls ≠ []
  · rw [if_pos some, if_pos some]
    exact ⟨fun _ => Or.inl some, fun _ => ⟨rfl, nofun⟩⟩
  · rw [if_neg some, if_neg some]
    rcases lt_or_ge (length : Int) limit with room | none
    · rw [if_neg room.not_ge]
      exact ⟨fun _ => Or.inr room, fun _ => ⟨rfl, nofun⟩⟩
    · rw [if_pos none]
      refine ⟨fun same => (nomatch same.1), fun settled => ?_⟩
      exact absurd (settled.resolve_left some) none.not_gt

lemma reasons_cut (calls calls' : List ToolCall) (limit : Int) (length : Nat) :
    ((if calls ≠ [] then FinishReason.toolCalls
          else if limit ≤ length then .length else .stop) =
        (if calls' ≠ [] then .toolCalls else .length) ∧
      (if calls' ≠ [] then FinishReason.toolCalls else .length) = .length) ↔
      calls' = [] ∧ calls = [] ∧ limit ≤ length := by
  by_cases some' : calls' ≠ []
  · rw [if_pos some']
    exact ⟨fun same => (nomatch same.2), fun settled => absurd settled.1 some'⟩
  · rw [if_neg some']
    by_cases some : calls ≠ []
    · rw [if_pos some]
      exact ⟨fun same => (nomatch same.1), fun settled => absurd settled.2.1 some⟩
    · rw [if_neg some]
      by_cases long : limit ≤ length
      · rw [if_pos long]
        exact ⟨fun _ => ⟨not_not.mp some', not_not.mp some, long⟩, fun _ => ⟨rfl, rfl⟩⟩
      · rw [if_neg long]
        exact ⟨fun same => (nomatch same.1), fun settled => absurd settled.2.2 long⟩

/-- The two reports agree, and give the reason `length` to a run without an end mark and to no other,
exactly for the runs that are settled. They always agree on the number of tokens. -/
theorem finish_iff [DecidableEq K] (isPure : Pure d output Holds) {settings settings' : Settings}
    {snap snap' : Option (Snapshots K S)} {hint hint' : Option (SnapshotHint K)} {s s' : S}
    {drafter drafter' : D} {r : GreedyRequest J} (one : r.n ≤ 1) (noStops : r.stop.strings = [])
    (exact : RestoresExactly Holds snap hint [r.promptIds] s)
    (exact' : RestoresExactly Holds snap' hint' [r.promptIds] s') {choice choice' : Report}
    (plain : report x d settings snap hint s drafter r = some [choice])
    (streamed : reportStream x d settings' snap' hint' s' drafter' false r = some choice') :
    choice.completionTokens = choice'.completionTokens ∧
      (choice.finishReason = choice'.finishReason ∧
          choice.completionTokens = choice'.completionTokens ∧
          (choice'.finishReason = .length ↔ d.eosId ∉ r.run d output) ↔
        Settled x r.thinkingMode d.eosId (r.run d output) r.limit) := by
  obtain ⟨rfl, rfl⟩ := reports_eq isPure one noStops exact exact' plain streamed
  refine ⟨rfl, ?_⟩
  unfold Settled
  dsimp only
  generalize (r.run d output).takeWhile (· != d.eosId) ++ [d.eosId] = completion
  by_cases ended : d.eosId ∈ r.run d output
  · simp only [ended, if_true, not_true_eq_false, iff_false, true_and]
    exact reasons_ended _ _ _
  · simp only [ended, if_false, not_false_eq_true, iff_true, true_and]
    exact reasons_cut _ _ _ _

/-- Texts that nobody reads. -/
def quiet : Texts where
  decode _ := ""
  parseMessage _ _ := none
  eosToken := ""

lemma greedy_temperature : Number.finite 0 = .finite 0 := rfl

/-- A request of a prompt for some tokens. -/
def recallRequest (promptIds : List Nat) (maxTokens : Int) : GreedyRequest Unit where
  stream := false
  promptIds := promptIds
  maxTokens := maxTokens
  temperature := .finite 0
  options := noOptions
  stop := .items []
  n := 1
  thinkingMode := .chat
  temperature_eq := greedy_temperature
  logprobs_eq := rfl

/-- The prompt 7 with three tokens to generate: 8, and the end mark as the last but one. -/
theorem finish_iff_room :
    ((⟨.stop, 2⟩ : Report) = ⟨.stop, 2⟩ ∧
      (FinishReason.stop = .length ↔ 9 ∉ (recallRequest [7] 3).run recaller id)) ∧
    Settled quiet .chat 9 ((recallRequest [7] 3).run recaller id) 3 := by
  have plain : report quiet recaller ⟨false, false, false⟩ (some recalledOne) none [] ()
      (recallRequest [7] 3) = some [⟨.stop, 2⟩] := by decide +kernel
  have streamed : reportStream quiet recaller ⟨false, true, false⟩ (some recalledOne) none [] ()
      false (recallRequest [7] 3) = some ⟨.stop, 2⟩ := by decide +kernel
  have ended : 9 ∈ (recallRequest [7] 3).run recaller id := by decide +kernel
  have reason : FinishReason.stop = .length ↔ 9 ∉ (recallRequest [7] 3).run recaller id :=
    ⟨nofun, fun none => absurd ended none⟩
  exact ⟨⟨rfl, reason⟩, (finish_iff recaller_pure (by decide) rfl (recalled_exact [] _)
    (recalled_exact [] _) plain streamed).2.mp ⟨rfl, rfl, reason⟩⟩

/-- With two tokens the end mark is the last one: the response at once says that the completion was
cut, the stream that it has ended. -/
theorem finish_differs : ¬ ∀ choice choice',
    report quiet recaller ⟨false, false, false⟩ (some recalledOne) none [] ()
        (recallRequest [7] 2) = some [choice] →
      reportStream quiet recaller ⟨false, false, false⟩ (some recalledOne) none [] () false
        (recallRequest [7] 2) = some choice' →
      choice.finishReason = choice'.finishReason ∧
        choice.completionTokens = choice'.completionTokens ∧
        (choice'.finishReason = .length ↔ 9 ∉ (recallRequest [7] 2).run recaller id) := by
  intro claim
  have plain : report quiet recaller ⟨false, false, false⟩ (some recalledOne) none [] ()
      (recallRequest [7] 2) = some [⟨.length, 2⟩] := by decide +kernel
  have streamed : reportStream quiet recaller ⟨false, false, false⟩ (some recalledOne) none [] ()
      false (recallRequest [7] 2) = some ⟨.stop, 2⟩ := by decide +kernel
  obtain ⟨same, -⟩ := claim _ _ plain streamed
  cases same

end PocketMoE.Serving
