import PocketMoE.Server.Rows

/-!
# Batches of requests

`_run_payload` (`openai.py`) runs one request alone, with a row for each of its `n` choices, or a
batch of the serving engine, with one row for each request. `transparent_iff` says when every request
of a batch gets the choices it gets alone, for all models whose rows are independent, all tokenizers
and all parsers: for a batch of one, for a negative number of tokens, which both paths refuse, and
else for one choice and a number of tokens that is not zero. A batch loses the other choices of a
request, and runs zero tokens where the request alone gets the default of 512.

The model covers greedy requests without log probabilities. Timings are left out, and so are the
random parts of identifiers.
-/

namespace PocketMoE.Serving

/-- A request that `_make_payload` lets sample nothing and report no probabilities. -/
structure GreedyRequest (J : Type*) extends Payload J where
  temperature_eq : temperature = .finite 0
  logprobs_eq : options.logprobs = false

/-- A tool call of a message, without its identifier. -/
structure ToolCall where
  name : String
  arguments : String
deriving DecidableEq

/-- What `parse_message_from_completion_text` and `_normalize_tool_calls` make of a text. -/
structure Message where
  content : String
  reasoning : String
  toolCalls : List ToolCall
deriving DecidableEq

/-- `finish_reason`. -/
inductive FinishReason where
  | stop
  | length
  | toolCalls
deriving DecidableEq

/-- A choice of a response, with the lengths that its usage is summed from. -/
structure Choice where
  promptTokens : Nat
  completionTokens : Nat
  message : Message
  finishReason : FinishReason
deriving DecidableEq

/-- The model, the tokenizer and the parser of messages, which may raise an exception. -/
structure Runtime (S L : Type) extends Decoder S L where
  decode : List Int → String
  parseMessage : String → ThinkingMode → Option Message
  eosToken : String

/-- `str.find` on lists. -/
def findText (pattern : List Char) : List Char → Option Nat
  | [] => if pattern.isEmpty then some 0 else none
  | c :: rest =>
    if pattern.isPrefixOf (c :: rest) then some 0 else (findText pattern rest).map (· + 1)

/-- The first place where a stop text begins. -/
def earliest (stops : List String) (content : String) : Option Nat :=
  stops.foldl (fun first item =>
    match findText item.toList content.toList, first with
    | some pos, some e => if pos < e then some pos else some e
    | some pos, none => some pos
    | none, first => first) none

/-- `_apply_stop_to_result`. -/
def Choice.applyStop (choice : Choice) (stops : List String) : Choice :=
  match earliest stops choice.message.content with
  | none => choice
  | some pos =>
    { choice with
      message := { choice.message with
        content := String.ofList (choice.message.content.toList.take pos) }
      finishReason := .stop }

lemma Choice.applyStop_completionTokens (choice : Choice) (stops : List String) :
    (choice.applyStop stops).completionTokens = choice.completionTokens := by
  unfold applyStop
  split
  · rfl
  · rfl

/-- `_strip_special_eos`. -/
def stripEos (eosToken text : String) : String :=
  if eosToken.toList.isSuffixOf text.toList then
    String.ofList (text.toList.take (text.length - eosToken.length))
  else text

/-- The prompt that `do_POST` hands on: its end, if all of it does not fit with the new tokens. -/
def truncatePrompt (maxSeqLen : Nat) (maxTokens : Int) (promptIds : List Nat) : List Nat :=
  if 0 < maxSeqLen && (maxSeqLen : Int) < promptIds.length + max maxTokens 1 then
    let keep := max (maxSeqLen - max maxTokens 1) 1
    promptIds.drop (promptIds.length - keep.toNat)
  else promptIds

namespace Runtime

variable {S L : Type} {J : Type*} (rt : Runtime S L)

/-- `_format_completion_result`. -/
def formatCompletionResult (mode : ThinkingMode) (promptIds : List Nat) (completionIds : List Int)
    (stops : List String) (maxTokens : Int) : Choice :=
  let text := rt.decode completionIds
  let message := (rt.parseMessage text mode).getD
    { content := stripEos rt.eosToken text, reasoning := "", toolCalls := [] }
  let finishReason : FinishReason :=
    if !message.toolCalls.isEmpty then .toolCalls
    else if maxTokens ≤ completionIds.length then .length
    else .stop
  Choice.applyStop
    { promptTokens := promptIds.length
      completionTokens := completionIds.length
      message := message
      finishReason := finishReason } stops

/-- `_run_payload` of one request: its choices, unless an exception is raised. -/
def runPayload (s : S) (r : GreedyRequest J) : Option (List Choice) :=
  let maxTokens := if r.maxTokens = 0 then 512 else r.maxTokens
  let n := if r.n = 0 then 1 else r.n
  (rt.generate s (List.replicate n r.promptIds) maxTokens r.options).map fun completions =>
    (completions.take n).map fun completionIds =>
      rt.formatCompletionResult r.thinkingMode r.promptIds completionIds r.stop.strings maxTokens

/-- `_run_payload` of what `_batch_payload` makes of a batch: one choice for each request. The
options and the stop texts are the first request's. -/
def runBatch (s : S) (first : GreedyRequest J) (others : List (GreedyRequest J)) :
    Option (List (List Choice)) :=
  let batch := first :: others
  let maxTokens := first.maxTokens
  if batch.any (fun r => r.maxTokens != maxTokens) then none
  else
    (rt.generate s (batch.map (·.promptIds)) maxTokens first.options).map fun completions =>
      List.zipWith (fun r completionIds =>
        [rt.formatCompletionResult r.thinkingMode r.promptIds completionIds first.stop.strings
          maxTokens]) batch completions

/-- What the requests of a batch get from the serving engine: an exception is every request's. -/
def serve (s : S) (first : GreedyRequest J) (others : List (GreedyRequest J)) :
    List (Option (List Choice)) :=
  if others.isEmpty then [rt.runPayload s first]
  else
    match rt.runBatch s first others with
    | none => (first :: others).map fun _ => none
    | some results => results.map some

/-- The request has come through `do_POST`. -/
def Posted (r : GreedyRequest J) : Prop :=
  ∃ promptIds, r.promptIds = truncatePrompt rt.maxSeqLen r.maxTokens promptIds

variable {rt : Runtime S L} {output : List Int → L}

lemma truncatePrompt_length {maxSeqLen : Nat} (pos : 0 < maxSeqLen) (maxTokens : Int)
    (promptIds : List Nat) : (truncatePrompt maxSeqLen maxTokens promptIds).length ≤ maxSeqLen := by
  unfold truncatePrompt
  split_ifs with long
  · rw [List.length_drop]
    omega
  · simp only [Bool.and_eq_true, decide_eq_true_eq, not_and] at long
    have short := long pos
    omega

lemma Posted.fits {r : GreedyRequest J} (posted : rt.Posted r) :
    r.promptIds.length ≤ rt.maxSeqLen := by
  obtain ⟨promptIds, eq⟩ := posted
  rw [eq]
  exact truncatePrompt_length rt.maxSeqLen_pos r.maxTokens promptIds

variable (rt output)

/-- The choice of a row with its own completion. -/
def choice (mode : ThinkingMode) (promptIds : List Nat) (options : GenerationOptions)
    (stops : List String) (maxTokens : Int) : Choice :=
  rt.formatCompletionResult mode promptIds
    (rt.completion output options maxTokens.toNat promptIds) stops maxTokens

variable {rt output}

lemma runPayload_eq (independent : rt.RowIndependent output) (s : S) {r : GreedyRequest J}
    (fits : r.promptIds.length ≤ rt.maxSeqLen) (enough : 0 ≤ r.maxTokens) :
    rt.runPayload s r = some (List.replicate (if r.n = 0 then 1 else r.n)
      (rt.choice output r.thinkingMode r.promptIds r.options r.stop.strings
        (if r.maxTokens = 0 then 512 else r.maxTokens))) := by
  unfold runPayload
  have one : (if r.n = 0 then 1 else r.n) ≠ 0 := by
    split_ifs with none
    · exact Nat.one_ne_zero
    · exact none
  have enough' : 0 ≤ (if r.maxTokens = 0 then 512 else r.maxTokens) := by
    split_ifs
    · decide
    · exact enough
  generalize (if r.n = 0 then 1 else r.n) = n at one ⊢
  generalize (if r.maxTokens = 0 then 512 else r.maxTokens) = maxTokens at enough' ⊢
  have rows : List.replicate n r.promptIds ≠ [] := fun empty =>
    one (List.replicate_eq_nil_iff _ |>.mp empty)
  have all : ∀ prompt ∈ List.replicate n r.promptIds, prompt.length ≤ rt.maxSeqLen := by
    intro prompt member
    rw [List.eq_of_mem_replicate member]
    exact fits
  simp only [Decoder.generate_eq independent s rows all enough', Option.map_some,
    List.map_replicate, List.take_replicate, Nat.min_self]
  rfl

lemma runPayload_negative (s : S) {r : GreedyRequest J} (negative : r.maxTokens < 0) :
    rt.runPayload s r = none := by
  have same : (if r.maxTokens = 0 then 512 else r.maxTokens) = r.maxTokens := if_neg (by omega)
  simp only [runPayload, same, Decoder.generate_negative s negative, Option.map_none]

variable {first : GreedyRequest J} {others : List (GreedyRequest J)}

lemma runBatch_eq (independent : rt.RowIndependent output) (s : S)
    (fits : ∀ r ∈ first :: others, r.promptIds.length ≤ rt.maxSeqLen)
    (enough : 0 ≤ first.maxTokens) (same : ∀ r ∈ others, r.maxTokens = first.maxTokens) :
    rt.runBatch s first others = some ((first :: others).map fun r =>
      [rt.choice output r.thinkingMode r.promptIds first.options first.stop.strings
        first.maxTokens]) := by
  have equal : (first :: others).any (fun r => r.maxTokens != first.maxTokens) = false := by
    rw [List.any_eq_false]
    intro r member
    rcases List.mem_cons.mp member with rfl | later
    · simp
    · simp [same r later]
  have rows : (first :: others).map (·.promptIds) ≠ [] := List.cons_ne_nil _ _
  have all : ∀ prompt ∈ (first :: others).map (·.promptIds), prompt.length ≤ rt.maxSeqLen := by
    intro prompt member
    obtain ⟨r, here, rfl⟩ := List.mem_map.mp member
    exact fits r here
  unfold runBatch
  rw [if_neg (by rw [equal]; exact Bool.false_ne_true),
    Decoder.generate_eq independent s rows all enough, Option.map_some, List.map_map,
    List.zipWith_map_right, List.zipWith_self]
  rfl

lemma runBatch_negative (s : S) (negative : first.maxTokens < 0) :
    rt.runBatch s first others = none := by
  simp only [runBatch, Decoder.generate_negative s negative, Option.map_none, ite_self]

end Runtime

lemma Engine.isBatchCompatible_same {J ι : Type*} {engine : Engine J ι} {first r : Payload J}
    (compatible : engine.isBatchCompatible first r = true) :
    r.maxTokens = first.maxTokens ∧ r.options = first.options ∧
      r.stop.strings = first.stop.strings ∧ r.n = first.n := by
  simp only [Engine.isBatchCompatible, Bool.and_eq_true, beq_iff_eq] at compatible
  obtain ⟨⟨⟨⟨⟨⟨⟨⟨⟨⟨⟨⟨⟨-, tokens⟩, -⟩, topP⟩, topK⟩, minP⟩, frequency⟩, presence⟩, repetition⟩, seed⟩,
    stop⟩, logprobs⟩, topLogprobs⟩, n⟩ := compatible
  refine ⟨tokens.symm, ?_, (Stop.strings_of_same stop).symm, n.symm⟩
  exact GenerationOptions.ext (Number.eq_of_sameOption topP).symm topK.symm
    (Number.eq_of_sameOption minP).symm (Number.eq_of_sameOption frequency).symm
    (Number.eq_of_sameOption presence).symm (Number.eq_of_sameOption repetition).symm seed.symm
    logprobs.symm topLogprobs.symm

/-- Every request of the batch gets what it gets alone, for every model with independent rows, and
whatever state the model is in. -/
def Transparent {J : Type*} (first : GreedyRequest J) (others : List (GreedyRequest J)) : Prop :=
  ∀ (S L : Type) (rt : Runtime S L) (output : List Int → L), rt.RowIndependent output →
    (∀ r ∈ first :: others, rt.Posted r) → ∀ s t : S,
      rt.serve s first others = (first :: others).map (rt.runPayload t)

section Transparency

variable {J ι : Type*} {engine : Engine J ι} {first : GreedyRequest J}
  {others : List (GreedyRequest J)}

lemma runPayload_state {S L : Type} {rt : Runtime S L} {output : List Int → L}
    (independent : rt.RowIndependent output) {r : GreedyRequest J} (posted : rt.Posted r) (s t : S) :
    rt.runPayload s r = rt.runPayload t r := by
  by_cases negative : r.maxTokens < 0
  · rw [Runtime.runPayload_negative s negative, Runtime.runPayload_negative t negative]
  · have enough : 0 ≤ r.maxTokens := by omega
    rw [Runtime.runPayload_eq independent s posted.fits enough,
      Runtime.runPayload_eq independent t posted.fits enough]

lemma transparent_alone : Transparent first [] := by
  intro S L rt output independent posted s t
  show [rt.runPayload s first] = [rt.runPayload t first]
  rw [runPayload_state independent (posted first (List.mem_cons_self ..)) s t]

lemma transparent_negative (negative : first.maxTokens < 0)
    (same : ∀ r ∈ others, r.maxTokens = first.maxTokens) : Transparent first others := by
  intro S L rt output independent posted s t
  have alone : (first :: others).map (rt.runPayload t) = (first :: others).map fun _ => none := by
    refine List.map_congr_left fun r member => Runtime.runPayload_negative t ?_
    rcases List.mem_cons.mp member with rfl | later
    · exact negative
    · rw [same r later]
      exact negative
  rw [alone, Runtime.serve, Runtime.runBatch_negative s negative,
    Runtime.runPayload_negative s negative]
  split_ifs with single
  · rw [List.isEmpty_iff.mp single]
    rfl
  · rfl

lemma transparent_one (tokens : 0 < first.maxTokens) (one : first.n ≤ 1)
    (compatible : ∀ r ∈ others,
      engine.isBatchCompatible first.toPayload r.toPayload = true) : Transparent first others := by
  intro S L rt output independent posted s t
  have alone : ∀ r ∈ first :: others, rt.runPayload t r =
      some [rt.choice output r.thinkingMode r.promptIds first.options first.stop.strings
        first.maxTokens] := by
    intro r member
    obtain ⟨tokens', options, stops, n⟩ : r.maxTokens = first.maxTokens ∧
        r.options = first.options ∧ r.stop.strings = first.stop.strings ∧ r.n = first.n := by
      rcases List.mem_cons.mp member with rfl | later
      · exact ⟨rfl, rfl, rfl, rfl⟩
      · exact Engine.isBatchCompatible_same (compatible r later)
    rw [Runtime.runPayload_eq independent t (posted r member).fits (by omega), tokens', options,
      stops, n, if_neg (by omega : ¬ first.maxTokens = 0)]
    have single : (if first.n = 0 then 1 else first.n) = 1 := by
      split_ifs
      · rfl
      · omega
    rw [single]
    rfl
  have same : ∀ r ∈ others, r.maxTokens = first.maxTokens := fun r member =>
    (Engine.isBatchCompatible_same (compatible r member)).1
  have fits := fun r member => (posted r member).fits
  rw [Runtime.serve, Runtime.runBatch_eq independent s fits (Int.le_of_lt tokens) same]
  split_ifs with empty
  · rw [List.isEmpty_iff.mp empty, runPayload_state independent
      (posted first (List.mem_cons_self ..)) s t]
    rfl
  · rw [List.map_congr_left alone]
    exact List.map_map

/-- A model that generates ones for ever, whose texts say nothing. -/
def onesRuntime (maxSeqLen : Nat) : Runtime Unit Unit where
  maxSeqLen := maxSeqLen + 1
  maxSeqLen_pos := Nat.succ_pos _
  eosId := 0
  prefillChunkTokens := 0
  forward := fun _ rows _ => (rows.map fun _ => (), ())
  pick := fun _ _ _ => 1
  decode := fun _ => ""
  parseMessage := fun _ _ => none
  eosToken := ""

lemma onesRuntime_independent (maxSeqLen : Nat) :
    (onesRuntime maxSeqLen).RowIndependent fun _ => () := by
  intro rows pos s chunk width fed count equal
  show chunk.map (fun _ => ()) = _
  rw [List.map_const', List.map_const', List.length_zipWith, count, Nat.min_self]

lemma onesRuntime_generated (maxSeqLen : Nat) (options : GenerationOptions) (prompt : List Nat)
    (k : Nat) : (onesRuntime maxSeqLen).generated (fun _ => ()) options prompt k =
      List.replicate k 1 := by
  induction k with
  | zero => rfl
  | succ k ih =>
    rw [Decoder.generated, ih, List.replicate_succ']
    rfl

lemma onesRuntime_completionTokens {maxSeqLen maxTokens : Nat} {prompt : List Nat}
    (room : prompt.length + maxTokens ≤ maxSeqLen) (mode : ThinkingMode)
    (options : GenerationOptions) (stops : List String) :
    ((onesRuntime maxSeqLen).choice (fun _ => ()) mode prompt options stops maxTokens).completionTokens
      = maxTokens + 1 := by
  have all : ∀ x ∈ List.replicate maxTokens (1 : Int), (x != 0) = true := by
    intro x member
    rw [List.eq_of_mem_replicate member]
    rfl
  have enough : min maxTokens (maxSeqLen + 1 - prompt.length) = maxTokens := by omega
  rw [Runtime.choice, Runtime.formatCompletionResult, Choice.applyStop_completionTokens]
  show (Decoder.completion _ _ _ _ _).length = _
  rw [Decoder.completion, onesRuntime_generated, Int.toNat_natCast]
  show ((List.replicate (min maxTokens (maxSeqLen + 1 - prompt.length)) 1).takeWhile
    (· != (0 : Int)) ++ [0]).length = _
  rw [enough, List.takeWhile_eq_self_iff.mpr all, List.length_append, List.length_replicate,
    List.length_singleton]

lemma truncatePrompt_eq {maxSeqLen : Nat} {maxTokens : Int} {promptIds : List Nat}
    (fits : promptIds.length + max maxTokens 1 ≤ maxSeqLen) :
    truncatePrompt maxSeqLen maxTokens promptIds = promptIds := by
  refine if_neg ?_
  rw [Bool.and_eq_true, decide_eq_true_eq, decide_eq_true_eq]
  omega

lemma one_of_transparent (several : others ≠ []) (enough : 0 ≤ first.maxTokens)
    (same : ∀ r ∈ others, r.maxTokens = first.maxTokens) (transparent : Transparent first others) :
    first.maxTokens ≠ 0 ∧ first.n ≤ 1 := by
  obtain ⟨max, tokens⟩ : ∃ max : Nat, first.maxTokens = max :=
    ⟨_, (Int.toNat_of_nonneg enough).symm⟩
  -- room for every prompt and for the default number of tokens
  obtain ⟨room, big⟩ : ∃ room, maxLen ((first :: others).map (·.promptIds)) + max + 512 = room :=
    ⟨_, rfl⟩
  have short : ∀ r ∈ first :: others, r.promptIds.length + max + 512 ≤ room := by
    intro r member
    have le := Decoder.le_maxLen (List.mem_map_of_mem (f := fun r : GreedyRequest J => r.promptIds) member)
    omega
  have posted : ∀ r ∈ first :: others, (onesRuntime room).Posted r := by
    intro r member
    refine ⟨r.promptIds, (truncatePrompt_eq ?_).symm⟩
    have le := short r member
    have tokens' : r.maxTokens = max := by
      rcases List.mem_cons.mp member with rfl | later
      · exact tokens
      · rw [same r later, tokens]
    show _ ≤ ((room + 1 : Nat) : Int)
    omega
  have independent := onesRuntime_independent room
  have fits := fun r member => (posted r member).fits
  have eq := transparent Unit Unit (onesRuntime room) _ independent posted () ()
  rw [Runtime.serve, if_neg (by simpa using several),
    Runtime.runBatch_eq independent () fits enough same, List.map_cons, List.map_cons,
    List.map_cons, Runtime.runPayload_eq independent () (fits first (List.mem_cons_self ..)) enough]
    at eq
  have head := Option.some_inj.mp (List.cons_eq_cons.mp eq).1
  have one : (if first.n = 0 then 1 else first.n) = 1 := by
    have count := congrArg List.length head
    rw [List.length_replicate] at count
    exact count.symm
  have le := short first (List.mem_cons_self ..)
  refine ⟨fun zero => ?_, ?_⟩
  · -- one token, the end mark, in the batch, and the default number alone
    rw [one, zero, if_pos rfl] at head
    have counts : ((onesRuntime room).choice _ _ first.promptIds _ _ (0 : Nat)).completionTokens =
        ((onesRuntime room).choice _ _ first.promptIds _ _ (512 : Nat)).completionTokens :=
      congrArg Choice.completionTokens (List.cons_eq_cons.mp head).1
    rw [onesRuntime_completionTokens (by omega), onesRuntime_completionTokens (by omega)] at counts
    omega
  · split_ifs at one with none
    · omega
    · omega

/-- The requests of a batch, compatible as the serving engine has them (`Engine.batched_run`), get
what each gets alone, from every model with independent rows, every
tokenizer and every parser, exactly when the batch is of one, or the number of tokens is negative,
or it is not zero and the requests are for one choice. -/
theorem transparent_iff (engine : Engine J ι) (first : GreedyRequest J)
    (others : List (GreedyRequest J))
    (compatible : ∀ r ∈ others, engine.isBatchCompatible first.toPayload r.toPayload = true) :
    Transparent first others ↔
      others = [] ∨ first.maxTokens < 0 ∨ (first.maxTokens ≠ 0 ∧ first.n ≤ 1) := by
  have same : ∀ r ∈ others, r.maxTokens = first.maxTokens := fun r member =>
    (Engine.isBatchCompatible_same (compatible r member)).1
  constructor
  · intro transparent
    by_cases several : others = []
    · exact Or.inl several
    · by_cases negative : first.maxTokens < 0
      · exact Or.inr (Or.inl negative)
      · exact Or.inr (Or.inr (one_of_transparent several (by omega) same transparent))
  · rintro (rfl | negative | ⟨tokens, one⟩)
    · exact transparent_alone
    · exact transparent_negative negative same
    · by_cases negative : first.maxTokens < 0
      · exact transparent_negative negative same
      · exact transparent_one (by omega) one compatible

/-- A request for two choices of one token each. -/
def twoChoices : GreedyRequest Unit where
  stream := false
  promptIds := [1]
  maxTokens := 1
  temperature := .finite 0
  options := {
    topP := none
    topK := none
    minP := none
    frequencyPenalty := some (.finite 0)
    presencePenalty := some (.finite 0)
    repetitionPenalty := some (.finite 1)
    seed := none
    logprobs := false
    topLogprobs := none }
  stop := .other ()
  n := 2
  thinkingMode := .chat
  temperature_eq := rfl
  logprobs_eq := rfl

/-- An engine that gets this request twice. -/
def twoChoicesEngine : Engine Unit Bool where
  maxQueue := 32
  maxRunningRequests := 2
  batchWaitMs := 2
  maxTotalTokens := 0
  eventQueue := 1024
  maxBatchSize := 2
  same := fun _ _ => true
  request := fun _ => twoChoices.toPayload

lemma twoChoices_compatible : ∀ r ∈ [twoChoices],
    twoChoicesEngine.isBatchCompatible twoChoices.toPayload r.toPayload = true := by
  intro r member
  rw [List.mem_singleton.mp member]
  decide +kernel

theorem transparent_iff_twoChoices : Transparent twoChoices [twoChoices] ↔
    [twoChoices] = [] ∨ twoChoices.maxTokens < 0 ∨ (twoChoices.maxTokens ≠ 0 ∧ twoChoices.n ≤ 1) :=
  transparent_iff twoChoicesEngine twoChoices [twoChoices] twoChoices_compatible

/-- Together each of the two requests gets one choice. -/
theorem not_transparent_twoChoices :
    ¬ ∀ others : List (GreedyRequest Unit), (∀ r ∈ others,
        twoChoicesEngine.isBatchCompatible twoChoices.toPayload r.toPayload = true) →
      Transparent twoChoices others := by
  intro claim
  have transparent := claim [twoChoices] twoChoices_compatible
  have one := (one_of_transparent (List.cons_ne_nil _ _) (by decide)
    (fun r member => by rw [List.mem_singleton.mp member]) transparent).2
  exact absurd one (by decide)

end Transparency

end PocketMoE.Serving
