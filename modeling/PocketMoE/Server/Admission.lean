import Mathlib.Logic.Relation
import PocketMoE.Server.Chat
import PocketMoE.Server.Replies

/-!
# The admission of a request

Model of the arithmetic of `encode_request` and of the check in `handle_chat_completions`
(`openai_server.cpp`). The sum of an `int` and a cast size wraps, as the processor adds; the cast of a
double that does not fit in an `int` may give any `int`.

An admitted request keeps within the context, and the session that follows decodes within the KV cache,
exactly if the sum does not reach 2^31 or wraps above the context (`bounded_iff`).
-/

namespace PocketMoE.Server
open PocketMoE.Lib JsonLite

/-- An integer in 32 bits with a sign. -/
def wrapInt (n : Int) : Int := n.bmod (2 ^ 32)

/-- What the server runs with: `PersistentEngine` throws unless its context is positive, and the default
for `max_tokens` is 256. -/
structure ServerConfig where
  maxContext : Int
  defaultMaxTokens : Int
  defaultThinkingMode : Bytes
  maxContext_fits : Double.FitsInt maxContext
  maxContext_pos : 0 < maxContext
  defaultMaxTokens_fits : Double.FitsInt defaultMaxTokens
  defaultMaxTokens_pos : 0 < defaultMaxTokens

variable (int : Double.IntCast) (cfg : ServerConfig)

/-- `get_number`. -/
def getNumber (obj : List (Bytes × JsonValue)) (key : String) (fallback : Double) : Double :=
  match objectGet obj key with
  | some (.number n) => strtod n
  | _ => fallback

/-- `max_tokens_out`. -/
def requestMaxTokens (obj : List (Bytes × JsonValue)) : Int :=
  let maxTokens := int.cast (getNumber obj "max_tokens" (.ofInt cfg.defaultMaxTokens))
  if maxTokens ≤ 0 then cfg.defaultMaxTokens else maxTokens

variable (encode : EncodeRequest → EncodeReply)

/-- `encode_request`: the tokens of the prompt and `max_tokens`, or the error of the response. -/
def encodeRequest (body : Bytes) (obj : List (Bytes × JsonValue)) : Except Bytes (List Int × Int) :=
  let out := encode {
    messagesJson := extractMessagesJson body
    toolsJson := extractToolsJson body
    thinkingMode := getString obj "thinking_mode" cfg.defaultThinkingMode
    reasoningEffort := getString obj "reasoning_effort" []
    addGenerationPrompt := getBool obj "add_generation_prompt" true
    dropThinking := getBool obj "drop_thinking" true }
  if out.ok = false then .error out.err
  else if out.tokenIds = [] then .error (lit "encode produced no tokens")
  else .ok (out.tokenIds, requestMaxTokens int cfg obj)

/-- What `handle_chat_completions` has before it takes the mutex, or the error of the response. -/
def parseRequest (body : Bytes) : Except Bytes (List Int × Int) :=
  match parseJson body with
  | .error ex => .error (lit "invalid JSON: " ++ lit ex)
  | .ok (.object obj) => encodeRequest int cfg encode body obj
  | .ok _ => .error (lit "request body must be JSON object")

/-- `handle_chat_completions`, up to the session. -/
def handleChatCompletions (body : Bytes) : Except Bytes (List Int × Int) :=
  match parseRequest int cfg encode body with
  | .error err => .error err
  | .ok (tokenIds, maxTokens) =>
    if cfg.maxContext < wrapInt (wrapInt tokenIds.length + maxTokens) then
      .error (lit "prompt + max_tokens exceeds max_context")
    else .ok (tokenIds, maxTokens)

section
variable {S SP : Type}

/-- A session makes a call. -/
def Calls (engine : PersistentEngine S Int SP) (r : ChatRequest Int SP)
    (a b : S × Session Int) : Prop :=
  ∃ call, engineCall engine r a.1 a.2 = some (call, b.1, b.2)

/-- The rows of the KV cache that the next call of a session writes. -/
def rows (r : ChatRequest Int SP) : Session Int → Set Int
  | .cleared => {row | 0 ≤ row ∧ row < r.tokenIds.length}
  | .running _ step _ => {wrapInt r.tokenIds.length + step - 1}
  | _ => ∅

end

/-- The request is admitted only if it keeps within the context: its prompt and `max_tokens` do, and
every call of its session writes rows that the KV cache has. -/
def Bounded (body : Bytes) : Prop :=
  ∀ tokenIds maxTokens, handleChatCompletions int cfg encode body = .ok (tokenIds, maxTokens) →
    tokenIds.length + maxTokens ≤ cfg.maxContext ∧
    ∀ (S SP : Type) (engine : PersistentEngine S Int SP) (stream : Bool) (sp : SP) (s s' : S)
      (σ : Session Int),
      let r : ChatRequest Int SP := ⟨tokenIds, maxTokens, stream, sp⟩
      Relation.ReflTransGen (Calls engine r) (s, .start) (s', σ) →
      ∀ row ∈ rows r σ, 0 ≤ row ∧ row < cfg.maxContext

/-! ## Sessions -/

section
variable {S SP : Type} {engine : PersistentEngine S Int SP} {r : ChatRequest Int SP}

/-- A running session has a step to make. -/
def Steps (r : ChatRequest Int SP) : Session Int → Prop
  | .running _ step _ => 1 ≤ step ∧ (step : Int) < r.maxTokens
  | _ => True

lemma steps_afterToken {token : Int} {step : Nat} {generated : List Int} (begun : 1 ≤ step) :
    Steps r (afterToken engine r token step generated) := by
  unfold afterToken
  split_ifs with last more
  · trivial
  · exact ⟨begun, more⟩
  · trivial

lemma steps_call {a b : S × Session Int} (steps : Steps r a.2) (calls : Calls engine r a b) :
    Steps r b.2 := by
  obtain ⟨s, σ⟩ := a
  obtain ⟨s', σ'⟩ := b
  obtain ⟨call, eq⟩ := calls
  cases σ with
  | start =>
    cases eq
    trivial
  | cleared =>
    cases eq
    exact steps_afterToken (Nat.le_refl 1)
  | running token step generated =>
    cases eq
    exact steps_afterToken (Nat.le_add_left 1 step)
  | finished generated => cases eq

lemma steps_reached {s : S} {b : S × Session Int}
    (reached : Relation.ReflTransGen (Calls engine r) (s, .start) b) : Steps r b.2 := by
  induction reached with
  | refl => trivial
  | tail _ calls ih => exact steps_call ih calls

end

/-! ## Sums -/

lemma wrapInt_fits {n : Int} (fits : Double.FitsInt n) : wrapInt n = n :=
  Int.bmod_eq_of_le fits.1 fits.2

lemma wrapInt_add (n m : Int) : wrapInt (wrapInt n + m) = wrapInt (n + m) := Int.bmod_add_bmod

variable {int cfg encode}

lemma requestMaxTokens_range (obj : List (Bytes × JsonValue)) :
    0 < requestMaxTokens int cfg obj ∧ Double.FitsInt (requestMaxTokens int cfg obj) := by
  unfold requestMaxTokens
  dsimp only
  split_ifs with none'
  · exact ⟨cfg.defaultMaxTokens_pos, cfg.defaultMaxTokens_fits⟩
  · exact ⟨Int.not_le.mp none', int.fits _⟩

lemma parseRequest_ok {body : Bytes} {tokenIds : List Int} {maxTokens : Int}
    (ok : parseRequest int cfg encode body = .ok (tokenIds, maxTokens)) :
    0 < maxTokens ∧ Double.FitsInt maxTokens := by
  unfold parseRequest encodeRequest at ok
  split at ok
  · cases ok
  · dsimp only at ok
    split_ifs at ok with failed empty
    cases ok
    exact requestMaxTokens_range _
  · cases ok

lemma handleChatCompletions_ok {body : Bytes} {tokenIds : List Int} {maxTokens : Int} :
    handleChatCompletions int cfg encode body = .ok (tokenIds, maxTokens) ↔
      parseRequest int cfg encode body = .ok (tokenIds, maxTokens) ∧
        wrapInt (tokenIds.length + maxTokens) ≤ cfg.maxContext := by
  unfold handleChatCompletions
  cases parsed : parseRequest int cfg encode body with
  | error err => exact iff_of_false nofun nofun
  | ok request =>
    obtain ⟨ids, max⟩ := request
    dsimp only
    rw [wrapInt_add]
    split_ifs with beyond
    · refine iff_of_false nofun ?_
      rintro ⟨⟨⟩, within⟩
      omega
    · constructor
      · rintro ⟨⟩
        exact ⟨rfl, Int.not_lt.mp beyond⟩
      · exact fun both => both.1

lemma rows_within {S SP : Type} {engine : PersistentEngine S Int SP} {r : ChatRequest Int SP}
    {s s' : S} {σ : Session Int} (pos : 0 < r.maxTokens)
    (within : r.tokenIds.length + r.maxTokens ≤ cfg.maxContext)
    (reached : Relation.ReflTransGen (Calls engine r) (s, .start) (s', σ)) {row : Int}
    (mem : row ∈ rows r σ) : 0 ≤ row ∧ row < cfg.maxContext := by
  have top := cfg.maxContext_fits.2
  cases σ with
  | start => cases mem
  | cleared =>
    obtain ⟨low, high⟩ := mem
    exact ⟨low, by omega⟩
  | running token step generated =>
    obtain ⟨begun, more⟩ : 1 ≤ step ∧ (step : Int) < r.maxTokens := steps_reached reached
    have position : wrapInt r.tokenIds.length = r.tokenIds.length :=
      wrapInt_fits ⟨by omega, by omega⟩
    rw [rows, Set.mem_singleton_iff, position] at mem
    omega
  | finished generated => cases mem

variable (int cfg encode)

/-- An admitted request keeps within the context exactly if the sum does not reach 2^31, or wraps above
the context. -/
theorem bounded_iff (body : Bytes) :
    Bounded int cfg encode body ↔
      ∀ tokenIds maxTokens, parseRequest int cfg encode body = .ok (tokenIds, maxTokens) →
        tokenIds.length + maxTokens < 2 ^ 31 ∨
          cfg.maxContext < wrapInt (tokenIds.length + maxTokens) := by
  constructor
  · intro bounded tokenIds maxTokens parsed
    by_cases beyond : cfg.maxContext < wrapInt (tokenIds.length + maxTokens)
    · exact Or.inr beyond
    · have within := (bounded _ _ (handleChatCompletions_ok.mpr ⟨parsed, Int.not_lt.mp beyond⟩)).1
      exact Or.inl (Int.lt_of_le_of_lt within cfg.maxContext_fits.2)
  · intro small tokenIds maxTokens admitted
    obtain ⟨parsed, wrapped⟩ := handleChatCompletions_ok.mp admitted
    obtain ⟨pos, -⟩ := parseRequest_ok parsed
    have sum := (small _ _ parsed).resolve_right (Int.not_lt.mpr wrapped)
    rw [wrapInt_fits ⟨by omega, sum⟩] at wrapped
    exact ⟨wrapped, fun S SP engine stream sp s s' σ reached row => rows_within pos wrapped reached⟩

/-- The server as `main` starts it without options. -/
def mainConfig : ServerConfig where
  maxContext := 8192
  defaultMaxTokens := 256
  defaultThinkingMode := lit "chat"
  maxContext_fits := by decide
  maxContext_pos := by decide
  defaultMaxTokens_fits := by decide
  defaultMaxTokens_pos := by decide

/-- A body that asks for as many tokens as an `int` has numbers. -/
def greedyBody : Bytes := "\x7b\"messages\": [], \"max_tokens\": 2147483647\x7d".toList

lemma greedy_tokens (int : Double.IntCast) (cfg : ServerConfig) {obj : List (Bytes × JsonValue)}
    (found : objectGet obj "max_tokens" = some (.number (intText 2147483647))) :
    requestMaxTokens int cfg obj = 2147483647 := by
  have number (fallback : Double) : getNumber obj "max_tokens" fallback = .ofInt 2147483647 := by
    rw [getNumber, found]
    exact strtod_intText _
  have cast : int.cast (.ofInt 2147483647) = 2147483647 := int.cast_ofInt.mpr (by decide)
  rw [requestMaxTokens, number, cast]
  exact if_neg (by decide)

/-- What it is parsed to. -/
def greedyObject : List (Bytes × JsonValue) :=
  [(lit "messages", .array []), (lit "max_tokens", .number (intText 2147483647))]

lemma greedy_parsed (int : Double.IntCast) (cfg : ServerConfig) :
    parseRequest int cfg (fun _ => ⟨true, [], [], [0]⟩) greedyBody = .ok ([0], 2147483647) := by
  have parsed : parseJson greedyBody = .ok (.object greedyObject) := by
    have printed : greedyBody = utf8 (Json.dumps noFloats
        (.obj [(text "messages", .arr []), (text "max_tokens", .int 2147483647)])) := by
      decide +kernel
    rw [printed]
    exact parseJson_dumps _ ⟨trivial, trivial, trivial⟩
  have tokens : requestMaxTokens int cfg greedyObject = 2147483647 := greedy_tokens int cfg rfl
  rw [parseRequest, parsed]
  dsimp only
  unfold encodeRequest
  rw [tokens]
  dsimp only
  rw [if_neg Bool.noConfusion, if_neg (List.cons_ne_nil _ _)]

/-- It is admitted. -/
theorem greedy_admitted : ¬ ∀ (int : Double.IntCast) (cfg : ServerConfig)
    (encode : EncodeRequest → EncodeReply) (body : Bytes), Bounded int cfg encode body := by
  intro all
  have admitted := handleChatCompletions_ok.mpr ⟨greedy_parsed .least mainConfig, by decide⟩
  have within := (all .least mainConfig _ greedyBody _ _ admitted).1
  exact absurd within (by decide)

end PocketMoE.Server
