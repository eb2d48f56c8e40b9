import PocketMoE.Encoding.CallBlocks

/-!
# The round trip of a message

What `render_message` writes of the last message of a conversation, an answer of the assistant, is read
by `parse_message_from_completion_text` as the same message (`parse_renderMessage`).

This is not so of all messages. A message without the end mark is not accepted, unless tool calls end
it. The mark of a task stands behind the end mark. The output of a task has no `</think>`, and before
the first message the text for the most effort may stand.
-/

namespace PocketMoE.Encoding
open PocketMoE.Lib

variable {R : Type} {py : Builtins R}

/-! ## Reading a message -/

/-- A text has no special token. -/
def Free (s : Text) : Prop := ∀ token ∈ forbiddenTokens, ¬ token <:+: s

lemma Free.eos {s : Text} (free : Free s) : ¬ eosToken <:+: s := free _ (by simp [forbiddenTokens])

lemma Free.thinkingEnd {s : Text} (free : Free s) : ¬ thinkingEndToken <:+: s :=
  free _ (by simp [forbiddenTokens])

lemma Free.dsml {s : Text} (free : Free s) : ¬ dsmlToken <:+: s := free _ (by simp [forbiddenTokens])

lemma toolCallsStart_behind {s sep rest : Text} {p : Nat} (clear : ¬ dsmlToken <:+: s)
    (nonempty : sep ≠ []) (outside : sep.all (· ∉ dsmlToken))
    (here : At toolCallsStartToken (s ++ (sep ++ rest)) p) : s.length + sep.length ≤ p + 3 := by
  have mark : toolCallsStartToken = text "\n\n<" ++ (dsmlToken ++ toolCallsBlockName) := by
    decide
  rw [mark] at here
  have there : At dsmlToken (s ++ (sep ++ rest)) (p + 3) := here.inner
  have each : ∀ c ∈ sep, c ∉ dsmlToken := forall_code outside
  obtain ⟨c, sep, rfl⟩ := List.exists_cons_of_ne_nil nonempty
  obtain ⟨first, later⟩ := List.forall_mem_cons.mp each
  rcases there.separator first with inside | ⟨behind, there⟩
  · exact absurd (infix_iff_at.mpr ⟨_, inside⟩) clear
  · have le := there.skip dsmlToken_ne_nil later
    rw [List.length_cons]
    omega

lemma finishParse_eq {reasoning content : Text} {stopToken : Option Text}
    (stop : stopToken = some eosToken ∨ stopToken = none) (free : Free content)
    (free' : Free reasoning) (calls : List ToolFunction) :
    finishParse reasoning content [] stopToken calls =
      .ok ⟨content, reasoning, toolCallsToOpenaiFormat calls⟩ := by
  have none : (forbiddenTokens.find? fun token => token <:+: content ∨ token <:+: reasoning) =
      none := by
    refine List.find?_eq_none.mpr fun token listed found => ?_
    rcases of_decide_eq_true found with within | within
    · exact free token listed within
    · exact free' token listed within
  rw [finishParse, if_neg (not_not.mpr ⟨rfl, stop⟩), none]

lemma parseContent_plain {reasoning content : Text} (free : Free content) (free' : Free reasoning) :
    parseContent reasoning (content ++ eosToken) = .ok ⟨content, reasoning, []⟩ := by
  have mark : eosToken = code '<' :: eosToken.tail := by decide
  have once : code '<' ∉ eosToken.tail := by decide
  have nowhere : ¬ dsmlToken <:+: content ++ eosToken := by
    rw [mark]
    exact not_infix_separator (by decide) free.dsml (by decide)
  have read : readUntilStop (content ++ (eosToken ++ [])) [eosToken, toolCallsStartToken] =
      (content, some eosToken, []) := by
    refine readUntilStop_eq (by decide) List.mem_cons_self fun stop listed p le here => ?_
    rw [List.append_nil] at here
    simp only [List.mem_cons, List.not_mem_nil, or_false] at listed
    rcases listed with rfl | rfl
    · refine ⟨rfl, Nat.le_antisymm le ?_⟩
      rw [mark] at here
      rcases here.head once with inside | behind
      · exact absurd (infix_iff_at.mpr ⟨p, inside⟩) (mark ▸ free.eos)
      · exact behind
    · have inner : dsmlToken <:+: toolCallsStartToken := by decide
      exact absurd (inner.trans (infix_iff_at.mpr ⟨p, here⟩)) nowhere
  have other : ¬ some eosToken = some toolCallsStartToken := by decide
  rw [List.append_nil] at read
  rw [parseContent, read]
  dsimp only
  rw [if_neg other, if_neg (not_not.mpr rfl), finishParse_eq (Or.inl rfl) free free']
  rfl

lemma readUntilStop_toolCalls {content : Text} (free : Free content) (t : Text) :
    readUntilStop (content ++ (toolCallsStartToken ++ t)) [eosToken, toolCallsStartToken] =
      (content, some toolCallsStartToken, t) := by
  have newline : toolCallsStartToken = code '\n' :: toolCallsStartToken.tail := by decide
  have mark : toolCallsStartToken = text "\n\n<" ++ (dsmlToken ++ toolCallsBlockName) := by
    decide
  refine readUntilStop_eq (by decide) (.tail _ List.mem_cons_self) fun stop listed p le here => ?_
  simp only [List.mem_cons, List.not_mem_nil, or_false] at listed
  rcases listed with rfl | rfl
  · rw [newline] at here
    rcases here.separator (by decide) with inside | ⟨behind, -⟩
    · exact absurd (infix_iff_at.mpr ⟨p, inside⟩) free.eos
    · exact absurd behind (Nat.not_lt.mpr le)
  · nth_rewrite 2 [mark] at here
    rw [List.append_assoc] at here
    have behind := toolCallsStart_behind free.dsml (by decide) (by decide) here
    have three : (text "\n\n<").length = 3 := by decide
    exact ⟨rfl, by omega⟩

lemma parseContent_read {reasoning content t after : Text} {stop : Option Text}
    {called : List ToolFunction} (free : Free content) (free' : Free reasoning)
    (read : parseToolCalls t = .ok (after, stop, called)) (ends : after = [] ∨ after = eosToken) :
    parseContent reasoning (content ++ (toolCallsStartToken ++ t)) =
      .ok ⟨content, reasoning, toolCallsToOpenaiFormat called⟩ := by
  have atEnd : ∃ stop, readUntilStop after [eosToken] = ([], stop, []) ∧
      (stop = some eosToken ∨ stop = none) := by
    rcases ends with rfl | rfl
    · exact ⟨none, by decide, Or.inr rfl⟩
    · exact ⟨some eosToken, by decide, Or.inl rfl⟩
  obtain ⟨stop', atEnd, last⟩ := atEnd
  rw [parseContent, readUntilStop_toolCalls free]
  dsimp only
  rw [if_pos rfl, read]
  dsimp only
  rw [atEnd]
  dsimp only
  rw [if_neg (not_not.mpr rfl), finishParse_eq last free free']

lemma parseContent_calls {reasoning content after : Text} {calls : List (Text × List Parameter)}
    (free : Free content) (free' : Free reasoning) (plain : ∀ call ∈ calls, PlainCall call)
    (ends : after = [] ∨ after = eosToken) :
    parseContent reasoning
        (content ++ (toolCallsStartToken ++ (text ">\n" ++ callsBlock after calls))) =
      .ok ⟨content, reasoning, toolCallsToOpenaiFormat
        (calls.map fun call => decodeDsmlToArguments call.1 call.2)⟩ := by
  have enough : calls.length < (text ">\n" ++ callsBlock after calls).length + 1 := by
    have le := length_calls_le after calls
    rw [List.length_append]
    omega
  exact parseContent_read free free' (parseCalls_block plain enough none []) ends

lemma parseMessage_thinking {reasoning : Text} (free : Free reasoning) (s : Text) :
    parseMessageFromCompletionText (reasoning ++ (thinkingEndToken ++ s)) .thinking =
      parseContent reasoning s := by
  have mark : thinkingEndToken = code '<' :: thinkingEndToken.tail := by decide
  have once : code '<' ∉ thinkingEndToken.tail := by decide
  have read : readUntilStop (reasoning ++ (thinkingEndToken ++ s))
      [thinkingEndToken, toolCallsStartToken] = (reasoning, some thinkingEndToken, s) := by
    refine readUntilStop_eq (by decide) List.mem_cons_self fun stop listed p le here => ?_
    simp only [List.mem_cons, List.not_mem_nil, or_false] at listed
    rcases listed with rfl | rfl
    · refine ⟨rfl, Nat.le_antisymm le ?_⟩
      rw [mark] at here
      rcases here.head once with inside | behind
      · exact absurd (infix_iff_at.mpr ⟨p, inside⟩) (mark ▸ free.thinkingEnd)
      · exact behind
    · have behind := toolCallsStart_behind free.dsml (by decide) (by decide) here
      have eight : thinkingEndToken.length = 8 := by decide
      omega
  rw [parseMessageFromCompletionText, if_pos rfl, read]
  dsimp only
  rw [if_pos rfl]

/-! ## Rendering an answer -/

/-- A call whose name and arguments can be read back. -/
structure ReadableCall (py : Builtins R) (function : ToolFunction) : Prop where
  quote : code '"' ∉ function.name
  name : ¬ dsmlToken <:+: function.name
  /-- The arguments are an object. No key has a quote, and no string, no key and no key inside has the
  DSML token. -/
  arguments : ∃ members, Json.loads py.floats function.arguments = some (.obj members) ∧
    (∀ member ∈ members, code '"' ∉ member.1) ∧ Json.Clear dsmlToken (.obj members)

variable {messages : List (Message R)} {index : Nat} {msg : Message R} {content : Text}
  {mode : ThinkingMode} {effort : Option ReasoningEffort}

/-- The last message, which is an answer that can be read back. -/
structure Answer (py : Builtins R) (messages : List (Message R)) (index : Nat) (msg : Message R)
    (content : Text) : Prop where
  here : messages[index]? = some msg
  last : index + 1 = messages.length
  role : msg.role = .assistant
  content_eq : msg.content.orEmpty = .text content
  free : Free content
  reasoning : Free msg.reasoningContent
  calls : ∀ call ∈ msg.toolCalls, ReadableCall py call.function

/-- The message ends with the end mark, or else with tool calls, and nothing else stands before or
behind what it holds. -/
structure Ordinary (messages : List (Message R)) (index : Nat) (msg : Message R)
    (mode : ThinkingMode) (effort : Option ReasoningEffort) : Prop where
  ends : msg.woEos = true → msg.toolCalls ≠ []
  task : msg.task = none
  before : mode = .thinking → 1 ≤ index → messages[index - 1]?.bind (·.task) = none
  effort : mode = .thinking → index = 0 → effort ≠ some .max

lemma findLastUserIndex_lt (here : messages[index]? = some msg) (last : index + 1 = messages.length)
    (role : msg.role = .assistant) : findLastUserIndex messages < index := by
  have split : messages.reverse = msg :: (messages.take index).reverse := by
    obtain ⟨lt, eq⟩ := List.getElem?_eq_some_iff.mp here
    have whole : messages.take index ++ [msg] = messages := by
      rw [← eq, List.take_append_getElem, last, List.take_length]
    nth_rewrite 1 [← whole]
    rw [List.reverse_append]
    rfl
  unfold findLastUserIndex
  rw [split, List.findIdx?_cons, role]
  cases (messages.take index).reverse.findIdx? (·.role.isUser) with
  | none =>
    show (-1 : Int) < index
    omega
  | some back =>
    show (messages.length : Int) - 1 - (back + 1 : Nat) < index
    omega

lemma renderToolCalls_eq {toolCalls : List ToolCall}
    (readable : ∀ call ∈ toolCalls, ReadableCall py call.function) :
    renderToolCalls py toolCalls = .ok (if toolCalls = [] then []
      else text "\n\n" ++ toolCallsTemplate ((text "\n").intercalate
        (toolCalls.map fun call => callText (callOf py call.function)))) := by
  have calls : (toolCalls.mapM fun call => encodeToolCall py call.function) =
      .ok (toolCalls.map fun call => callText (callOf py call.function)) := by
    induction toolCalls with
    | nil => rfl
    | cons call toolCalls ih =>
      obtain ⟨here, later⟩ := List.forall_mem_cons.mp readable
      obtain ⟨members, read, -⟩ := here.arguments
      rw [List.mapM_cons, encodeToolCall_eq read, ih later]
      rfl
  rw [renderToolCalls, calls]
  split_ifs <;> rfl

lemma renderRole_answer (answer : Answer py messages index msg content)
    (ordinary : Ordinary messages index msg mode effort) (tools : List (Json R)) (drop : Bool) :
    renderRole py index messages msg tools mode drop =
      .ok ((if mode = .thinking then msg.reasoningContent ++ thinkingEndToken else []) ++ content ++
        (if msg.toolCalls = [] then []
          else text "\n\n" ++ toolCallsTemplate ((text "\n").intercalate
            (msg.toolCalls.map fun call => callText (callOf py call.function)))) ++
        if msg.woEos then [] else eosToken) := by
  have later := findLastUserIndex_lt answer.here answer.last answer.role
  have thinking : (if mode = .thinking ∧
        ¬ (1 ≤ index ∧ (messages[index - 1]?.bind (·.task)).isSome = true) then
        if ¬ drop = true ∨ findLastUserIndex messages < index then
          msg.reasoningContent ++ thinkingEndToken else []
      else []) = if mode = .thinking then msg.reasoningContent ++ thinkingEndToken else [] := by
    rw [if_pos (Or.inr later)]
    refine if_congr ?_ rfl rfl
    refine and_iff_left_of_imp fun thinking some => ?_
    rw [ordinary.before thinking some.1] at some
    exact absurd some.2 nofun
  unfold renderRole
  rw [answer.role]
  dsimp only
  rw [answer.content_eq, thinking, renderToolCalls_eq answer.calls]
  rfl

/-- A tool call that was read is the one that was written. -/
def SameCall (py : Builtins R) (call call' : ToolCall) : Prop :=
  call'.function.name = call.function.name ∧
    Json.loads py.floats call'.function.arguments = Json.loads py.floats call.function.arguments

lemma plain_parameter (exact : Json.Exact py.floats) {member : Text × Json R}
    (quote : code '"' ∉ member.1) (key : ¬ dsmlToken <:+: member.1)
    (value : Json.Clear dsmlToken member.2) : (parameter py member).Plain := by
  obtain ⟨name, v⟩ := member
  have text := Json.clear_dumps mark_dsml exact v value
  cases v with
  | str s => exact ⟨quote, key, value, List.mem_cons_self⟩
  | _ => exact ⟨quote, key, text, .tail _ List.mem_cons_self⟩

lemma plainCall_callOf (exact : Json.Exact py.floats) {function : ToolFunction}
    (readable : ReadableCall py function) : PlainCall (callOf py function) := by
  obtain ⟨members, read, quotes, clear⟩ := readable.arguments
  have distinct := Json.loads_distinct read
  have names : (members.map (parameter py)).map (·.name) = members.map Prod.fst := by
    rw [List.map_map]
    exact List.map_congr_left fun member _ => parameter_name member
  have plain : ∀ param ∈ members.map (parameter py), param.Plain := by
    refine List.forall_mem_map.mpr fun member listed => ?_
    obtain ⟨key, value⟩ := Json.clearMembers_iff.mp clear member listed
    exact plain_parameter exact (quotes member listed) key value
  have call : callOf py function = (function.name, members.map (parameter py)) := by
    rw [callOf, read]
  rw [call]
  refine ⟨readable.quote, readable.name, plain, ?_⟩
  rw [names]
  exact distinct.1

lemma sameCall_callOf (exact : Json.Exact py.floats) {call : ToolCall}
    (readable : ReadableCall py call.function) :
    SameCall py call { function :=
      decodeDsmlToArguments (callOf py call.function).1 (callOf py call.function).2 } := by
  obtain ⟨members, read, -⟩ := readable.arguments
  have distinct := Json.loads_distinct read
  rw [callOf, read]
  dsimp only
  rw [decodeDsmlToArguments_parameter]
  exact ⟨rfl, (Json.loads_dumps exact distinct).trans read.symm⟩

lemma parseContent_answer (exact : Json.Exact py.floats)
    (answer : Answer py messages index msg content)
    (ordinary : Ordinary messages index msg mode effort) {reasoning : Text} (free : Free reasoning) :
    ∃ toolCalls, parseContent reasoning (content ++
        ((if msg.toolCalls = [] then []
          else text "\n\n" ++ toolCallsTemplate ((text "\n").intercalate
            (msg.toolCalls.map fun call => callText (callOf py call.function)))) ++
        if msg.woEos then [] else eosToken)) = .ok ⟨content, reasoning, toolCalls⟩ ∧
      List.Forall₂ (SameCall py) msg.toolCalls toolCalls := by
  by_cases none : msg.toolCalls = []
  · have ends : ¬ msg.woEos = true := fun open' => ordinary.ends open' none
    rw [if_pos none, if_neg ends, List.nil_append, parseContent_plain answer.free free, none]
    exact ⟨[], rfl, .nil⟩
  · have start : text "\n\n" ++ text "<" = text "\n\n<" := by decide
    have closes : text "\n</" = text "\n" ++ text "</" := by decide
    have plain : ∀ call ∈ msg.toolCalls.map fun call => callOf py call.function, PlainCall call :=
      List.forall_mem_map.mpr fun call listed => plainCall_callOf exact (answer.calls call listed)
    have some : (msg.toolCalls.map fun call => callOf py call.function) ≠ [] :=
      fun nil => none (List.map_eq_nil_iff.mp nil)
    have ends : (if msg.woEos then [] else eosToken) = [] ∨
        (if msg.woEos then [] else eosToken) = eosToken := by
      split_ifs
      · exact Or.inl rfl
      · exact Or.inr rfl
    generalize (if msg.woEos then [] else eosToken) = after at ends
    have written : (text "\n\n" ++ toolCallsTemplate ((text "\n").intercalate
          (msg.toolCalls.map fun call => callText (callOf py call.function)))) ++ after =
        toolCallsStartToken ++ (text ">\n" ++
          callsBlock after (msg.toolCalls.map fun call => callOf py call.function)) := by
      rw [← intercalate_calls after some, toolCallsTemplate, closes, toolCallsStartToken, ← start,
        toolCallsEndToken, List.map_map]
      simp only [List.append_assoc]
      rfl
    rw [if_neg none, written, parseContent_calls answer.free free plain ends]
    refine ⟨_, rfl, ?_⟩
    rw [toolCallsToOpenaiFormat, List.map_map, List.map_map, List.forall₂_map_right_iff,
      List.forall₂_same]
    exact fun call listed => sameCall_callOf exact (answer.calls call listed)

/-- The text of the last message of a conversation, an answer of the assistant, is read as this
message. -/
theorem parse_renderMessage (exact : Json.Exact py.floats)
    (answer : Answer py messages index msg content)
    (ordinary : Ordinary messages index msg mode effort) {drop : Bool} {rendered : Text}
    (ok : renderMessage py index messages mode drop effort = .ok rendered) :
    ∃ parsed, parseMessageFromCompletionText rendered mode = .ok parsed ∧
      parsed.content = content ∧
      parsed.reasoningContent = (if mode = .thinking then msg.reasoningContent else []) ∧
      List.Forall₂ (SameCall py) msg.toolCalls parsed.toolCalls := by
  have next : messages[index + 1]? = none := List.getElem?_eq_none answer.last.ge
  have transition : renderTransition index messages msg mode drop = .ok [] := by
    rw [renderTransition, next]
    dsimp only
    rw [renderTransition.transition, ordinary.task, answer.role]
    rfl
  have few : ¬ (index = 0 ∧ mode = .thinking ∧ effort = some .max) :=
    fun ⟨first, thinking, most⟩ => ordinary.effort thinking first most
  unfold renderMessage at ok
  rw [answer.here] at ok
  dsimp only at ok
  cases tools : toolsFromOpenaiFormat msg.tools with
  | error e =>
    rw [tools] at ok
    cases ok
  | ok tools' =>
    rw [tools, if_neg few] at ok
    simp only [bind, Except.bind, renderRole_answer answer ordinary tools' drop, transition] at ok
    obtain rfl := Except.ok.inj ok
    rw [List.nil_append, List.append_nil]
    simp only [List.append_assoc]
    cases mode with
    | chat =>
      have free : Free [] := by
        unfold Free
        decide
      obtain ⟨toolCalls, read, same⟩ := parseContent_answer exact answer ordinary free
      rw [if_neg nofun, List.nil_append, parseMessageFromCompletionText, if_neg nofun, read]
      exact ⟨_, rfl, rfl, rfl, same⟩
    | thinking =>
      obtain ⟨toolCalls, read, same⟩ := parseContent_answer exact answer ordinary answer.reasoning
      rw [if_pos rfl, List.append_assoc, parseMessage_thinking answer.reasoning, read]
      exact ⟨_, rfl, rfl, rfl, same⟩

/-- One float, 1.5. -/
def halves : Builtins Unit where
  floats := ⟨fun _ => text "1.5", fun _ => .finite ()⟩
  str _ := text "1.5"

lemma exact_halves : Json.Exact halves.floats := fun _ => by rfl

theorem parse_renderMessage_weather :
    let members : Dict Unit :=
      [(text "degrees", .float (.finite ())), (text "note", .str (text "a<b\n\""))]
    let call : ToolCall := { function := ⟨[], text "report", toJson halves (.obj members)⟩ }
    let answer : Message Unit :=
      { role := .assistant, content := .value (.text (text "It is warm.\n")),
        reasoningContent := text "1.5 degrees?", toolCalls := [call, call] }
    let asked : Message Unit := { role := .user, content := .value (.text (text "How warm?")) }
    ∃ rendered parsed,
      renderMessage halves 1 [asked, answer] .thinking true none = .ok rendered ∧
      parseMessageFromCompletionText rendered .thinking = .ok parsed ∧
      parsed.content = text "It is warm.\n" ∧ parsed.reasoningContent = text "1.5 degrees?" ∧
      List.Forall₂ (SameCall halves) [call, call] parsed.toolCalls := by
  intro members call answer asked
  have distinct : Json.Distinct (.obj members) := by
    simp only [members, Json.Distinct, Json.DistinctMembers]
    decide +kernel
  have clear : Json.Clear dsmlToken (.obj members) := by
    simp only [members, Json.Clear, Json.ClearMembers]
    decide +kernel
  have readable : ReadableCall halves call.function :=
    ⟨by decide +kernel, by decide +kernel, members, Json.loads_dumps exact_halves distinct,
      by decide +kernel, clear⟩
  have free : Free (text "It is warm.\n") ∧ Free (text "1.5 degrees?") := by
    unfold Free
    decide +kernel
  have answers : Answer halves [asked, answer] 1 answer (text "It is warm.\n") :=
    ⟨rfl, rfl, rfl, rfl, free.1, free.2,
      List.forall_mem_cons.mpr ⟨readable, List.forall_mem_singleton.mpr readable⟩⟩
  have ordinary : Ordinary [asked, answer] 1 answer .thinking none :=
    ⟨by rintro ⟨⟩, rfl, fun _ _ => rfl, by rintro _ ⟨⟩⟩
  have encoded : (renderMessage halves 1 [asked, answer] .thinking true none).isOk := by
    decide +kernel
  cases ok : renderMessage halves 1 [asked, answer] .thinking true none with
  | error e =>
    rw [ok] at encoded
    cases encoded
  | ok rendered =>
    obtain ⟨parsed, read⟩ := parse_renderMessage exact_halves answers ordinary ok
    exact ⟨rendered, parsed, rfl, read⟩

lemma reasoning_ne_nil {c : Code} {s : Text} {parsed : Parsed} (other : c ≠ code '<')
    (ok : parseMessageFromCompletionText (c :: s) .thinking = .ok parsed) :
    parsed.reasoningContent ≠ [] := by
  obtain ⟨offset, at', reasons, -⟩ := parseMessage_ok ok
  cases at' with
  | @thinking p first =>
    rw [reasons, Nat.add_sub_cancel]
    cases p with
    | zero =>
      have starts := at_zero.mp (firstAt_eq_some.mp first).1
      have mark : thinkingEndToken = code '<' :: thinkingEndToken.tail := by decide
      rw [mark, List.cons_prefix_cons] at starts
      exact absurd starts.1.symm other
    | succ p => exact List.cons_ne_nil _ _

/-- Without the end mark, with a task, as the output of a task, with a mark in a key inside an
argument, and with the text for the most effort, an answer is not read as it was. -/
theorem renderMessage_not_read :
    let read (messages : List (Message Unit)) (index : Nat) (mode : ThinkingMode)
        (effort : Option ReasoningEffort) : Except EncodingError (Except ParseError Parsed) :=
      (renderMessage halves index messages mode true effort).map fun rendered =>
        parseMessageFromCompletionText rendered mode
    let answer : Message Unit := { role := .assistant, content := .value (.text (text "Hi.")) }
    let asked : Message Unit :=
      { role := .user, content := .value (.text (text "Hello.")), task := some (text "title") }
    let call : ToolFunction :=
      ⟨[], text "report", text "\x7b\"a\": \x7b\"/｜DSML｜parameter\": 1\x7d\x7d"⟩
    read [{ answer with woEos := true }] 0 .chat none = .ok (.error .missingEos) ∧
      read [{ answer with task := some (text "title") }] 0 .chat none = .ok (.error .contentAtEnd) ∧
      read [asked, answer] 1 .thinking none = .ok (.error .missingThinkingEnd) ∧
      read [{ answer with toolCalls := [{ function := call }] }] 0 .chat none =
        .ok (.error (.parameterFormat (text " name=\"a\" string=\"false\">\x7b\""))) ∧
      read [answer] 0 .thinking (some .max) ≠ .ok (.ok ⟨text "Hi.", [], []⟩) := by
  refine ⟨by decide +kernel, by decide +kernel, by decide +kernel, by decide +kernel, ?_⟩
  intro same
  obtain ⟨s, first⟩ : ∃ s, reasoningEffortMax = code 'R' :: s :=
    List.head?_eq_some_iff.mp (by decide +kernel)
  have rendered := Except.ok.inj same
  dsimp only at rendered
  rw [first] at rendered
  exact reasoning_ne_nil (by decide) rendered rfl

end PocketMoE.Encoding
