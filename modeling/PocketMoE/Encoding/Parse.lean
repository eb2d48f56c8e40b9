import PocketMoE.Encoding.Dsv4
import PocketMoE.Lib.Pattern

/-!
# Parsing a completion

Model of `parse_message_from_completion_text` and what it calls (`dsv4.py`). The source keeps the text
and a place in it; here what is left of the text stands for the place.

The two loops of `parse_tool_calls` have fuel, the length of the text and one more. Each round takes
a mark of the text, so it does not run out (`parseToolCalls_ne_cutOff`).
-/

namespace PocketMoE.Encoding
open PocketMoE.Lib

/-! ## Reading up to a mark -/

/-- One stop of `_read_until_stop`: the least place so far, and the stop that is there. -/
def stopStep (s : Text) (found : Nat × Option Text) (stop : Text) : Nat × Option Text :=
  match firstAt stop s with
  | some pos => if pos < found.1 then (pos, some stop) else found
  | none => found

/-- `_read_until_stop`: the text up to the first of some marks, the mark, and what is left. -/
def readUntilStop (s : Text) (stops : List Text) : Text × Option Text × Text :=
  let (minPos, matchedStop) := stops.foldl (stopStep s) (s.length, none)
  match matchedStop with
  | some stop => (s.take minPos, some stop, s.drop (minPos + stop.length))
  | none => (s, none, [])

/-! ## Tool calls -/

/-- `tool_calls_end_token`. -/
def toolCallsEndToken : Text := text "</" ++ dsmlToken ++ toolCallsBlockName ++ text ">"

/-- `tool_calls_start_token`. -/
def toolCallsStartToken : Text := text "\n\n<" ++ dsmlToken ++ toolCallsBlockName

def invokeStart : Text := text "<" ++ dsmlToken ++ text "invoke"
def invokeEnd : Text := text "</" ++ dsmlToken ++ text "invoke"
def parameterStart : Text := text "<" ++ dsmlToken ++ text "parameter"
def parameterEnd : Text := text "/" ++ dsmlToken ++ text "parameter"

/-- The exceptions. `cutOff` is not the source's: a loop has no fuel left. -/
inductive ParseError where
  | toolCallFormat (found : Text)
  | missingSpecialToken
  | toolNameFormat (found : Text)
  | parameterFormat (found : Text)
  | duplicateParameter (name : Text)
  | missingThinkingEnd
  | missingEos
  | contentAfterToolCalls
  | contentAtEnd
  | specialToken (token : Text)
  | cutOff
deriving DecidableEq

/-- `^\s*name="(.*?)">\n$`. -/
def toolNamePattern : List Item := [.spaces, .lit (text "name=\""), .lazyGroup, .lit (text "\">\n"), .eol]

/-- `^ name="(.*?)" string="(true|false)">(.*?)<$`. -/
def parameterPattern : List Item :=
  [.lit (text " name=\""), .lazyGroup, .lit (text "\" string=\""),
    .oneOf [text "true", text "false"], .lit (text "\">"), .lazyGroup, .lit (text "<"), .eol]

/-- An entry of `tool_args`. -/
structure Parameter where
  name : Text
  value : Text
  string : Text
deriving DecidableEq

/-- `_decode_value`; the values are strings, for which `to_json` knows no floats. -/
def decodeValue (param : Parameter) : Text :=
  Json.dumpsStr param.name ++ text ": " ++
    if param.string = text "true" then Json.dumpsStr param.value else param.value

/-- `decode_dsml_to_arguments`. -/
def decodeDsmlToArguments (toolName : Text) (toolArgs : List Parameter) : ToolFunction where
  name := toolName
  arguments :=
    text "\x7b" ++ (text ", ").intercalate (toolArgs.map decodeValue) ++ text "\x7d"

/-- The loop over the parameters of a call: what is left, the last mark, and `tool_args`. -/
def parseParameters : (fuel : Nat) → Text → Option Text → List Parameter →
    Except ParseError (Text × Option Text × List Parameter)
  | 0, _, _, _ => .error .cutOff
  | fuel + 1, s, stopToken, toolArgs =>
    if stopToken = some parameterStart then
      let (paramContent, _, s) := readUntilStop s [parameterEnd]
      match Item.matchItems parameterPattern paramContent with
      | some [paramName, string, paramValue] =>
        if paramName ∈ toolArgs.map (·.name) then .error (.duplicateParameter paramName)
        else
          let (content, stopToken, s) := readUntilStop s [parameterStart, invokeEnd]
          if content ≠ text ">\n" then .error (.parameterFormat content)
          else parseParameters fuel s stopToken (toolArgs ++ [⟨paramName, paramValue, string⟩])
      | _ => .error (.parameterFormat paramContent)
    else .ok (s, stopToken, toolArgs)

/-- The loop over the calls. -/
def parseCalls : (fuel : Nat) → Text → Option Text → List ToolFunction →
    Except ParseError (Text × Option Text × List ToolFunction)
  | 0, _, _, _ => .error .cutOff
  | fuel + 1, s, stopToken, toolCalls =>
    if s = [] then .ok (s, stopToken, toolCalls)
    else
      let (between, stopToken, s) := readUntilStop s [invokeStart, toolCallsEndToken]
      if between ≠ text ">\n" then .error (.toolCallFormat between)
      else if stopToken = some toolCallsEndToken then .ok (s, stopToken, toolCalls)
      else if stopToken = none then .error .missingSpecialToken
      else
        let (toolNameContent, stopToken, s) := readUntilStop s [parameterStart, invokeEnd]
        match Item.matchItems toolNamePattern toolNameContent with
        | some [toolName] =>
          match parseParameters (s.length + 1) s stopToken [] with
          | .ok (s, stopToken, toolArgs) =>
            parseCalls fuel s stopToken (toolCalls ++ [decodeDsmlToArguments toolName toolArgs])
          | .error e => .error e
        | _ => .error (.toolNameFormat toolNameContent)

/-- `parse_tool_calls`. -/
def parseToolCalls (s : Text) : Except ParseError (Text × Option Text × List ToolFunction) :=
  parseCalls (s.length + 1) s none []

/-! ## The message -/

/-- What `parse_message_from_completion_text` returns; the role is that of an assistant. -/
structure Parsed where
  content : Text
  reasoningContent : Text
  toolCalls : List ToolCall
deriving DecidableEq

/-- The tokens that content and reasoning may not have. -/
def forbiddenTokens : List Text :=
  [bosToken, eosToken, thinkingStartToken, thinkingEndToken, dsmlToken]

/-- `tool_calls_to_openai_format`. -/
def toolCallsToOpenaiFormat (calls : List ToolFunction) : List ToolCall :=
  calls.map fun call => { function := call }

/-- The assertions at the end. -/
def finishParse (reasoningContent summaryContent s : Text) (stopToken : Option Text)
    (toolCalls : List ToolFunction) : Except ParseError Parsed :=
  if ¬ (s = [] ∧ (stopToken = some eosToken ∨ stopToken = none)) then .error .contentAtEnd
  else
    match forbiddenTokens.find? fun token =>
        token <:+: summaryContent ∨ token <:+: reasoningContent with
    | some token => .error (.specialToken token)
    | none => .ok ⟨summaryContent, reasoningContent, toolCallsToOpenaiFormat toolCalls⟩

/-- The part behind the reasoning. -/
def parseContent (reasoningContent s : Text) : Except ParseError Parsed :=
  let (summaryContent, stopToken, s) := readUntilStop s [eosToken, toolCallsStartToken]
  if stopToken = some toolCallsStartToken then
    match parseToolCalls s with
    | .error e => .error e
    | .ok (s, _, toolCalls) =>
      let (toolEndsText, stopToken, s) := readUntilStop s [eosToken]
      if toolEndsText ≠ [] then .error .contentAfterToolCalls
      else finishParse reasoningContent summaryContent s stopToken toolCalls
  else if stopToken ≠ some eosToken then .error .missingEos
  else finishParse reasoningContent summaryContent s stopToken []

/-- `parse_message_from_completion_text`. -/
def parseMessageFromCompletionText (s : Text) (thinkingMode : ThinkingMode) :
    Except ParseError Parsed :=
  if thinkingMode = .thinking then
    let (reasoningContent, stopToken, s) := readUntilStop s [thinkingEndToken, toolCallsStartToken]
    if stopToken = some thinkingEndToken then parseContent reasoningContent s
    else .error .missingThinkingEnd
  else parseContent [] s

/-! ## What is read -/

variable {s : Text} {stops : List Text}

/-- The stops that have been looked for: the first place of one of them, if there is one. -/
structure Found (s : Text) (stops : List Text) (found : Nat × Option Text) : Prop where
  le : found.1 ≤ s.length
  least : ∀ stop ∈ stops, ∀ p, At stop s p → found.1 ≤ p
  here : ∀ stop ∈ found.2, stop ∈ stops ∧ At stop s found.1
  nowhere : found.2 = none → found.1 = s.length

lemma Found.step {found : Nat × Option Text} (ok : Found s stops found) (stop : Text) :
    Found s (stops ++ [stop]) (stopStep s found stop) := by
  have keep : ∀ stop' ∈ found.2, stop' ∈ stops ++ [stop] ∧ At stop' s found.1 :=
    fun stop' here => ⟨List.mem_append_left _ (ok.here stop' here).1, (ok.here stop' here).2⟩
  unfold stopStep
  cases first : firstAt stop s with
  | none =>
    refine ⟨ok.le, List.forall_mem_append.mpr ⟨ok.least, ?_⟩, keep, ok.nowhere⟩
    refine List.forall_mem_singleton.mpr fun p there => ?_
    exact absurd there (firstAt_eq_none.mp first p)
  | some pos =>
    obtain ⟨here, before⟩ := firstAt_eq_some.mp first
    have least : ∀ p, At stop s p → pos ≤ p :=
      fun p there => Nat.le_of_not_lt fun lt => before p lt there
    dsimp only
    split_ifs with lt
    · refine ⟨here.1, List.forall_mem_append.mpr ⟨?_, ?_⟩, ?_, nofun⟩
      · exact fun stop' listed p there => (Nat.le_of_lt lt).trans (ok.least stop' listed p there)
      · exact List.forall_mem_singleton.mpr least
      · rintro _ ⟨⟩
        exact ⟨List.mem_append_right _ List.mem_cons_self, here⟩
    · refine ⟨ok.le, List.forall_mem_append.mpr ⟨ok.least, ?_⟩, keep, ok.nowhere⟩
      exact List.forall_mem_singleton.mpr fun p there =>
        (Nat.le_of_not_lt lt).trans (least p there)

lemma found_foldl (s : Text) (stops : List Text) :
    Found s stops (stops.foldl (stopStep s) (s.length, none)) := by
  have fold : ∀ (stops before : List Text) (found : Nat × Option Text), Found s before found →
      Found s (before ++ stops) (stops.foldl (stopStep s) found) := by
    intro stops
    induction stops with
    | nil =>
      intro before found ok
      rwa [List.append_nil]
    | cons stop stops ih =>
      intro before found ok
      rw [List.append_cons]
      exact ih _ _ (ok.step stop)
  exact fold stops [] _ ⟨le_rfl, nofun, nofun, fun _ => rfl⟩

lemma readUntilStop_some {content stop rest : Text}
    (read : readUntilStop s stops = (content, some stop, rest)) :
    stop ∈ stops ∧ s = content ++ (stop ++ rest) ∧
      ∀ stop' ∈ stops, ∀ p, At stop' s p → content.length ≤ p := by
  have ok := found_foldl s stops
  unfold readUntilStop at read
  generalize stops.foldl (stopStep s) (s.length, none) = found at ok read
  obtain ⟨pos, matched⟩ := found
  cases matched with
  | none => cases read
  | some stop' =>
    cases read
    obtain ⟨listed, here⟩ := ok.here stop rfl
    obtain ⟨before, after, rfl, rfl⟩ := at_iff.mp here
    have behind : (before ++ (stop ++ after)).drop (before.length + stop.length) = after := by
      rw [← List.append_assoc, ← List.length_append, List.drop_left]
    rw [List.take_left, behind]
    exact ⟨listed, rfl, ok.least⟩

lemma readUntilStop_none {content rest : Text}
    (read : readUntilStop s stops = (content, none, rest)) :
    content = s ∧ rest = [] ∧ ∀ stop ∈ stops, ∀ p, At stop s p → s.length ≤ p := by
  have ok := found_foldl s stops
  unfold readUntilStop at read
  generalize stops.foldl (stopStep s) (s.length, none) = found at ok read
  obtain ⟨pos, matched⟩ := found
  cases matched with
  | some stop => cases read
  | none =>
    cases read
    obtain rfl : pos = s.length := ok.nowhere rfl
    exact ⟨rfl, rfl, ok.least⟩

lemma readUntilStop_eq {content stop rest : Text} (some : stop ≠ []) (listed : stop ∈ stops)
    (first : ∀ stop' ∈ stops, ∀ p ≤ content.length, At stop' (content ++ (stop ++ rest)) p →
      stop' = stop ∧ p = content.length) :
    readUntilStop (content ++ (stop ++ rest)) stops = (content, .some stop, rest) := by
  have here : At stop (content ++ (stop ++ rest)) content.length :=
    at_iff.mpr ⟨content, rest, rfl, rfl⟩
  have pos := List.length_pos_of_ne_nil some
  cases read : readUntilStop (content ++ (stop ++ rest)) stops with
  | mk content' more =>
    obtain ⟨matched, rest'⟩ := more
    cases matched with
    | none =>
      have whole := (readUntilStop_none read).2.2 stop listed _ here
      rw [List.length_append, List.length_append] at whole
      omega
    | some stop' =>
      obtain ⟨listed', eq, least⟩ := readUntilStop_some read
      have there : At stop' (content ++ (stop ++ rest)) content'.length :=
        at_iff.mpr ⟨content', rest', eq, rfl⟩
      obtain ⟨rfl, length⟩ := first stop' listed' _ (least stop listed _ here) there
      obtain ⟨rfl, same⟩ := List.append_inj eq length.symm
      rw [List.append_cancel_left same]

lemma readUntilStop_first {content stop rest : Text} {c : Code} (listed : stop ∈ stops)
    (heads : ∀ stop' ∈ stops, stop'.head? = some c ∧ c ∉ stop'.tail)
    (apart : ∀ stop' ∈ stops, stop' <+: stop ∨ stop <+: stop' → stop' = stop)
    (clear : ∀ stop' ∈ stops, ¬ stop' <:+: content) :
    readUntilStop (content ++ (stop ++ rest)) stops = (content, some stop, rest) := by
  have first : ∀ stop' ∈ stops, ∃ tail, stop' = c :: tail ∧ c ∉ tail := by
    intro stop' listed'
    obtain ⟨head, once⟩ := heads stop' listed'
    obtain ⟨tail, rfl⟩ := List.head?_eq_some_iff.mp head
    exact ⟨tail, rfl, once⟩
  obtain ⟨tail, eq, -⟩ := first stop listed
  refine readUntilStop_eq (by rw [eq]; nofun) listed fun stop' listed' p le here => ?_
  obtain ⟨tail', rfl, once⟩ := first stop' listed'
  have behind : content.length ≤ p := by
    rw [eq] at here
    rcases here.head once with inside | behind
    · exact absurd (infix_iff_at.mpr ⟨p, inside⟩) (clear _ listed')
    · exact behind
  obtain rfl := Nat.le_antisymm le behind
  have starts := here.2
  rw [List.drop_left] at starts
  exact ⟨apart _ listed' (List.prefix_or_prefix_of_prefix starts (List.prefix_append ..)), rfl⟩

/-! ## What is accepted -/

variable {parsed : Parsed}

/-- Behind the reasoning stands the content, and then the end mark or a block of tool calls. -/
inductive Body (s content : Text) : Prop where
  | plain (none : firstAt toolCallsStartToken s = none) (eq : s = content ++ eosToken)
  | calls (first : firstAt toolCallsStartToken s = some content.length) (starts : content <+: s)

lemma finishParse_ok {reasoning summary : Text} {stop : Option Text} {calls : List ToolFunction}
    (ok : finishParse reasoning summary s stop calls = .ok parsed) :
    s = [] ∧ parsed.content = summary ∧ parsed.reasoningContent = reasoning := by
  unfold finishParse at ok
  split_ifs at ok with ends
  split at ok
  · cases ok
  · cases ok
    exact ⟨ends.1, rfl, rfl⟩

lemma not_at_eos {p : Nat} : ¬ At toolCallsStartToken eosToken p := by
  intro here
  have member : code '\n' ∈ eosToken :=
    (infix_iff_at.mpr ⟨p, here⟩).subset (by decide)
  exact absurd member (by decide)

lemma parseContent_ok {reasoning : Text} (ok : parseContent reasoning s = .ok parsed) :
    parsed.reasoningContent = reasoning ∧ Body s parsed.content := by
  unfold parseContent at ok
  rcases read : readUntilStop s [eosToken, toolCallsStartToken] with ⟨content, stop, rest⟩
  rw [read] at ok
  dsimp only at ok
  split_ifs at ok with calls plain
  · obtain rfl := calls
    obtain ⟨-, eq, least⟩ := readUntilStop_some read
    have first : firstAt toolCallsStartToken s = some content.length := by
      refine firstAt_eq_some.mpr ⟨at_iff.mpr ⟨content, rest, eq, rfl⟩, fun p before here => ?_⟩
      exact absurd before (Nat.not_lt.mpr (least _ (by simp) p here))
    split at ok
    · cases ok
    · next rest' _ _ _ =>
      rcases read' : readUntilStop rest' [eosToken] with ⟨ends, stop', rest''⟩
      rw [read'] at ok
      dsimp only at ok
      split_ifs at ok
      obtain ⟨-, same, reasons⟩ := finishParse_ok ok
      rw [same]
      exact ⟨reasons, .calls first (eq ▸ List.prefix_append ..)⟩
  · obtain rfl := not_ne_iff.mp plain
    obtain ⟨-, eq, least⟩ := readUntilStop_some read
    obtain ⟨rfl, same, reasons⟩ := finishParse_ok ok
    rw [List.append_nil] at eq
    rw [same]
    refine ⟨reasons, .plain (firstAt_eq_none.mpr fun p here => ?_) eq⟩
    have le := least _ (by simp) p here
    rw [eq] at here
    exact not_at_eos (here.of_append_right le)

/-- Where the content begins: behind `</think>` in thinking mode. -/
inductive Offset (whole : Text) : ThinkingMode → Nat → Prop where
  | chat : Offset whole .chat 0
  | thinking {p : Nat} (first : firstAt thinkingEndToken whole = some p) :
    Offset whole .thinking (p + thinkingEndToken.length)

lemma Offset.le {mode : ThinkingMode} {offset : Nat} (at' : Offset s mode offset) : offset ≤ s.length := by
  cases at' with
  | chat => exact Nat.zero_le _
  | thinking first => exact (firstAt_eq_some.mp first).1.length_le

lemma parseMessage_ok {mode : ThinkingMode}
    (ok : parseMessageFromCompletionText s mode = .ok parsed) :
    ∃ offset, Offset s mode offset ∧
      parsed.reasoningContent = s.take (offset - thinkingEndToken.length) ∧
      Body (s.drop offset) parsed.content := by
  unfold parseMessageFromCompletionText at ok
  split_ifs at ok with thinking
  · obtain rfl := thinking
    rcases read : readUntilStop s [thinkingEndToken, toolCallsStartToken] with
      ⟨reasoning, stop, rest⟩
    rw [read] at ok
    dsimp only at ok
    split_ifs at ok with ends
    obtain rfl := ends
    obtain ⟨-, eq, least⟩ := readUntilStop_some read
    have first : firstAt thinkingEndToken s = some reasoning.length := by
      refine firstAt_eq_some.mpr ⟨at_iff.mpr ⟨reasoning, rest, eq, rfl⟩, fun p before here => ?_⟩
      exact absurd before (Nat.not_lt.mpr (least _ (by simp) p here))
    obtain ⟨reasons, body⟩ := parseContent_ok ok
    refine ⟨_, .thinking first, ?_, ?_⟩
    · rw [reasons, Nat.add_sub_cancel, eq, List.take_left]
    · rwa [eq, ← List.append_assoc, ← List.length_append, List.drop_left]
  · obtain ⟨reasons, body⟩ := parseContent_ok ok
    cases mode with
    | chat => exact ⟨0, .chat, by rw [reasons, Nat.zero_sub, List.take_zero], body⟩
    | thinking => exact absurd rfl thinking

/-! ## The fuel is enough -/

lemma readUntilStop_length {content rest : Text} {matched : Option Text}
    (read : readUntilStop s stops = (content, matched, rest)) :
    content.length + rest.length ≤ s.length := by
  cases matched with
  | none =>
    obtain ⟨rfl, rfl, -⟩ := readUntilStop_none read
    exact le_rfl
  | some stop =>
    obtain ⟨-, rfl, -⟩ := readUntilStop_some read
    rw [List.length_append, List.length_append]
    omega

/-- The loop has ended, and has left at most so much of the text. -/
structure Halts {α : Type} (n : Nat) (result : Except ParseError (Text × α)) : Prop where
  ends : result ≠ .error .cutOff
  le : ∀ rest a, result = .ok (rest, a) → rest.length ≤ n

lemma Halts.ok {α : Type} {n : Nat} {rest : Text} {a : α} (le : rest.length ≤ n) :
    Halts n (.ok (rest, a)) := by
  refine ⟨nofun, ?_⟩
  rintro _ _ ⟨⟩
  exact le

lemma Halts.error {α : Type} {n : Nat} {e : ParseError} (other : e ≠ .cutOff) :
    Halts n (.error e : Except ParseError (Text × α)) :=
  ⟨fun eq => other (Except.error.inj eq), nofun⟩

lemma Halts.mono {α : Type} {n m : Nat} {result : Except ParseError (Text × α)}
    (halts : Halts n result) (le : n ≤ m) : Halts m result :=
  ⟨halts.ends, fun rest a eq => (halts.le rest a eq).trans le⟩

lemma length_lineEnd : (text ">\n").length = 2 := by decide

lemma parseParameters_halts {fuel : Nat} (enough : s.length < fuel) (stopToken : Option Text)
    (toolArgs : List Parameter) : Halts s.length (parseParameters fuel s stopToken toolArgs) := by
  induction fuel generalizing s stopToken toolArgs with
  | zero => exact absurd enough (Nat.not_lt_zero _)
  | succ fuel ih =>
    rw [parseParameters]
    split_ifs
    · rcases read : readUntilStop s [parameterEnd] with ⟨paramContent, end', s'⟩
      rcases read' : readUntilStop s' [parameterStart, invokeEnd] with ⟨content, next, s''⟩
      have le := readUntilStop_length read
      have le' := readUntilStop_length read'
      dsimp only
      split
      · rw [read']
        dsimp only
        split_ifs with twice format
        · exact .error nofun
        · exact .error nofun
        · rw [not_ne_iff.mp format, length_lineEnd] at le'
          exact (ih (by omega) _ _).mono (by omega)
      · exact .error nofun
    · exact .ok le_rfl

lemma parseCalls_halts {fuel : Nat} (enough : s.length < fuel) (stopToken : Option Text)
    (toolCalls : List ToolFunction) : Halts s.length (parseCalls fuel s stopToken toolCalls) := by
  induction fuel generalizing s stopToken toolCalls with
  | zero => exact absurd enough (Nat.not_lt_zero _)
  | succ fuel ih =>
    rw [parseCalls]
    split_ifs
    · exact .ok le_rfl
    · rcases read : readUntilStop s [invokeStart, toolCallsEndToken] with ⟨between, start, s'⟩
      rcases read' : readUntilStop s' [parameterStart, invokeEnd] with ⟨nameContent, next, s''⟩
      have le := readUntilStop_length read
      have le' := readUntilStop_length read'
      dsimp only
      rw [read']
      split_ifs with format
      · exact .error nofun
      · exact .ok (by omega)
      · exact .error nofun
      · rw [not_ne_iff.mp format, length_lineEnd] at le
        dsimp only
        split
        · have params := parseParameters_halts (Nat.lt_succ_self s''.length) next []
          cases parsed : parseParameters (s''.length + 1) s'' next [] with
          | error e =>
            refine .error ?_
            rintro rfl
            exact params.ends parsed
          | ok result =>
            have short := params.le _ _ parsed
            exact (ih (by omega) _ _).mono (by omega)
        · exact .error nofun

/-- The loops of `parse_tool_calls` do not run out of fuel. -/
theorem parseToolCalls_ne_cutOff (s : Text) : parseToolCalls s ≠ .error .cutOff :=
  (parseCalls_halts (Nat.lt_succ_self _) none []).ends

end PocketMoE.Encoding
