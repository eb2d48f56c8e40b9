import PocketMoE.Lib.Json

/-!
# The message encoding

Model of `encode_messages` and what it calls (`dsv4.py`). A message is a record of the keys that are
read. What a key can be missing for, or be `None` or empty for, is one value where the code does not
tell these apart.

Python's `float` and its `str` of values that are no strings are parameters (`Builtins`).
-/

namespace PocketMoE.Encoding
open PocketMoE.Lib

/-! ## Special tokens -/

def bosToken : Text := text "<｜begin▁of▁sentence｜>"
def eosToken : Text := text "<｜end▁of▁sentence｜>"
def thinkingStartToken : Text := text "<think>"
def thinkingEndToken : Text := text "</think>"
def dsmlToken : Text := text "｜DSML｜"

def userSpToken : Text := text "<｜User｜>"
def assistantSpToken : Text := text "<｜Assistant｜>"
def latestReminderSpToken : Text := text "<｜latest_reminder｜>"

/-- `DS_TASK_SP_TOKENS`. -/
def dsTaskSpTokens : List (Text × Text) :=
  [(text "action", text "<｜action｜>"), (text "query", text "<｜query｜>"),
    (text "authority", text "<｜authority｜>"), (text "domain", text "<｜domain｜>"),
    (text "title", text "<｜title｜>"), (text "read_url", text "<｜read_url｜>")]

/-- `tool_calls_block_name`. -/
def toolCallsBlockName : Text := text "tool_calls"

/-! ## Messages -/

inductive Role where
  | system
  | developer
  | user
  | latestReminder
  | tool
  | assistant
  | directSearchResults
  | other (name : Text)
deriving DecidableEq

/-- `thinking_mode`. -/
inductive ThinkingMode where
  | chat
  | thinking
deriving DecidableEq

/-- `reasoning_effort`, if it is not `None`. -/
inductive ReasoningEffort where
  | minimal
  | low
  | medium
  | high
  | max
deriving DecidableEq

/-- A dictionary of JSON values. -/
abbrev Dict (R : Type) := List (Text × Json R)

/-- `content`: a text, or parts. -/
inductive Content (R : Type) where
  | text (s : Text)
  | parts (parts : List (Dict R))

/-- What a message has under a key. -/
inductive Field (α : Type) where
  | missing
  | null
  | value (a : α)

/-- `msg.get(key)`. -/
def Field.get {α : Type} : Field α → Option α
  | .missing => none
  | .null => none
  | .value a => some a

/-- `msg.get(key, default)`. -/
def Field.getD {α : Type} (field : Field α) (default : α) : Field α :=
  match field with
  | .missing => .value default
  | other => other

/-- A member of `content_blocks`. -/
inductive Block (R : Type) where
  | text (value : Field (Content R))
  | toolResult (toolUseId : Text) (content : Field (Content R))
  | other (type : Option Text)

/-- `function` of a tool call; `arguments` is a JSON text. -/
structure ToolFunction where
  id : Text := []
  name : Text
  arguments : Text
deriving DecidableEq

structure ToolCall where
  id : Text := []
  function : ToolFunction
deriving DecidableEq

structure Message (R : Type) where
  role : Role
  content : Field (Content R) := .missing
  contentBlocks : Option (List (Block R)) := none
  toolCallId : Text := []
  tools : List (Dict R) := []
  responseFormat : Dict R := []
  toolCalls : List ToolCall := []
  reasoningContent : Text := []
  woEos : Bool := false
  task : Option Text := none
  mask : Field (Json R) := .missing

/-- The exceptions. -/
inductive EncodingError where
  | indexOutOfRange
  | invalidMessage (role : Role)
  | toolMessage
  | unknownRole (role : Role)
  | invalidTask (task : Text)
  | keyError (key : String)
  | typeError
  | attributeError
deriving DecidableEq

/-- What is used of Python: the texts of floats, and `str` of a value that is no string. -/
structure Builtins (R : Type) where
  floats : FloatText R
  str : Json R → Text

variable {R : Type} (py : Builtins R)

/-- `to_json`. -/
def toJson (v : Json R) : Text := Json.dumps py.floats v

/-- A value in a format string. -/
def format : Json R → Text
  | .null => text "None"
  | .str s => s
  | v => py.str v

/-- `d.get(key)`. -/
def Dict.get (d : Dict R) (key : Text) : Option (Json R) := d.lookup key

/-! ## Tools -/

/-- `tools_from_openai_format`. -/
def toolsFromOpenaiFormat (tools : List (Dict R)) : Except EncodingError (List (Json R)) :=
  tools.mapM fun tool =>
    match tool.get (text "function") with
    | some function => .ok function
    | none => .error (.keyError "function")

/-- `p_dsml_template`. -/
def encodeParameter (key : Text) (v : Json R) : Text :=
  let (isStr, value) := match v with
    | .str s => (text "true", s)
    | v => (text "false", toJson py v)
  text "<" ++ dsmlToken ++ text "parameter name=\"" ++ key ++ text "\" string=\"" ++ isStr ++
    text "\">" ++ value ++ text "</" ++ dsmlToken ++ text "parameter>"

/-- `encode_arguments_to_dsml`. -/
def encodeArgumentsToDsml (arguments : Text) : Except EncodingError Text :=
  let join (members : Dict R) : Text :=
    (text "\n").intercalate (members.map fun member => encodeParameter py member.1 member.2)
  match Json.loads py.floats arguments with
  | some (.obj members) => .ok (join members)
  | some _ => .error .attributeError
  | none => .ok (join [(text "arguments", .str arguments)])

/-- `tool_call_template`. -/
def encodeToolCall (call : ToolFunction) : Except EncodingError Text :=
  (encodeArgumentsToDsml py call.arguments).map fun arguments =>
    text "<" ++ dsmlToken ++ text "invoke name=\"" ++ call.name ++ text "\">\n" ++ arguments ++
      text "\n</" ++ dsmlToken ++ text "invoke>"

/-- `tool_calls_template`. -/
def toolCallsTemplate (toolCalls : Text) : Text :=
  text "<" ++ dsmlToken ++ toolCallsBlockName ++ text ">\n" ++ toolCalls ++ text "\n</" ++
    dsmlToken ++ toolCallsBlockName ++ text ">"

/-- `TOOLS_TEMPLATE`. -/
def toolsTemplate (toolSchemas : Text) : Text :=
  text "## Tools\n\nYou have access to a set of tools to help answer the user's question. " ++
  text "You can invoke tools by writing a \"<" ++ dsmlToken ++
  text "tool_calls>\" block like the following:\n\n<" ++ dsmlToken ++ text "tool_calls>\n<" ++
  dsmlToken ++ text "invoke name=\"$TOOL_NAME\">\n<" ++ dsmlToken ++
  text "parameter name=\"$PARAMETER_NAME\" string=\"true|false\">$PARAMETER_VALUE</" ++ dsmlToken ++
  text "parameter>\n...\n</" ++ dsmlToken ++ text "invoke>\n<" ++ dsmlToken ++
  text "invoke name=\"$TOOL_NAME2\">\n...\n</" ++ dsmlToken ++ text "invoke>\n</" ++ dsmlToken ++
  text "tool_calls>\n\nString parameters should be specified as is and set `string=\"true\"`. " ++
  text "For all other types (numbers, booleans, arrays, objects), pass the value in JSON format " ++
  text "and set `string=\"false\"`.\n\nIf thinking_mode is enabled (triggered by " ++
  thinkingStartToken ++ text "), you MUST output your complete reasoning inside " ++
  thinkingStartToken ++ text "..." ++ thinkingEndToken ++
  text " BEFORE any tool calls or final response.\n\nOtherwise, output directly after " ++
  thinkingEndToken ++
  text " with tool calls or final response.\n\n### Available Tool Schemas\n\n" ++ toolSchemas ++
  text "\n\nYou MUST strictly follow the above defined tool name and parameter schemas to invoke " ++
  text "tool calls.\n"

/-- `render_tools`. -/
def renderTools (tools : List (Json R)) : Text :=
  toolsTemplate ((text "\n").intercalate (tools.map (toJson py)))

/-- `response_format_template`. -/
def responseFormatTemplate (schema : Text) : Text :=
  text "## Response Format:\n\nYou MUST strictly adhere to the following schema to reply:\n" ++ schema

/-- `REASONING_EFFORT_MAX`. -/
def reasoningEffortMax : Text :=
  text "Reasoning Effort: Absolute maximum with no shortcuts permitted.\n" ++
  text "You MUST be very thorough in your thinking and comprehensively decompose the problem to " ++
  text "resolve the root cause, rigorously stress-testing your logic against all potential paths, " ++
  text "edge cases, and adversarial scenarios.\n" ++
  text "Explicitly write out your entire deliberation process, documenting every intermediate " ++
  text "step, considered alternative, and rejected hypothesis to ensure absolutely no assumption " ++
  text "is left unchecked.\n\n"

/-! ## Rendering a message -/

/-- `role in ["user", "developer"]`. -/
def Role.isUser : Role → Bool
  | .user => true
  | .developer => true
  | _ => false

/-- `find_last_user_index`. -/
def findLastUserIndex (messages : List (Message R)) : Int :=
  match messages.reverse.findIdx? (·.role.isUser) with
  | some back => (messages.length : Int) - 1 - back
  | none => -1

/-- A member of `tool_content`. -/
def renderPart (part : Dict R) : Except EncodingError Text :=
  let unsupported (type : Json R) := .ok (text "[Unsupported " ++ format py type ++ text "]")
  match part.get (text "type") with
  | none => unsupported .null
  | some (.str type) =>
    if type = text "text" then
      match part.get (text "text") with
      | none => .ok []
      | some (.str s) => .ok s
      | some _ => .error .typeError
    else unsupported (.str type)
  | some type => unsupported type

/-- A member of `content_blocks`. -/
def renderBlock : Block R → Except EncodingError Text
  | .text .missing => .ok []
  | .text (.value (.text s)) => .ok s
  | .text _ => .error .typeError
  | .toolResult _ content => do
    let content ← match content with
      | .missing => .ok []
      | .null => .ok (text "None")
      | .value (.text s) => .ok s
      | .value (.parts parts) => (text "\n\n").intercalate <$> parts.mapM (renderPart py)
    return text "<tool_result>" ++ content ++ text "</tool_result>"
  | .other type => .ok (text "[Unsupported " ++ type.getD (text "None") ++ text "]")

/-- `template.format(content=content)`; `None` is given only for a reminder. -/
def formatContent : Option (Content R) → Text
  | none => text "None"
  | some (.text s) => s
  | some (.parts parts) => py.str (.arr (parts.map .obj))

/-- `content or ""`. -/
def Field.orEmpty (content : Field (Content R)) : Content R :=
  match content.get with
  | none => .text []
  | some (.parts []) => .text []
  | some content => content

/-- `tools` and `response_format` of a system or developer message. -/
def renderSchemas (tools : List (Json R)) (responseFormat : Dict R) : Text :=
  (if tools = [] then [] else text "\n\n" ++ renderTools py tools) ++
    if responseFormat = [] then []
    else text "\n\n" ++ responseFormatTemplate (toJson py (.obj responseFormat))

/-- `tc_content`. -/
def renderToolCalls (toolCalls : List ToolCall) : Except EncodingError Text :=
  if toolCalls = [] then .ok []
  else do
    let tcList ← toolCalls.mapM fun toolCall => encodeToolCall py toolCall.function
    return text "\n\n" ++ toolCallsTemplate ((text "\n").intercalate tcList)

/-- The text of a message of each role, without what comes before and behind it. `tools` are those of
the message, from the OpenAI format. -/
def renderRole (index : Nat) (messages : List (Message R)) (msg : Message R)
    (tools : List (Json R)) (thinkingMode : ThinkingMode) (dropThinking : Bool) :
    Except EncodingError Text :=
  match msg.role with
  | .system =>
    .ok (formatContent py (some msg.content.orEmpty) ++ renderSchemas py tools msg.responseFormat)
  | .developer =>
    match msg.content.orEmpty with
    | .text [] => .error (.invalidMessage .developer)
    | .text content =>
      .ok (userSpToken ++ content ++ renderSchemas py tools msg.responseFormat)
    | .parts _ => .error .typeError
  | .user =>
    match msg.contentBlocks.getD [] with
    | [] =>
      match msg.content.orEmpty with
      | .text content => .ok (userSpToken ++ content)
      | .parts _ => .error .typeError
    | blocks => do
      let parts ← blocks.mapM (renderBlock py)
      return userSpToken ++ (text "\n\n").intercalate parts
  | .latestReminder => .ok (latestReminderSpToken ++ formatContent py msg.content.get)
  | .tool => .error .toolMessage
  | .assistant => do
    let tcContent ← renderToolCalls py msg.toolCalls
    -- the output of a task has no thinking part
    let prevHasTask := 1 ≤ index ∧ (messages[index - 1]?.bind (·.task)).isSome
    let thinkingPart :=
      if thinkingMode = .thinking ∧ ¬ prevHasTask then
        if ¬ dropThinking ∨ findLastUserIndex messages < index then
          msg.reasoningContent ++ thinkingEndToken
        else []
      else []
    return thinkingPart ++ formatContent py (some msg.content.orEmpty) ++ tcContent ++
      if msg.woEos then [] else eosToken
  | role => .error (.unknownRole role)

/-- What is appended for what follows: the mark of a task, or the start of an answer. -/
def renderTransition (index : Nat) (messages : List (Message R)) (msg : Message R)
    (thinkingMode : ThinkingMode) (dropThinking : Bool) : Except EncodingError Text :=
  match messages[index + 1]? with
  | some next =>
    if next.role = .assistant ∨ next.role = .latestReminder then transition else .ok []
  | none => transition
where
  transition : Except EncodingError Text :=
    match msg.task with
    | some task =>
      match dsTaskSpTokens.lookup task with
      | none => .error (.invalidTask task)
      | some taskSpToken =>
        if task ≠ text "action" then .ok taskSpToken
        else
          .ok (assistantSpToken ++
            (if thinkingMode ≠ .thinking then thinkingEndToken else thinkingStartToken) ++
            taskSpToken)
    | none =>
      if msg.role.isUser then
        .ok (assistantSpToken ++
          if ¬ dropThinking ∧ thinkingMode = .thinking then thinkingStartToken
          else if dropThinking ∧ thinkingMode = .thinking ∧ findLastUserIndex messages ≤ index then
            thinkingStartToken
          else thinkingEndToken)
      else .ok []

/-- `render_message`. -/
def renderMessage (index : Nat) (messages : List (Message R)) (thinkingMode : ThinkingMode)
    (dropThinking : Bool) (reasoningEffort : Option ReasoningEffort) :
    Except EncodingError Text :=
  match messages[index]? with
  | none => .error .indexOutOfRange
  | some msg => do
    let tools ← toolsFromOpenaiFormat msg.tools
    let effort :=
      if index = 0 ∧ thinkingMode = .thinking ∧ reasoningEffort = some .max then reasoningEffortMax
      else []
    let body ← renderRole py index messages msg tools thinkingMode dropThinking
    let transition ← renderTransition index messages msg thinkingMode dropThinking
    return effort ++ body ++ transition

/-! ## Preprocessing -/

/-- Append a block to `merged[-1]` if it is a user message that takes it, or append a new message. The
last of `merged` comes first. -/
def appendBlock (block : Block R) (takes : Message R → Bool) (newMsg : Message R) :
    List (Message R) → List (Message R)
  | [] => [newMsg]
  | last :: earlier =>
    match last.contentBlocks with
    | some blocks =>
      if last.role = .user ∧ takes last then
        { last with contentBlocks := some (blocks ++ [block]) } :: earlier
      else newMsg :: last :: earlier
    | none => newMsg :: last :: earlier

/-- One round of `merge_tool_messages`. -/
def mergeStep (merged : List (Message R)) (msg : Message R) : List (Message R) :=
  let content := msg.content.getD (.text [])
  match msg.role with
  | .tool =>
    let toolBlock := .toolResult msg.toolCallId content
    appendBlock toolBlock (fun _ => true) { role := .user, contentBlocks := some [toolBlock] } merged
  | .user =>
    let textBlock := .text content
    appendBlock textBlock (fun last => last.task.isNone)
      { role := .user, content := content, contentBlocks := some [textBlock], task := msg.task,
        woEos := msg.woEos, mask := msg.mask }
      merged
  | _ => msg :: merged

/-- `merge_tool_messages`. -/
def mergeToolMessages (messages : List (Message R)) : List (Message R) :=
  (messages.foldl mergeStep []).reverse

/-- `tc.get("id") or tc.get("function", {}).get("id", "")`. -/
def ToolCall.callId (call : ToolCall) : Text :=
  if call.id = [] then call.function.id else call.id

/-- `last_tool_call_order` after an assistant message with tool calls. -/
def toolCallOrder (calls : List ToolCall) : OrderedDict Text Nat :=
  calls.zipIdx.foldl (fun order call =>
    if call.1.callId = [] then order else order.insert call.1.callId call.2) .empty

/-- `b.get("type") == "tool_result"`. -/
def Block.isToolResult : Block R → Bool
  | .toolResult .. => true
  | _ => false

/-- The key by which tool results are sorted. -/
def Block.callOrder (order : OrderedDict Text Nat) : Block R → Nat
  | .toolResult toolUseId _ => (order.get toolUseId).getD 0
  | _ => 0

/-- `new_blocks`: the tool results give way to the sorted ones. -/
def refill : List (Block R) → List (Block R) → List (Block R)
  | [], _ => []
  | block :: blocks, sorted =>
    if block.isToolResult then
      match sorted with
      | [] => block :: refill blocks []
      | first :: sorted => first :: refill blocks sorted
    else block :: refill blocks sorted

/-- The blocks of a user message, sorted. -/
def sortBlocks (order : OrderedDict Text Nat) (blocks : List (Block R)) : List (Block R) :=
  let toolBlocks := blocks.filter (·.isToolResult)
  if 1 < toolBlocks.length ∧ order.entries ≠ [] then
    refill blocks (toolBlocks.mergeSort fun a b => a.callOrder order ≤ b.callOrder order)
  else blocks

/-- One round of `sort_tool_results_by_call_order`: `last_tool_call_order` and the message. -/
def sortStep (order : OrderedDict Text Nat) (msg : Message R) :
    OrderedDict Text Nat × Message R :=
  match msg.role with
  | .assistant => (if msg.toolCalls = [] then order else toolCallOrder msg.toolCalls, msg)
  | .user => (order, { msg with contentBlocks := msg.contentBlocks.map (sortBlocks order) })
  | _ => (order, msg)

/-- The rounds of `sort_tool_results_by_call_order`. -/
def sortFrom (order : OrderedDict Text Nat) : List (Message R) → List (Message R)
  | [] => []
  | msg :: messages => (sortStep order msg).2 :: sortFrom (sortStep order msg).1 messages

/-- `sort_tool_results_by_call_order`. -/
def sortToolResultsByCallOrder (messages : List (Message R)) : List (Message R) :=
  sortFrom .empty messages

/-! ## Encoding messages -/

/-- `_drop_thinking_messages`. -/
def dropThinkingMessages (messages : List (Message R)) : List (Message R) :=
  messages.zipIdx.filterMap fun (msg, idx) =>
    if msg.role ∈ [.user, .system, .tool, .latestReminder, .directSearchResults] ∨
        findLastUserIndex messages ≤ idx then some msg
    else if msg.role = .assistant then some { msg with reasoningContent := [] }
    else none

/-- The settings of `encode_messages`, with its defaults. -/
structure Settings where
  thinkingMode : ThinkingMode
  dropThinking : Bool := true
  addDefaultBosToken : Bool := true
  reasoningEffort : Option ReasoningEffort := none
deriving DecidableEq

/-- `encode_messages`. `num_to_render` is negative in the source only where nothing is rendered
either. -/
def encodeMessages (settings : Settings) (messages : List (Message R))
    (context : List (Message R) := []) : Except EncodingError Text :=
  let messages := (sortToolResultsByCallOrder (context ++ mergeToolMessages messages)).drop
    context.length
  let context := if context = [] then [] else sortToolResultsByCallOrder (mergeToolMessages context)
  let fullMessages := context ++ messages
  let prompt := if settings.addDefaultBosToken ∧ context.length = 0 then bosToken else []
  let dropThinking := settings.dropThinking && !fullMessages.any (!·.tools.isEmpty)
  let (fullMessages, contextLen, numToRender) :=
    if settings.thinkingMode = .thinking ∧ dropThinking then
      let fullMessages := dropThinkingMessages fullMessages
      let numToRender := fullMessages.length - (dropThinkingMessages context).length
      (fullMessages, fullMessages.length - numToRender, numToRender)
    else (fullMessages, context.length, messages.length)
  do
    let parts ← (List.range numToRender).mapM fun idx =>
      renderMessage py (idx + contextLen) fullMessages settings.thinkingMode dropThinking
        settings.reasoningEffort
    return prompt ++ parts.flatten

end PocketMoE.Encoding
