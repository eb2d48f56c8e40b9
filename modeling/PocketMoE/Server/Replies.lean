import Mathlib.Data.Bool.AllAny
import Mathlib.Data.Char
import Mathlib.Data.List.Lex
import Mathlib.Data.List.Sort
import PocketMoE.Encoding.Parse
import PocketMoE.Server.JsonLiteReads

/-!
# The replies of the sidecar

Model of both ends of a reply: what `cpp_sidecar.py` prints (`Reply.json`, `emit`) and what
`PythonSidecar` (`python_sidecar.cpp`) reads of the line. A number is cast to `int`, and printed by
`operator<<`, as the platform does it.

A string is read as it was written up to the control characters that `json.dumps` writes as `\u00XX`,
for each of which the reader has a question mark. So the replies are read as they were written exactly if
they have none of them and their numbers fit in an `int` (`recovers_iff`).
-/

namespace PocketMoE.Server
open PocketMoE.Lib PocketMoE.Encoding JsonLite

/-! ## What is printed -/

/-- The objects that are given to `_emit`. -/
inductive Reply where
  | ready (eosTokenId : Option Int)
  | encoded (promptText : Text) (tokenIds : List Int)
  | parsed (message : Parsed)
  | pong
  | bye
  | err (msg : Text)

section
variable {R : Type}

/-- A call in the format of `tool_calls_to_openai_format`. -/
def toolCallJson (call : ToolCall) : Json R :=
  .obj [(text "type", .str (text "function")),
    (text "function", .obj [(text "name", .str call.function.name),
      (text "arguments", .str call.function.arguments)])]

/-- The dictionary of a reply. -/
def Reply.json : Reply → Json R
  | .ready eosTokenId =>
    .obj [(text "ok", .bool true), (text "ready", .bool true),
      (text "eos_token_id", .int (eosTokenId.getD 1))]
  | .encoded promptText tokenIds =>
    .obj [(text "ok", .bool true), (text "prompt_text", .str promptText),
      (text "token_ids", .arr (tokenIds.map .int))]
  | .parsed message =>
    .obj [(text "ok", .bool true), (text "role", .str (text "assistant")),
      (text "content", .str message.content),
      (text "reasoning_content", .str message.reasoningContent),
      (text "tool_calls", .arr (message.toolCalls.map toolCallJson))]
  | .pong => .obj [(text "ok", .bool true), (text "pong", .bool true)]
  | .bye => .obj [(text "ok", .bool true), (text "bye", .bool true)]
  | .err msg => .obj [(text "ok", .bool false), (text "err", .str msg)]

/-- `_emit`: the bytes that are written. A surrogate is an exception before anything is. -/
def emit (floats : FloatText R) (v : Json R) : Option Bytes :=
  let line := Json.dumps floats v
  if line.all (IsScalar ·) then some (utf8 line ++ ['\n']) else none

end

/-! ## What is read -/

/-- `read_line`. -/
def readLine (s : Bytes) : Bytes := s.takeWhile (· ≠ '\n')

/-- The test of `ok` in a reply. -/
def replyOk (obj : List (Bytes × JsonValue)) : Bool :=
  match objectGet obj "ok" with
  | some (.bool b) => b
  | _ => false

/-- The error of a reply that is not `ok`. -/
def replyErr (obj : List (Bytes × JsonValue)) (resp : Bytes) : Bytes := getString obj "err" resp

/-- The banner that the constructor reads: `eos_token_id_`, or the exception. -/
def readBanner (int : Double.IntCast) (banner : Bytes) : Except Bytes Int :=
  match parseJson banner with
  | .error ex => .error (lit ex)
  | .ok (.object obj) =>
    if replyOk obj then
      match objectGet obj "eos_token_id" with
      | some (.number n) => .ok (int.cast (strtod n))
      | _ => .ok 1
    else .error (lit "sidecar banner not ok: " ++ banner)
  | .ok _ => .error (lit "sidecar banner not an object: " ++ banner)

/-- `EncodeReply`. -/
structure EncodeReply where
  ok : Bool
  err : Bytes
  promptText : Bytes
  tokenIds : List Int

/-- The loop over `token_ids`: the numbers before the first other item, and whether there is none. -/
def readTokenIds (int : Double.IntCast) : List JsonValue → List Int × Bool
  | [] => ([], true)
  | .number n :: items =>
    let (ids, all) := readTokenIds int items
    (int.cast (strtod n) :: ids, all)
  | _ :: _ => ([], false)

/-- `PythonSidecar::encode`, from the reply on. -/
def readEncodeReply (int : Double.IntCast) (resp : Bytes) : EncodeReply :=
  match parseJson resp with
  | .error ex => ⟨false, lit "parse_json failed: " ++ lit ex ++ lit " raw=" ++ resp, [], []⟩
  | .ok (.object obj) =>
    if replyOk obj then
      let promptText := getString obj "prompt_text" []
      let (ids, all) := match objectGet obj "token_ids" with
        | some (.array items) => readTokenIds int items
        | _ => ([], true)
      ⟨all, if all then [] else lit "token_ids item not number", promptText, ids⟩
    else ⟨false, replyErr obj resp, [], []⟩
  | .ok _ => ⟨false, lit "encode response not object: " ++ resp, [], []⟩

/-- `ParsedMessage`. -/
structure ParsedMessage where
  ok : Bool
  err : Bytes
  content : Bytes
  reasoning : Bytes
  toolCallsJson : Bytes

/-- A string literal of JSON. -/
def quoted (s : Bytes) : Bytes := '"' :: (jsonEscape s ++ ['"'])

/-- Fields of an object, in the order of a `std::map`. -/
def renderFields (render : JsonValue → Bytes) (members : List (Bytes × JsonValue)) : Bytes :=
  let sorted := members.insertionSort fun m m' => m.1 ≤ m'.1
  lit "\x7b" ++ ((lit ",").intercalate (sorted.map fun m => quoted m.1 ++ (':' :: render m.2)) ++
    lit "\x7d")

/-- A string, number or flag; anything else is null. -/
def renderScalar (number : Double → Bytes) : JsonValue → Bytes
  | .string s => quoted s
  | .number n => number (strtod n)
  | .bool b => flag b
  | _ => lit "null"

/-- A field of a tool call. -/
def renderField (number : Double → Bytes) : JsonValue → Bytes
  | .object members => renderFields (renderScalar number) members
  | v => renderScalar number v

/-- A tool call. -/
def renderToolCall (number : Double → Bytes) : JsonValue → Bytes
  | .object members => renderFields (renderField number) members
  | _ => lit "\x7b\x7d"

/-- `PythonSidecar::parse`, from the reply on; `number` is `operator<<`. -/
def readParsed (number : Double → Bytes) (resp : Bytes) : ParsedMessage :=
  match parseJson resp with
  | .error ex => ⟨false, lit "parse_json failed: " ++ lit ex ++ lit " raw=" ++ resp, [], [], []⟩
  | .ok (.object obj) =>
    if replyOk obj then
      let toolCalls := match objectGet obj "tool_calls" with
        | some (.array tools) =>
          lit "[" ++ ((lit ",").intercalate (tools.map (renderToolCall number)) ++ lit "]")
        | _ => lit "[]"
      ⟨true, [], getString obj "content" [], getString obj "reasoning_content" [], toolCalls⟩
    else ⟨false, replyErr obj resp, [], [], []⟩
  | .ok _ => ⟨false, lit "parse response not object: " ++ resp, [], [], []⟩

/-! ## What is made of the replies -/

section
variable {R : Type} (floats : FloatText R)

/-- What is read of a string. -/
def heard (s : Text) : Bytes := (utf8 s).map readChar

lemma liteItems_ints (ns : List Int) :
    liteItems floats (ns.map Json.int) = ns.map fun n => .number (intText n) := by
  induction ns with
  | nil => rfl
  | cons n ns ih => rw [List.map_cons, liteItems, ih, lite, List.map_cons]

lemma lite_toolCall (call : ToolCall) : lite floats (toolCallJson call) =
    .object [(lit "type", .string (lit "function")),
      (lit "function", .object [(lit "name", .string (heard call.function.name)),
        (lit "arguments", .string (heard call.function.arguments))])] := rfl

lemma lite_ready (eos : Option Int) : lite floats (Reply.ready eos).json =
    .object [(lit "ok", .bool true), (lit "ready", .bool true),
      (lit "eos_token_id", .number (intText (eos.getD 1)))] := rfl

lemma lite_encoded (promptText : Text) (tokenIds : List Int) :
    lite floats (Reply.encoded promptText tokenIds).json =
      .object [(lit "ok", .bool true), (lit "prompt_text", .string (heard promptText)),
        (lit "token_ids", .array (tokenIds.map fun n => .number (intText n)))] := by
  rw [← liteItems_ints floats]
  rfl

lemma liteItems_toolCalls (calls : List ToolCall) :
    liteItems floats (calls.map toolCallJson) = calls.map fun call => lite floats (toolCallJson call) := by
  induction calls with
  | nil => rfl
  | cons call calls ih => rw [List.map_cons, liteItems, ih, List.map_cons]

lemma lite_parsed (message : Parsed) : lite floats (Reply.parsed message).json =
    .object [(lit "ok", .bool true), (lit "role", .string (lit "assistant")),
      (lit "content", .string (heard message.content)),
      (lit "reasoning_content", .string (heard message.reasoningContent)),
      (lit "tool_calls",
        .array (message.toolCalls.map fun call => lite floats (toolCallJson call)))] := by
  rw [← liteItems_toolCalls floats]
  rfl

lemma lite_err (msg : Text) : lite floats (Reply.err msg).json =
    .object [(lit "ok", .bool false), (lit "err", .string (heard msg))] := rfl

lemma floatless_json (reply : Reply) : Floatless (reply.json : Json R) := by
  have ints (ns : List Int) : FloatlessItems (ns.map Json.int : List (Json R)) := by
    induction ns with
    | nil => trivial
    | cons n ns ih => exact ⟨trivial, ih⟩
  have calls (calls : List ToolCall) : FloatlessItems (calls.map toolCallJson : List (Json R)) := by
    induction calls with
    | nil => trivial
    | cons call calls ih => exact ⟨⟨trivial, ⟨trivial, trivial, trivial⟩, trivial⟩, ih⟩
  cases reply with
  | ready eos => exact ⟨trivial, trivial, trivial, trivial⟩
  | encoded p ids => exact ⟨trivial, trivial, ints ids, trivial⟩
  | parsed m => exact ⟨trivial, trivial, trivial, trivial, calls m.toolCalls, trivial⟩
  | pong => exact ⟨trivial, trivial, trivial⟩
  | bye => exact ⟨trivial, trivial, trivial⟩
  | err msg => exact ⟨trivial, trivial, trivial⟩

lemma parseJson_emit {v : Json R} (floatless : Floatless v) {out : Bytes}
    (written : emit floats v = some out) : parseJson (readLine out) = .ok (lite floats v) := by
  unfold emit at written
  dsimp only at written
  split_ifs at written with scalars
  obtain rfl := Option.some.inj written
  have line : readLine (utf8 (Json.dumps floats v) ++ ['\n']) = utf8 (Json.dumps floats v) := by
    have other : ∀ c ∈ utf8 (Json.dumps floats v), decide (c ≠ '\n') = true := by
      intro c mem
      refine decide_eq_true ?_
      rintro rfl
      exact not_mem_dumps v floatless mem
    rw [readLine, List.takeWhile_append_of_pos other, List.takeWhile_cons_of_neg (by decide),
      List.append_nil]
  rw [line, parseJson_dumps v floatless]

variable (int : Double.IntCast) (number : Double → Bytes)

lemma readTokenIds_ints (ns : List Int) :
    readTokenIds int (ns.map fun n => .number (intText n)) =
      (ns.map fun n => int.cast (.ofInt n), true) := by
  induction ns with
  | nil => rfl
  | cons n ns ih => rw [List.map_cons, readTokenIds, ih, strtod_intText, List.map_cons]

/-- The text that is made of a tool call. -/
def callText (name arguments : Bytes) : Bytes :=
  lit "\x7b\"function\":\x7b\"arguments\":" ++ (quoted arguments ++ (lit ",\"name\":" ++ (quoted name ++
    lit "\x7d,\"type\":\"function\"\x7d")))

lemma renderToolCall_call (call : ToolCall) : renderToolCall number (lite floats (toolCallJson call)) =
    callText (heard call.function.name) (heard call.function.arguments) := by
  have two (render : JsonValue → Bytes) {k k' : Bytes} {v v' : JsonValue} (less : ¬ k ≤ k') :
      renderFields render [(k, v), (k', v')] = lit "\x7b" ++ (quoted k' ++ (':' :: (render v' ++
        (lit "," ++ (quoted k ++ (':' :: (render v ++ lit "\x7d"))))))) := by
    unfold renderFields
    have sorted : [(k, v), (k', v')].insertionSort (fun m m' => m.1 ≤ m'.1) = [(k', v'), (k, v)] :=
      if_neg less
    rw [sorted]
    simp only [List.map_cons, List.map_nil, List.intercalate_cons_cons,
      List.intercalate_singleton, List.append_assoc, List.cons_append]
  rw [lite_toolCall, renderToolCall, two _ (by decide), renderField, two _ (by decide), callText]
  simp only [renderScalar, renderField, List.cons_append, List.append_assoc]
  rfl

/-! ## What is read of the replies -/

lemma readBanner_ready {banner : Bytes} {eos : Option Int}
    (read : parseJson banner = .ok (lite floats (Reply.ready eos).json)) :
    readBanner int banner = .ok (int.cast (.ofInt (eos.getD 1))) := by
  rw [readBanner, read, lite_ready, ← strtod_intText]
  rfl

lemma readEncodeReply_encoded {resp : Bytes} {promptText : Text} {tokenIds : List Int}
    (read : parseJson resp = .ok (lite floats (Reply.encoded promptText tokenIds).json)) :
    readEncodeReply int resp =
      ⟨true, [], heard promptText, tokenIds.map fun n => int.cast (.ofInt n)⟩ := by
  have ids := readTokenIds_ints int tokenIds
  rw [readEncodeReply, read, lite_encoded]
  show (let (ids, all) := readTokenIds int (tokenIds.map fun n => .number (intText n))
    (⟨all, if all then [] else lit "token_ids item not number", heard promptText, ids⟩ :
      EncodeReply)) = _
  rw [ids]
  rfl

lemma readEncodeReply_err {resp : Bytes} {msg : Text}
    (read : parseJson resp = .ok (lite floats (Reply.err msg).json)) :
    readEncodeReply int resp = ⟨false, heard msg, [], []⟩ := by
  rw [readEncodeReply, read, lite_err]
  rfl

lemma readParsed_err {resp : Bytes} {msg : Text}
    (read : parseJson resp = .ok (lite floats (Reply.err msg).json)) :
    readParsed number resp = ⟨false, heard msg, [], [], []⟩ := by
  rw [readParsed, read, lite_err]
  rfl

/-- The text of an array of tool calls, for the bytes of their names and arguments. -/
def callsText (calls : List (Bytes × Bytes)) : Bytes :=
  lit "[" ++ ((lit ",").intercalate (calls.map fun call => callText call.1 call.2) ++ lit "]")

lemma readParsed_parsed {resp : Bytes} {message : Parsed}
    (read : parseJson resp = .ok (lite floats (Reply.parsed message).json)) :
    readParsed number resp = ⟨true, [], heard message.content, heard message.reasoningContent,
      callsText (message.toolCalls.map fun call =>
        (heard call.function.name, heard call.function.arguments))⟩ := by
  have calls : (message.toolCalls.map fun call => lite floats (toolCallJson call)).map
      (renderToolCall number) = message.toolCalls.map fun call =>
        callText (heard call.function.name) (heard call.function.arguments) := by
    rw [List.map_map]
    exact List.map_congr_left fun call _ => renderToolCall_call floats number call
  rw [readParsed, read, lite_parsed, callsText, List.map_map]
  show (⟨true, [], heard message.content, heard message.reasoningContent, lit "[" ++
    ((lit ",").intercalate ((message.toolCalls.map fun call => lite floats (toolCallJson call)).map
      (renderToolCall number)) ++ lit "]")⟩ : ParsedMessage) = _
  rw [calls]
  rfl

end

/-! ## Which strings survive -/

/-- The string has no character that is written with four digits. -/
def Clean (s : Text) : Prop := ∀ c ∈ s, 0x20 ≤ c.1 ∨ c ∈ ([0x08, 0x09, 0x0A, 0x0C, 0x0D] : List Code)

lemma readChar_eq {c : Char} : readChar c = c ↔ ¬ Numbered c := by
  constructor
  · intro eq numbered
    rw [readChar, if_pos numbered] at eq
    exact absurd (eq ▸ numbered) (by decide)
  · exact fun other => if_neg other

lemma map_readChar {s : Bytes} : s.map readChar = s ↔ ∀ c ∈ s, ¬ Numbered c := by
  induction s with
  | nil => exact iff_of_true rfl nofun
  | cons c s ih => rw [List.map_cons, List.cons.injEq, readChar_eq, ih, List.forall_mem_cons]

lemma numbered_code (c : Code) :
    (∀ d ∈ utf8 [c], ¬ Numbered d) ↔ 0x20 ≤ c.1 ∨ c ∈ ([0x08, 0x09, 0x0A, 0x0C, 0x0D] : List Code) := by
  have low : ∀ c : Fin 0x80, (utf8 [c.castLE (by decide)]).all (fun d => ¬ Numbered d) ↔
      0x20 ≤ c.1 ∨ c.castLE (by decide) ∈ ([0x08, 0x09, 0x0A, 0x0C, 0x0D] : List Code) := by
    decide +kernel
  by_cases high : 0x80 ≤ c.1
  · refine iff_of_true (fun d mem numbered => ?_) (Or.inl (Nat.le_trans (by decide) high))
    obtain ⟨b, (inside : b ∈ [c].flatMap encodeCode), rfl⟩ := List.mem_map.mp mem
    rw [List.flatMap_singleton] at inside
    have above := encodeCode_high high inside
    have below := numbered.1
    rw [toNat_byte] at below
    omega
  · exact List.all_iff_forall_prop.symm.trans (low ⟨c.1, Nat.lt_of_not_le high⟩)

lemma heard_iff {s : Text} : heard s = utf8 s ↔ Clean s := by
  rw [heard, map_readChar]
  induction s with
  | nil => exact iff_of_true nofun nofun
  | cons c s ih =>
    rw [utf8_cons, List.forall_mem_append, ih, numbered_code, Clean, Clean, List.forall_mem_cons]

/-! ## Which tool calls survive -/

/-- A text is no longer than another one, and of its length only if something holds. -/
def Shortens {α : Type*} (s t : List α) (P : Prop) : Prop :=
  s.length ≤ t.length ∧ (s.length = t.length → P)

lemma Shortens.refl {α : Type*} (s : List α) : Shortens s s True := ⟨Nat.le_refl _, fun _ => trivial⟩

lemma Shortens.append {α : Type*} {s t s' t' : List α} {P Q : Prop} (first : Shortens s t P)
    (second : Shortens s' t' Q) : Shortens (s ++ s') (t ++ t') (P ∧ Q) := by
  obtain ⟨le, eq⟩ := first
  obtain ⟨le', eq'⟩ := second
  rw [Shortens, List.length_append, List.length_append]
  exact ⟨by omega, fun same => ⟨eq (by omega), eq' (by omega)⟩⟩

lemma Shortens.mono {α : Type*} {s t : List α} {P Q : Prop} (shortens : Shortens s t P)
    (imp : P → Q) : Shortens s t Q :=
  ⟨shortens.1, fun eq => imp (shortens.2 eq)⟩

lemma shortens_escapeChar (c : Char) :
    Shortens (escapeChar (readChar c)) (escapeChar c) (readChar c = c) := by
  by_cases numbered : Numbered c
  · have long : (escapeChar c).length = 6 := by
      obtain ⟨low, other⟩ := numbered
      simp only [List.mem_cons, List.not_mem_nil, or_false, not_or] at other
      obtain ⟨b, f, n, r, t⟩ := other
      unfold escapeChar
      split
      case h_8 => rw [if_pos low]; rfl
      case h_1 | h_2 => exact absurd low (by decide)
      all_goals contradiction
    rw [Shortens, long, readChar, if_pos numbered]
    exact ⟨by decide, fun eq => absurd eq (by decide)⟩
  · rw [readChar_eq.mpr numbered]
    exact (Shortens.refl _).mono fun _ => rfl

lemma shortens_quoted (s : Bytes) :
    Shortens (quoted (s.map readChar)) (quoted s) (s.map readChar = s) := by
  have inner : Shortens (jsonEscape (s.map readChar)) (jsonEscape s) (s.map readChar = s) := by
    induction s with
    | nil => exact (Shortens.refl _).mono fun _ => rfl
    | cons c s ih =>
      rw [List.map_cons, jsonEscape, jsonEscape, List.flatMap_cons, List.flatMap_cons]
      refine ((shortens_escapeChar c).append ih).mono ?_
      rintro ⟨here, rest⟩
      rw [here, rest]
  exact ((Shortens.refl ['"']).append (inner.append (Shortens.refl ['"']))).mono fun all => all.2.1

lemma shortens_callText (name arguments : Bytes) :
    Shortens (callText (name.map readChar) (arguments.map readChar)) (callText name arguments)
      (name.map readChar = name ∧ arguments.map readChar = arguments) := by
  refine (Shortens.append (.refl _) (.append (shortens_quoted arguments)
    (.append (.refl _) (.append (shortens_quoted name) (.refl _))))).mono ?_
  rintro ⟨-, first, -, second, -⟩
  exact ⟨second, first⟩

lemma shortens_intercalate {α β : Type*} (sep : List β) {f g : α → List β} {P : α → Prop}
    (each : ∀ a, Shortens (f a) (g a) (P a)) (l : List α) :
    Shortens (sep.intercalate (l.map f)) (sep.intercalate (l.map g)) (∀ a ∈ l, P a) := by
  induction l with
  | nil => exact (Shortens.refl _).mono fun _ => nofun
  | cons a l ih =>
    cases l with
    | nil =>
      rw [List.map_singleton, List.map_singleton, List.intercalate_singleton,
        List.intercalate_singleton]
      exact (each a).mono fun here => List.forall_mem_singleton.mpr here
    | cons b l =>
      simp only [List.map_cons, List.intercalate_cons_cons, List.append_assoc] at ih ⊢
      refine ((each a).append ((Shortens.refl sep).append ih)).mono ?_
      rintro ⟨here, -, rest⟩
      exact List.forall_mem_cons.mpr ⟨here, rest⟩

lemma callsText_iff {calls : List ToolCall} :
    callsText (calls.map fun call => (heard call.function.name, heard call.function.arguments)) =
        callsText (calls.map fun call => (utf8 call.function.name, utf8 call.function.arguments)) ↔
      ∀ call ∈ calls, Clean call.function.name ∧ Clean call.function.arguments := by
  have clean (call : ToolCall) : Clean call.function.name ∧ Clean call.function.arguments ↔
      heard call.function.name = utf8 call.function.name ∧
        heard call.function.arguments = utf8 call.function.arguments :=
    and_congr heard_iff.symm heard_iff.symm
  simp only [clean]
  constructor
  · intro eq
    rw [callsText, callsText, List.map_map, List.map_map] at eq
    have shortens := shortens_intercalate (lit ",") (fun call : ToolCall =>
      shortens_callText (utf8 call.function.name) (utf8 call.function.arguments)) calls
    exact shortens.2 (congrArg List.length (List.append_cancel_right (List.append_cancel_left eq)))
  · intro all
    congr 1
    refine List.map_congr_left fun call mem => ?_
    rw [(all call mem).1, (all call mem).2]

/-! ## Which replies survive -/

section
variable {R : Type} (floats : FloatText R) (int : Double.IntCast) (number : Double → Bytes)

/-- The fields that are read of a line are those of the reply; nothing is read of `pong` and `bye`. -/
def Agrees (resp : Bytes) : Reply → Prop
  | .ready eosTokenId => readBanner int resp = .ok (eosTokenId.getD 1)
  | .encoded promptText tokenIds =>
    readEncodeReply int resp = ⟨true, [], utf8 promptText, tokenIds⟩
  | .parsed message =>
    readParsed number resp = ⟨true, [], utf8 message.content, utf8 message.reasoningContent,
      callsText (message.toolCalls.map fun call =>
        (utf8 call.function.name, utf8 call.function.arguments))⟩
  | .err msg =>
    readEncodeReply int resp = ⟨false, utf8 msg, [], []⟩ ∧
      readParsed number resp = ⟨false, utf8 msg, [], [], []⟩
  | .pong => True
  | .bye => True

/-- The strings of the reply are clean, and its numbers fit in an `int`. -/
def Reply.Clean : Reply → Prop
  | .ready eosTokenId => Double.FitsInt (eosTokenId.getD 1)
  | .encoded promptText tokenIds => Server.Clean promptText ∧ ∀ n ∈ tokenIds, Double.FitsInt n
  | .parsed message => Server.Clean message.content ∧ Server.Clean message.reasoningContent ∧
    ∀ call ∈ message.toolCalls,
      Server.Clean call.function.name ∧ Server.Clean call.function.arguments
  | .err msg => Server.Clean msg
  | .pong => True
  | .bye => True

variable {floats int number}

lemma map_cast_iff {ns : List Int} :
    (ns.map fun n => int.cast (.ofInt n)) = ns ↔ ∀ n ∈ ns, Double.FitsInt n := by
  induction ns with
  | nil => exact iff_of_true rfl nofun
  | cons n ns ih => rw [List.map_cons, List.cons.injEq, int.cast_ofInt, ih, List.forall_mem_cons]

lemma string_iff {s : Text} {out : Bytes} (written : emit floats (.str s) = some out) :
    parseJson (readLine out) = .ok (.string (utf8 s)) ↔ Clean s := by
  have floatless : Floatless (.str s : Json R) := trivial
  rw [parseJson_emit floats floatless written, ← heard_iff]
  exact ⟨fun eq => JsonValue.string.inj (Except.ok.inj eq), fun eq => congrArg _ (congrArg _ eq)⟩

lemma agrees_reply {reply : Reply} {out : Bytes} (written : emit floats reply.json = some out) :
    Agrees int number (readLine out) reply ↔ reply.Clean := by
  have read := parseJson_emit floats (floatless_json reply) written
  cases reply with
  | ready eos =>
    rw [Agrees, readBanner_ready floats int read, Except.ok.injEq]
    exact int.cast_ofInt
  | encoded promptText tokenIds =>
    rw [Agrees, readEncodeReply_encoded floats int read, EncodeReply.mk.injEq, heard_iff,
      map_cast_iff]
    exact ⟨fun all => all.2.2, fun all => ⟨rfl, rfl, all⟩⟩
  | parsed message =>
    rw [Agrees, readParsed_parsed floats number read, ParsedMessage.mk.injEq, heard_iff, heard_iff,
      callsText_iff]
    exact ⟨fun all => all.2.2, fun all => ⟨rfl, rfl, all⟩⟩
  | pong => exact Iff.rfl
  | bye => exact Iff.rfl
  | err msg =>
    rw [Agrees, readEncodeReply_err floats int read, readParsed_err floats number read,
      EncodeReply.mk.injEq, ParsedMessage.mk.injEq, heard_iff]
    exact ⟨fun all => all.1.2.1, fun clean => ⟨⟨rfl, clean, rfl, rfl⟩, ⟨rfl, clean, rfl, rfl, rfl⟩⟩⟩

variable (floats int number)

/-- What is printed is read as it was exactly if the strings have no control character that is written
with four digits, and the numbers fit in an `int`. -/
theorem recovers_iff :
    (∀ s out, emit floats (.str s) = some out →
      (parseJson (readLine out) = .ok (.string (utf8 s)) ↔ Clean s)) ∧
    ∀ (reply : Reply) out, emit floats reply.json = some out →
      (Agrees int number (readLine out) reply ↔ reply.Clean) :=
  ⟨fun _ _ => string_iff, fun _ _ => agrees_reply⟩

end

/-- No floats. -/
def noFloats : FloatText Empty := ⟨nofun, fun _ => .nan⟩

/-- A line with a prompt. -/
def promptLine : Bytes := "\x7b\"ok\": true, \"prompt_text\": \"hi\", \"token_ids\": [7]\x7d".toList

theorem recovers_iff_prompt :
    (parseJson "\"hi\"".toList = .ok (.string (utf8 (text "hi"))) ↔ Clean (text "hi")) ∧
    (Agrees .least (fun _ => []) promptLine (.encoded (text "hi") [7]) ↔
      (Reply.encoded (text "hi") [7]).Clean) :=
  ⟨(recovers_iff noFloats .least fun _ => []).1 (text "hi") "\"hi\"\n".toList (by decide +kernel),
    (recovers_iff noFloats .least fun _ => []).2 (.encoded (text "hi") [7]) (promptLine ++ ['\n'])
      (by decide +kernel)⟩

/-- An escape character is read as a question mark. -/
theorem escape_changed : ¬ ∀ (s : Text) out, emit noFloats (.str s) = some out →
    parseJson (readLine out) = .ok (.string (utf8 s)) := by
  intro all
  have read := all [0x1B] "\"\\u001b\"\n".toList (by decide +kernel)
  have other : parseJson (readLine "\"\\u001b\"\n".toList) = .ok (.string ['?']) := by rfl
  rw [other] at read
  exact absurd (JsonValue.string.inj (Except.ok.inj read)) (by decide)

end PocketMoE.Server
