import Mathlib.Data.List.Infix
import Mathlib.Logic.Relation
import PocketMoE.Server.JsonLite

/-!
# The Python sidecar and its pipes

Model of how the C++ server talks to the Python helper that renders prompts and parses completions:
`extract_messages_json`, `extract_tools_json` and `encode_request` of `openai_server.cpp`,
`PythonSidecar` of `python_sidecar.cpp`, and the loop of `cpp_sidecar.py`.

A request is written to one pipe as a line of JSON, and one line is read from the other pipe as its
reply. The calls come from several threads and are made one after another, under a mutex; a state has
the calls still to be made in the order in which they get it. What the helper does with a decoded line
is a parameter (`Sidecar`), with its exceptions; a reply stands for the line that `_emit` prints.

`framed_iff`: requests and replies stay matched exactly when no raw newline stands between quotes in
the arrays that the server takes from the bodies.
-/

namespace PocketMoE.Server

/-! ## Texts -/

/-- A hexadecimal digit, in lower case. -/
def hexDigit (n : Nat) : Char := if n < 10 then .ofNat (48 + n) else .ofNat (87 + n)

/-- A character of a string literal. -/
def escapeChar : Char → Bytes
  | '"' => ['\\', '"']
  | '\\' => ['\\', '\\']
  | '\x08' => ['\\', 'b']
  | '\x0c' => ['\\', 'f']
  | '\n' => ['\\', 'n']
  | '\r' => ['\\', 'r']
  | '\t' => ['\\', 't']
  | c =>
    if c.toNat < 0x20 then ['\\', 'u', '0', '0', hexDigit (c.toNat / 16), hexDigit (c.toNat % 16)]
    else [c]

/-- `json_escape`. -/
def jsonEscape (s : Bytes) : Bytes := s.flatMap escapeChar

/-- Where a scan of JSON text is: inside a string literal, and after a backslash in one. -/
structure Lex where
  inStr : Bool
  esc : Bool
deriving DecidableEq

/-- Outside of any string literal. -/
def Lex.start : Lex := ⟨false, false⟩

/-- The next character. -/
def Lex.step (st : Lex) (c : Char) : Lex :=
  if st.esc then { st with esc := false }
  else if c = '\\' ∧ st.inStr = true then { st with esc := true }
  else if c = '"' then { st with inStr := !st.inStr }
  else st

/-- `flatten`, from a state of its scan. -/
def flattenFrom (st : Lex) : Bytes → Bytes
  | [] => []
  | c :: rest =>
    let blank := !st.esc && !st.inStr && (c == '\n' || c == '\r' || c == '\t')
    (if blank then ' ' else c) :: flattenFrom (st.step c) rest

/-- `flatten` of `PythonSidecar::encode`. -/
def flatten (s : Bytes) : Bytes := flattenFrom .start s

/-- `std::string::find`: the text from the first occurrence on. -/
def findText (pattern : Bytes) : Bytes → Option Bytes
  | [] => if pattern = [] then some [] else none
  | c :: rest =>
    if pattern.isPrefixOf (c :: rest) then some (c :: rest) else findText pattern rest

/-- The text up to the bracket that closes the first one. -/
def matchBrackets (depth : Int) (st : Lex) : Bytes → Option Bytes
  | [] => none
  | c :: rest =>
    let more := fun depth => (matchBrackets depth (st.step c) rest).map (c :: ·)
    if st.esc = true ∨ st.inStr = true ∨ c = '"' then more depth
    else if c = '[' ∨ c = '{' then more (depth + 1)
    else if c = ']' ∨ c = '}' then
      if depth - 1 = 0 ∧ c = ']' then some [c] else more (depth - 1)
    else more depth

/-- The array that follows the first occurrence of a key. -/
def extractArray (key fallback : String) (body : Bytes) : Bytes :=
  match findText ('"' :: key.toList ++ ['"']) body with
  | none => fallback.toList
  | some s =>
    match findText ['['] s with
    | none => fallback.toList
    | some s => (matchBrackets 0 .start s).getD fallback.toList

/-- `extract_messages_json`. -/
def extractMessagesJson (body : Bytes) : Bytes := extractArray "messages" "[]" body

/-- `extract_tools_json`. -/
def extractToolsJson (body : Bytes) : Bytes := extractArray "tools" "" body

/-! ## Requests -/

/-- `EncodeRequest`. -/
structure EncodeRequest where
  messagesJson : Bytes
  toolsJson : Bytes
  thinkingMode : Bytes
  reasoningEffort : Bytes
  addGenerationPrompt : Bool
  dropThinking : Bool

/-- What `handle_chat_completions` and `encode_request` make of a body, or the message of the
response with status 400. -/
def chatRequest (defaultThinkingMode : Bytes) (body : Bytes) : Except String EncodeRequest :=
  match parseJson body with
  | .error e => .error ("invalid JSON: " ++ e)
  | .ok (.object obj) => .ok {
      messagesJson := extractMessagesJson body
      toolsJson := extractToolsJson body
      thinkingMode := getString obj "thinking_mode" defaultThinkingMode
      reasoningEffort := getString obj "reasoning_effort" []
      addGenerationPrompt := getBool obj "add_generation_prompt" true
      dropThinking := getBool obj "drop_thinking" true }
  | .ok _ => .error "request body must be JSON object"

/-- A string literal of the source. -/
def lit (s : String) : Bytes := s.toList

/-- A flag as JSON. -/
def flag (b : Bool) : Bytes := if b then lit "true" else lit "false"

/-- A field whose value is a string. -/
def stringField (name : String) (value : Bytes) : Bytes :=
  lit ",\"" ++ lit name ++ lit "\":\"" ++ jsonEscape value ++ lit "\""

/-- The line that `PythonSidecar::encode` writes, without the newline that ends it. -/
def encodeText (req : EncodeRequest) : Bytes :=
  lit "\x7b\"op\":\"encode\"" ++
    lit ",\"messages\":" ++
    (if req.messagesJson = [] then lit "[]" else flatten req.messagesJson) ++
    stringField "thinking_mode" req.thinkingMode ++
    lit ",\"add_generation_prompt\":" ++ flag req.addGenerationPrompt ++
    lit ",\"drop_thinking\":" ++ flag req.dropThinking ++
    (if req.reasoningEffort = [] then [] else stringField "reasoning_effort" req.reasoningEffort) ++
    (if req.toolsJson = [] then [] else lit ",\"tools\":" ++ flatten req.toolsJson) ++
    lit "\x7d"

/-- The line that `PythonSidecar::parse` writes, without the newline. -/
def parseText (text thinkingMode : Bytes) : Bytes :=
  lit "\x7b\"op\":\"parse\"" ++ stringField "text" text ++
    stringField "thinking_mode" thinkingMode ++ lit "\x7d"

/-- A call of the sidecar: the prompt of a body, or a completion. -/
inductive SidecarCall where
  | encode (body : Bytes)
  | parse (text thinkingMode : Bytes)

/-- What a call writes; a body that is answered with an error is not sent. -/
def SidecarCall.line (defaultThinkingMode : Bytes) : SidecarCall → Option Bytes
  | .encode body =>
    match chatRequest defaultThinkingMode body with
    | .ok req => some (encodeText req ++ ['\n'])
    | .error _ => none
  | .parse text thinkingMode => some (parseText text thinkingMode ++ ['\n'])

/-! ## The helper -/

/-- The operations that the helper knows. -/
inductive Op where
  | encode
  | parse
  | ping
  | shutdown
  | other (repr : String)

/-- What the loop of `cpp_sidecar.py` calls. `get` fails on JSON that is no object; the handlers fail
with the text of their exception. -/
structure Sidecar (Req Reply : Type) where
  decode : Bytes → List Char
  loads : List Char → Except String Req
  get : Req → Option Op
  handleEncode : Req → Except String Reply
  handleParse : Req → Except String Reply
  pong : Reply
  bye : Reply
  err : String → Reply

/-- What `str.strip` takes off. -/
def pySpace (c : Char) : Bool :=
  [9, 10, 11, 12, 13, 28, 29, 30, 31, 32, 0x85, 0xA0, 0x1680, 0x2028, 0x2029, 0x202F, 0x205F,
    0x3000].contains c.toNat || (0x2000 ≤ c.toNat && c.toNat ≤ 0x200A)

/-- `str.strip`. -/
def strip (s : List Char) : List Char := ((s.dropWhile pySpace).reverse.dropWhile pySpace).reverse

variable {Req Reply : Type}

/-- One line of the helper's input: the reply, and whether the loop goes on. The lookup of `op` is
outside of the `try`, so its exception ends the process. -/
def Sidecar.serve (sc : Sidecar Req Reply) (line : Bytes) : Option Reply × Bool :=
  let handled := fun
    | .ok reply => (some reply, true)
    | .error ex => (some (sc.err ex), true)
  let line := strip (sc.decode line)
  if line = [] then (none, true)
  else
    match sc.loads line with
    | .error ex => (some (sc.err ("json decode failed: " ++ ex)), true)
    | .ok req =>
      match sc.get req with
      | none => (none, false)
      | some .encode => handled (sc.handleEncode req)
      | some .parse => handled (sc.handleParse req)
      | some .ping => (some sc.pong, true)
      | some .shutdown => (some sc.bye, false)
      | some (.other repr) => (some (sc.err ("unknown op: " ++ repr)), true)

/-! ## The pipes -/

/-- Where the server is: no call holds the mutex, `write_all` has some of a request still to write,
or `read_line` waits for its reply. -/
inductive Phase where
  | idle
  | writing (request rest : Bytes)
  | reading (request : Bytes)

/-- The two processes and the pipes. `log` has the calls that got a reply, with the reply. -/
structure Wire (Reply : Type) where
  todo : List Bytes
  phase : Phase
  toSidecar : Bytes
  toServer : List Reply
  running : Bool
  log : List (Bytes × Reply)

namespace Wire

/-- Before the first call. -/
def start (lines : List Bytes) : Wire Reply := ⟨lines, .idle, [], [], true, []⟩

/-- A step of one of the processes. -/
inductive Step (sc : Sidecar Req Reply) : Wire Reply → Wire Reply → Prop where
  /-- A call gets the mutex. -/
  | call {s : Wire Reply} {line : Bytes} {todo : List Bytes} :
    s.phase = .idle → s.todo = line :: todo →
    Step sc s { s with todo, phase := .writing line line }
  /-- `write` takes some bytes. -/
  | write {s : Wire Reply} {line part rest : Bytes} :
    s.phase = .writing line (part ++ rest) → part ≠ [] →
    Step sc s { s with
      toSidecar := s.toSidecar ++ part
      phase := if rest = [] then .reading line else .writing line rest }
  /-- The helper takes a line. -/
  | serve {s : Wire Reply} {line rest : Bytes} :
    s.running = true → s.toSidecar = line ++ '\n' :: rest → '\n' ∉ line →
    Step sc s { s with
      toSidecar := rest
      toServer := s.toServer ++ (sc.serve line).1.toList
      running := (sc.serve line).2 }
  /-- `read_line` has read a reply. -/
  | read {s : Wire Reply} {line : Bytes} {reply : Reply} {rest : List Reply} :
    s.phase = .reading line → s.toServer = reply :: rest →
    Step sc s { s with toServer := rest, phase := .idle, log := s.log ++ [(line, reply)] }
  /-- The pipe is closed: `read_line` throws. -/
  | closed {s : Wire Reply} {line : Bytes} :
    s.phase = .reading line → s.toServer = [] → s.running = false →
    Step sc s { s with phase := .idle }

/-- A state of a run of these calls. -/
def Reached (sc : Sidecar Req Reply) (lines : List Bytes) (s : Wire Reply) : Prop :=
  Relation.ReflTransGen (Step sc) (start lines) s

end Wire

/-- The text is one line: its only newline ends it. -/
def OneLine (text : Bytes) : Prop := ∃ line, text = line ++ ['\n'] ∧ '\n' ∉ line

/-- Every request is one line, and in every state of every run the replies that were read are the
sidecar's answers to the calls that read them, which are the first ones in their order. -/
def Framed (sc : Sidecar Req Reply) (lines : List Bytes) : Prop :=
  (∀ line ∈ lines, OneLine line) ∧
    ∀ s, Wire.Reached sc lines s → s.log.map Prod.fst <+: lines ∧
      ∀ line reply, (line ++ ['\n'], reply) ∈ s.log → (sc.serve line).1 = some reply

/-! ## Newlines in requests -/

/-- A newline of the text stands between quotes. -/
def RawNewline (text : Bytes) : Prop :=
  ∃ before after, text = before ++ '\n' :: after ∧ (before.foldl Lex.step .start).inStr = true

lemma Lex.step_esc {st : Lex} (inside : st.esc = true → st.inStr = true) (c : Char) :
    (st.step c).esc = true → (st.step c).inStr = true := by
  unfold Lex.step
  split_ifs with esc slash quote
  · simp
  · exact fun _ => slash.2
  · exact fun e => absurd e esc
  · exact inside

lemma mem_flattenFrom {st : Lex} (inside : st.esc = true → st.inStr = true) (s : Bytes) :
    '\n' ∈ flattenFrom st s ↔
      ∃ before after, s = before ++ '\n' :: after ∧ (before.foldl Lex.step st).inStr = true := by
  induction s generalizing st with
  | nil => simp [flattenFrom]
  | cons c rest ih =>
    rw [flattenFrom, List.mem_cons, ih (Lex.step_esc inside c)]
    constructor
    · rintro (here | ⟨before, after, rfl, scan⟩)
      · refine ⟨[], rest, ?_, ?_⟩
        · split_ifs at here
          · cases here
          · rw [← here, List.nil_append]
        · by_contra outside
          have closed : st.inStr = false := by simpa using outside
          have plain : st.esc = false := by
            cases esc : st.esc with
            | false => rfl
            | true => exact absurd (inside esc) outside
          split_ifs at here with blank
          · cases here
          · subst here
            simp [closed, plain] at blank
      · exact ⟨c :: before, after, rfl, scan⟩
    · rintro ⟨before, after, split, scan⟩
      cases before with
      | nil =>
        obtain ⟨rfl, rfl⟩ := List.cons.inj split
        have quoted : st.inStr = true := scan
        exact .inl (by simp [quoted])
      | cons d before =>
        obtain ⟨rfl, rfl⟩ := List.cons.inj split
        exact .inr ⟨before, after, rfl, scan⟩

lemma mem_flatten (s : Bytes) : '\n' ∈ flatten s ↔ RawNewline s :=
  mem_flattenFrom (by simp [Lex.start]) s

lemma hexDigit_ne : ∀ n < 16, hexDigit n ≠ '\n' := by decide

lemma not_mem_escapeChar (c : Char) : '\n' ∉ escapeChar c := by
  unfold escapeChar
  split
  all_goals try decide
  rename_i newline _ _
  split_ifs with control
  · have high : hexDigit (c.toNat / 16) ≠ '\n' := hexDigit_ne _ (by omega)
    have low : hexDigit (c.toNat % 16) ≠ '\n' := hexDigit_ne _ (by omega)
    simp [Ne.symm high, Ne.symm low]
  · simpa using fun eq => newline eq.symm

lemma not_mem_jsonEscape (s : Bytes) : '\n' ∉ jsonEscape s := by
  rw [jsonEscape, List.mem_flatMap]
  rintro ⟨c, _, member⟩
  exact not_mem_escapeChar c member

lemma not_mem_stringField {name : String} (plain : '\n' ∉ lit name) (value : Bytes) :
    '\n' ∉ stringField name value := by
  simp only [stringField, List.mem_append, not_or]
  exact ⟨⟨⟨⟨by simp [lit], plain⟩, by simp [lit]⟩, not_mem_jsonEscape value⟩, by simp [lit]⟩

lemma mem_encodeText (req : EncodeRequest) :
    '\n' ∈ encodeText req ↔ RawNewline req.messagesJson ∨ RawNewline req.toolsJson := by
  have messages : ('\n' ∈ if req.messagesJson = [] then lit "[]" else flatten req.messagesJson) ↔
      RawNewline req.messagesJson := by
    rw [← mem_flatten]
    split_ifs with empty
    · rw [empty]
      exact ⟨fun member => absurd member (by simp [lit]), fun member => absurd member List.not_mem_nil⟩
    · rfl
  have tools : ('\n' ∈ if req.toolsJson = [] then []
        else lit ",\"tools\":" ++ flatten req.toolsJson) ↔ RawNewline req.toolsJson := by
    rw [← mem_flatten]
    split_ifs with empty
    · rw [empty]
      rfl
    · rw [List.mem_append]
      exact or_iff_right (by simp [lit])
  have mode : '\n' ∉ stringField "thinking_mode" req.thinkingMode :=
    not_mem_stringField (by simp [lit]) _
  have effort : '\n' ∉ if req.reasoningEffort = [] then []
      else stringField "reasoning_effort" req.reasoningEffort := by
    split_ifs
    · exact List.not_mem_nil
    · exact not_mem_stringField (by simp [lit]) _
  have flags (b : Bool) : '\n' ∉ flag b := by
    cases b <;> simp [flag, lit]
  have plain : ∀ text ∈ ["\x7b\"op\":\"encode\"", ",\"messages\":", ",\"add_generation_prompt\":",
      ",\"drop_thinking\":", "\x7d"], '\n' ∉ lit text := by decide +kernel
  simp only [List.forall_mem_cons] at plain
  simp only [encodeText, List.mem_append, messages, tools, mode, effort, flags, plain, false_or,
    or_false]

lemma not_mem_parseText (text thinkingMode : Bytes) : '\n' ∉ parseText text thinkingMode := by
  simp only [parseText, List.mem_append, not_or]
  exact ⟨⟨⟨by simp [lit], not_mem_stringField (by simp [lit]) text⟩,
    not_mem_stringField (by simp [lit]) thinkingMode⟩, by simp [lit]⟩

lemma oneLine_append (text : Bytes) : OneLine (text ++ ['\n']) ↔ '\n' ∉ text := by
  constructor
  · rintro ⟨line, eq, plain⟩
    rwa [List.append_cancel_right eq]
  · exact fun plain => ⟨text, rfl, plain⟩

lemma oneLine_iff (mode : Bytes) (calls : List SidecarCall) :
    (∀ line ∈ calls.filterMap (SidecarCall.line mode), OneLine line) ↔
      ∀ body, .encode body ∈ calls → ∀ req, chatRequest mode body = .ok req →
        ¬ RawNewline req.messagesJson ∧ ¬ RawNewline req.toolsJson := by
  constructor
  · intro framed body member req parsed
    have line := framed (encodeText req ++ ['\n'])
      (List.mem_filterMap.mpr ⟨.encode body, member, by simp only [SidecarCall.line, parsed]⟩)
    rwa [oneLine_append, mem_encodeText, not_or] at line
  · intro clean line member
    obtain ⟨call, member, written⟩ := List.mem_filterMap.mp member
    cases call with
    | encode body =>
      cases parsed : chatRequest mode body with
      | error e => simp [SidecarCall.line, parsed] at written
      | ok req =>
        simp only [SidecarCall.line, parsed, Option.some.injEq] at written
        rw [← written, oneLine_append, mem_encodeText, not_or]
        exact clean body member req parsed
    | parse text thinkingMode =>
      simp only [SidecarCall.line, Option.some.injEq] at written
      rw [← written, oneLine_append]
      exact not_mem_parseText text thinkingMode

/-! ## Requests and replies -/

namespace Wire

/-- The call that has the mutex, if the helper can still answer it: what is in the pipes is its
request or its reply. -/
def Live (sc : Sidecar Req Reply) (taken : List Bytes) (s : Wire Reply) : Prop :=
  match s.phase with
  | .idle => s.log.map Prod.fst = taken ∧ s.toSidecar = [] ∧ s.toServer = []
  | .writing line rest => s.log.map Prod.fst ++ [line] = taken ∧ s.toSidecar ++ rest = line ∧
      rest ≠ [] ∧ s.toServer = []
  | .reading line => s.log.map Prod.fst ++ [line] = taken ∧
      (s.toSidecar = line ∧ s.toServer = [] ∨
        s.toSidecar = [] ∧ ∃ text, line = text ++ ['\n'] ∧ s.toServer = (sc.serve text).1.toList)

/-- The helper is gone, and its last reply was read. -/
def Dead (taken : List Bytes) (s : Wire Reply) : Prop :=
  s.running = false ∧ s.toServer = [] ∧ s.log.map Prod.fst <+: taken

/-- The replies that were read are the answers to their requests, which are the first ones. -/
structure Inv (sc : Sidecar Req Reply) (lines : List Bytes) (s : Wire Reply) : Prop where
  answered : ∀ line reply, (line ++ ['\n'], reply) ∈ s.log → (sc.serve line).1 = some reply
  taken : ∃ taken, lines = taken ++ s.todo ∧ (Live sc taken s ∨ Dead taken s)

lemma first_line {line rest text : Bytes} (eq : line ++ '\n' :: rest = text ++ ['\n'])
    (plain : '\n' ∉ text) : rest = [] ∧ line = text := by
  rcases List.eq_nil_or_concat' rest with rfl | ⟨front, last, rfl⟩
  · exact ⟨rfl, List.append_cancel_right eq⟩
  · rw [← List.cons_append, ← List.append_assoc] at eq
    obtain ⟨rfl, _⟩ := List.append_inj' eq rfl
    simp at plain

lemma no_line {part rest text : Bytes} (eq : part ++ rest = text ++ ['\n']) (more : rest ≠ [])
    (plain : '\n' ∉ text) : '\n' ∉ part := by
  rcases List.eq_nil_or_concat' rest with rfl | ⟨front, last, rfl⟩
  · exact absurd rfl more
  · rw [← List.append_assoc] at eq
    obtain ⟨rfl, _⟩ := List.append_inj' eq rfl
    exact fun member => plain (List.mem_append_left front member)

variable {sc : Sidecar Req Reply} {lines : List Bytes} {s t : Wire Reply}

lemma Inv.start (sc : Sidecar Req Reply) (lines : List Bytes) : Inv sc lines (Wire.start lines) where
  answered := by simp [Wire.start]
  taken := ⟨[], rfl, .inl ⟨rfl, rfl, rfl⟩⟩

lemma Dead.step {taken : List Bytes} (dead : Dead taken s) (eq : lines = taken ++ s.todo)
    (step : Step sc s t) :
    t.log = s.log ∧ ∃ taken', lines = taken' ++ t.todo ∧ Dead taken' t := by
  obtain ⟨gone, empty, front⟩ := dead
  cases step with
  | @call line todo _ next =>
    refine ⟨rfl, taken ++ [line], ?_, gone, empty, front.trans (List.prefix_append ..)⟩
    rw [eq, next, List.append_assoc]
    rfl
  | write => exact ⟨rfl, taken, eq, gone, empty, front⟩
  | serve running =>
    rw [gone] at running
    cases running
  | read _ has =>
    rw [empty] at has
    cases has
  | closed => exact ⟨rfl, taken, eq, gone, empty, front⟩

lemma Live.step {taken : List Bytes} (oneLine : ∀ line ∈ lines, OneLine line)
    (answered : ∀ line reply, (line ++ ['\n'], reply) ∈ s.log → (sc.serve line).1 = some reply)
    (live : Live sc taken s) (eq : lines = taken ++ s.todo) (step : Step sc s t) :
    Inv sc lines t := by
  cases step with
  | @call line todo idle next =>
    simp only [Live, idle] at live
    obtain ⟨log, sent, replies⟩ := live
    obtain ⟨text, rfl, plain⟩ := oneLine line (by rw [eq, next]; simp)
    refine ⟨answered, taken ++ [text ++ ['\n']], by rw [eq, next, List.append_assoc]; rfl, .inl ?_⟩
    exact ⟨by rw [log], by rw [sent]; rfl, by simp, replies⟩
  | @write line part rest writing some_ =>
    simp only [Live, writing] at live
    obtain ⟨log, sent, _, replies⟩ := live
    rw [← List.append_assoc] at sent
    refine ⟨answered, taken, eq, .inl ?_⟩
    by_cases all : rest = []
    · simp only [Live, if_pos all]
      rw [all, List.append_nil] at sent
      exact ⟨log, .inl ⟨sent, replies⟩⟩
    · simp only [Live, if_neg all]
      exact ⟨log, sent, all, replies⟩
  | @serve line rest running has plain =>
    cases phase : s.phase with
    | idle =>
      simp only [Live, phase] at live
      rw [live.2.1] at has
      simp at has
    | writing request left =>
      simp only [Live, phase] at live
      obtain ⟨log, sent, more, _⟩ := live
      obtain ⟨text, rfl, clean⟩ := oneLine request (by rw [eq, ← log]; simp)
      exact absurd (by rw [has]; simp) (no_line sent more clean)
    | reading request =>
      simp only [Live, phase] at live
      obtain ⟨log, ⟨sent, replies⟩ | ⟨sent, _⟩⟩ := live
      · obtain ⟨text, rfl, clean⟩ := oneLine request (by rw [eq, ← log]; simp)
        obtain ⟨rfl, rfl⟩ := first_line (has.symm.trans sent) clean
        refine ⟨answered, taken, eq, .inl ?_⟩
        simp only [Live]
        exact ⟨log, .inr ⟨trivial, line, rfl, by rw [replies, List.nil_append]⟩⟩
      · rw [sent] at has
        simp at has
  | @read line reply rest reading has =>
    simp only [Live, reading] at live
    obtain ⟨log, ⟨_, none⟩ | ⟨sent, text, rfl, replies⟩⟩ := live
    · rw [none] at has
      cases has
    · have answer : (sc.serve text).1 = some reply ∧ rest = [] := by
        cases served : (sc.serve text).1 with
        | none => simp [replies, served] at has
        | some r => simpa [replies, served, eq_comm] using has
      obtain ⟨answer, rfl⟩ := answer
      refine ⟨?_, taken, eq, .inl ⟨by simpa using log, sent, rfl⟩⟩
      intro line r member
      rcases List.mem_append.mp member with old | new
      · exact answered line r old
      · obtain ⟨same, rfl⟩ := Prod.mk.inj (List.mem_singleton.mp new)
        rwa [List.append_cancel_right same]
  | @closed line reading empty gone =>
    simp only [Live, reading] at live
    refine ⟨answered, taken, eq, .inr ⟨gone, empty, ?_⟩⟩
    rw [← live.1]
    exact List.prefix_append ..

lemma Inv.reached (oneLine : ∀ line ∈ lines, OneLine line) (reached : Reached sc lines s) :
    Inv sc lines s := by
  induction reached with
  | refl => exact Inv.start sc lines
  | tail _ step inv =>
    obtain ⟨answered, taken, eq, live | dead⟩ := inv
    · exact live.step oneLine answered eq step
    · obtain ⟨log, taken', eq', dead'⟩ := dead.step eq step
      exact ⟨log ▸ answered, taken', eq', .inr dead'⟩

lemma Inv.log_prefix (inv : Inv sc lines s) : s.log.map Prod.fst <+: lines := by
  obtain ⟨_, taken, rfl, live | dead⟩ := inv
  · refine List.IsPrefix.trans ?_ (List.prefix_append taken s.todo)
    cases phase : s.phase with
    | idle =>
      simp only [Live, phase] at live
      rw [live.1]
    | writing line rest =>
      simp only [Live, phase] at live
      rw [← live.1]
      exact List.prefix_append ..
    | reading line =>
      simp only [Live, phase] at live
      rw [← live.1]
      exact List.prefix_append ..
  · exact dead.2.2.trans (List.prefix_append ..)

/-- A request with a newline in it is answered as two, and its second reply is read as the one of the
next request. -/
lemma reached_shifted (sc : Sidecar Req Reply) {a b next : Bytes} {r r' : Reply}
    (plain : '\n' ∉ a) (plain' : '\n' ∉ b) (some_ : next ≠ []) (first : sc.serve a = (some r, true))
    (second : (sc.serve b).1 = some r') :
    ∃ s, Reached sc [a ++ '\n' :: (b ++ ['\n']), next] s ∧
      s.log = [(a ++ '\n' :: (b ++ ['\n']), r), (next, r')] := by
  let line := a ++ '\n' :: (b ++ ['\n'])
  let rest := b ++ ['\n']
  have called : Reached sc [line, next] ⟨[next], .writing line (line ++ []), [], [], true, []⟩ := by
    rw [List.append_nil]
    exact .single (.call rfl rfl)
  have written : Reached sc [line, next] ⟨[next], .reading line, line, [], true, []⟩ :=
    called.tail (@Step.write _ _ sc _ line line [] rfl (by simp [line]))
  have served : Reached sc [line, next] ⟨[next], .reading line, rest, [r], true, []⟩ := by
    have := written.tail (@Step.serve _ _ sc _ a rest rfl rfl plain)
    rwa [first] at this
  have answered : Reached sc [line, next] ⟨[next], .idle, rest, [], true, [(line, r)]⟩ :=
    served.tail (.read rfl rfl)
  have called' : Reached sc [line, next]
      ⟨[], .writing next (next ++ []), rest, [], true, [(line, r)]⟩ := by
    rw [List.append_nil]
    exact answered.tail (.call rfl rfl)
  have written' : Reached sc [line, next]
      ⟨[], .reading next, rest ++ next, [], true, [(line, r)]⟩ :=
    called'.tail (@Step.write _ _ sc _ next next [] rfl some_)
  have served' : Reached sc [line, next]
      ⟨[], .reading next, next, [r'], (sc.serve b).2, [(line, r)]⟩ := by
    have := written'.tail (@Step.serve _ _ sc _ b next rfl (by simp [rest]) plain')
    rwa [second] at this
  exact ⟨_, served'.tail (.read rfl rfl), rfl⟩

end Wire

/-- Requests and replies stay matched in every run of these calls exactly when none of the arrays
that are taken from the bodies has a raw newline between quotes. -/
theorem framed_iff (sc : Sidecar Req Reply) (mode : Bytes) (calls : List SidecarCall) :
    Framed sc (calls.filterMap (SidecarCall.line mode)) ↔
      ∀ body, .encode body ∈ calls → ∀ req, chatRequest mode body = .ok req →
        ¬ RawNewline req.messagesJson ∧ ¬ RawNewline req.toolsJson := by
  rw [← oneLine_iff]
  exact ⟨fun framed => framed.1, fun oneLine => ⟨oneLine, fun s reached =>
    have inv := Wire.Inv.reached oneLine reached
    ⟨inv.log_prefix, inv.answered⟩⟩⟩

/-- A helper that answers every line with the line. -/
def echo : Sidecar (List Char) (List Char) where
  decode := id
  loads := .ok
  get := fun _ => some .encode
  handleEncode := .ok
  handleParse := .ok
  pong := []
  bye := []
  err := String.toList

/-- Two bodies that the server accepts. The first has a raw newline in a string; the reply that is
read for the second is the answer to what follows this newline. -/
theorem echo_shifted :
    (parseJson (lit "\x7b\"messages\":[\"a\nb\"]\x7d")).isOk = true ∧
    (parseJson (lit "\x7b\"messages\":[\"c\"]\x7d")).isOk = true ∧
    ¬ Framed echo ([.encode (lit "\x7b\"messages\":[\"a\nb\"]\x7d"),
      .encode (lit "\x7b\"messages\":[\"c\"]\x7d")].filterMap (SidecarCall.line (lit "chat"))) := by
  refine ⟨by decide +kernel, by decide +kernel, fun framed => ?_⟩
  let tail := lit
    ",\"thinking_mode\":\"chat\",\"add_generation_prompt\":true,\"drop_thinking\":true\x7d"
  have lines : [.encode (lit "\x7b\"messages\":[\"a\nb\"]\x7d"),
      .encode (lit "\x7b\"messages\":[\"c\"]\x7d")].filterMap (SidecarCall.line (lit "chat")) =
      [lit "\x7b\"op\":\"encode\",\"messages\":[\"a" ++
          '\n' :: ((lit "b\"]" ++ tail) ++ ['\n']),
        (lit "\x7b\"op\":\"encode\",\"messages\":[\"c\"]" ++ tail) ++ ['\n']] := by decide +kernel
  have first : echo.serve (lit "\x7b\"op\":\"encode\",\"messages\":[\"a") =
      (some (lit "\x7b\"op\":\"encode\",\"messages\":[\"a"), true) := by decide +kernel
  have second : (echo.serve (lit "b\"]" ++ tail)).1 = some (lit "b\"]" ++ tail) := by decide +kernel
  have some_ : (lit "\x7b\"op\":\"encode\",\"messages\":[\"c\"]" ++ tail) ++ ['\n'] ≠ [] := by simp
  obtain ⟨s, reached, log⟩ :=
    Wire.reached_shifted echo (by decide +kernel) (by decide +kernel) some_ first second
  have answer := (framed.2 s (lines ▸ reached)).2
    (lit "\x7b\"op\":\"encode\",\"messages\":[\"c\"]" ++ tail) (lit "b\"]" ++ tail)
    (by simp [log])
  revert answer
  decide +kernel

end PocketMoE.Server
