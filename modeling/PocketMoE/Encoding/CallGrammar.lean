import PocketMoE.Encoding.RoundTrip

/-!
# Which completions with tool calls are accepted

`CallsBlock` is the grammar of the texts behind the mark of the tool calls that `parse_tool_calls`
accepts: `CallsBlock.parse` reads a text of it, and what is read is a text of it
(`parseCalls_block_of_ok`). The loops of the parser end at the end of the text, so a block may also
break off: behind the mark or `</｜DSML｜invoke`, and behind the first line of a call or the line of a
parameter. The end mark may be missing, too. A completion is accepted only as a whole exactly if it
does not break off there (`whole_iff`).
-/

namespace PocketMoE.Encoding
open PocketMoE.Lib

/-! ## The grammar -/

/-- The lines of the parameters of a call. -/
inductive ParameterLines : Text → List Parameter → Prop where
  | nil : ParameterLines [] []
  | cons {content s : Text} {param : Parameter} {params : List Parameter}
      (matched : Item.matchItems parameterPattern content =
        some [param.name, param.string, param.value])
      (clear : ¬ parameterEnd <:+: content) (lines : ParameterLines s params) :
      ParameterLines
        (parameterStart ++ (content ++ (parameterEnd ++ (text ">\n" ++ s)))) (param :: params)

/-- A call between its opening and its closing mark. -/
inductive CallBody : Text → Text × List Parameter → Prop where
  | intro {header s name : Text} {params : List Parameter}
      (matched : Item.matchItems toolNamePattern header = some [name])
      (clear : ∀ stop ∈ [parameterStart, invokeEnd], ¬ stop <:+: header)
      (lines : ParameterLines s params) (nodup : (params.map (·.name)).Nodup) :
      CallBody (header ++ s) (name, params)

/-- The text behind the mark of the tool calls: what stands behind the closing mark, if there is
one, and the calls. -/
inductive CallsBlock : Text → Option Text → List (Text × List Parameter) → Prop where
  | isOver : CallsBlock [] none []
  | unclosed {s : Text} {call : Text × List Parameter} (body : CallBody s call) :
      CallsBlock (text ">\n" ++ (invokeStart ++ s)) none [call]
  | closed {rest : Text} : CallsBlock (text ">\n" ++ (toolCallsEndToken ++ rest)) (some rest) []
  | call {s t : Text} {rest : Option Text} {call : Text × List Parameter}
      {calls : List (Text × List Parameter)} (body : CallBody s call)
      (block : CallsBlock t rest calls) :
      CallsBlock (text ">\n" ++ (invokeStart ++ (s ++ (invokeEnd ++ t)))) rest (call :: calls)

/-- The text before the mark of the tool calls. -/
inductive Front : ThinkingMode → Text → Text → Text → Prop where
  | chat {content : Text} (free : Free content) : Front .chat [] content content
  | thinking {reasoning content : Text} (free : Free reasoning) (free' : Free content) :
      Front .thinking reasoning content (reasoning ++ (thinkingEndToken ++ content))

/-! ## Reading between marks -/

section
variable {s content rest : Text} {stops : List Text} {matched : Option Text}

lemma readUntilStop_split (read : readUntilStop s stops = (content, matched, rest)) :
    s = content ++ (matched.getD [] ++ rest) := by
  cases matched with
  | none =>
    obtain ⟨rfl, rfl, -⟩ := readUntilStop_none read
    exact (List.append_nil _).symm
  | some stop => exact (readUntilStop_some read).2.1

lemma readUntilStop_clear (read : readUntilStop s stops = (content, matched, rest)) :
    ∀ stop ∈ stops, stop ≠ [] → ¬ stop <:+: content := by
  intro stop listed nonempty within
  obtain ⟨p, here⟩ := infix_iff_at.mp within
  have pos := List.length_pos_of_ne_nil nonempty
  have inside := here.length_le
  have le : content.length ≤ p := by
    cases matched with
    | none =>
      obtain ⟨rfl, -, least⟩ := readUntilStop_none read
      exact least stop listed p here
    | some stop' =>
      obtain ⟨-, rfl, least⟩ := readUntilStop_some read
      exact least stop listed p (here.append _)
  omega

lemma readUntilStop_nowhere (clear : ∀ stop ∈ stops, ¬ stop <:+: s) :
    readUntilStop s stops = (s, none, []) := by
  rcases read : readUntilStop s stops with ⟨content, matched, rest⟩
  cases matched with
  | none =>
    obtain ⟨rfl, rfl, -⟩ := readUntilStop_none read
    rfl
  | some stop =>
    obtain ⟨listed, rfl, -⟩ := readUntilStop_some read
    exact absurd ⟨content, rest, List.append_assoc ..⟩ (clear stop listed)

lemma readUntilStop_mark {c : Code} (marks : Marks c stops) {stop : Text} (listed : stop ∈ stops)
    (clear : ∀ stop ∈ stops, ¬ stop <:+: content) :
    readUntilStop (content ++ (stop ++ rest)) stops = (content, some stop, rest) :=
  readUntilStop_first listed
    (fun stop' listed' => ⟨(marks stop' listed').1, (marks stop' listed').2.1⟩)
    (marks stop listed).2.2.2 clear

end

lemma clear_lineEnd {stops : List Text} {c : Code} (marks : Marks c stops) :
    ∀ stop ∈ stops, ¬ stop <:+: text ">\n" := by
  have clear : ¬ dsmlToken <:+: text ">\n" := clear_text (by decide)
  exact fun stop listed within => clear ((marks stop listed).2.2.1.trans within)

/-! ## A text of the grammar is read -/

/-- Where the lines of parameters end: at the closing mark of the call, or with the text. -/
inductive Ending : Text → Option Text → Text → Prop where
  | closed {after : Text} : Ending (invokeEnd ++ after) (some invokeEnd) after
  | isOver : Ending [] none []

lemma ParameterLines.parse {lines ending after content : Text} {params : List Parameter}
    {mark : Option Text} (parsed : ParameterLines lines params) (ends : Ending ending mark after)
    (clear : ∀ stop ∈ [parameterStart, invokeEnd], ¬ stop <:+: content) (read : List Parameter)
    (nodup : ((read ++ params).map (·.name)).Nodup) :
    ∃ next s, readUntilStop (content ++ (lines ++ ending)) [parameterStart, invokeEnd] =
        (content, next, s) ∧ params.length ≤ s.length ∧
      ∀ fuel, params.length < fuel →
        parseParameters fuel s next read = .ok (after, mark, read ++ params) := by
  induction parsed generalizing content read with
  | nil =>
    have stops : mark ≠ some parameterStart := by
      cases ends with
      | closed => decide
      | isOver => rintro ⟨⟩
    have done : ∀ fuel, 0 < fuel →
        parseParameters fuel after mark read = .ok (after, mark, read ++ []) := by
      intro fuel enough
      obtain ⟨fuel, rfl⟩ : ∃ n, fuel = n + 1 := ⟨fuel - 1, by omega⟩
      rw [parseParameters, if_neg stops, List.append_nil]
    refine ⟨mark, after, ?_, Nat.zero_le _, done⟩
    cases ends with
    | closed => exact readUntilStop_mark marks_parameter (.tail _ List.mem_cons_self) clear
    | isOver =>
      rw [List.append_nil, List.append_nil]
      exact readUntilStop_nowhere clear
  | @cons inner s param params matched inside lines ih =>
    have split : (read ++ [param]) ++ params = read ++ param :: params :=
      (List.append_cons ..).symm
    obtain ⟨next, s', behind, short, parse⟩ := @ih (text ">\n") (clear_lineEnd marks_parameter)
      (read ++ [param]) (by rwa [split])
    have fresh : param.name ∉ read.map (·.name) := by
      rw [List.map_append, List.nodup_append'] at nodup
      exact fun member => nodup.2.2 member List.mem_cons_self
    have first := @readUntilStop_mark content
      (inner ++ (parameterEnd ++ (text ">\n" ++ (s ++ ending)))) _ _ marks_parameter parameterStart
      List.mem_cons_self clear
    have second := @readUntilStop_mark inner (text ">\n" ++ (s ++ ending)) _ _ marks_parameterEnd
      parameterEnd List.mem_cons_self (List.forall_mem_singleton.mpr inside)
    have le := readUntilStop_length behind
    refine ⟨some parameterStart, inner ++ (parameterEnd ++ (text ">\n" ++ (s ++ ending))),
      ?_, ?_, ?_⟩
    · simp only [List.append_assoc]
      exact first
    · simp only [List.length_append, List.length_cons] at le ⊢
      rw [length_lineEnd] at le ⊢
      omega
    · intro fuel enough
      obtain ⟨fuel, rfl⟩ : ∃ n, fuel = n + 1 := ⟨fuel - 1, by omega⟩
      rw [parseParameters, if_pos rfl, second]
      dsimp only
      rw [matched]
      dsimp only
      rw [if_neg fresh, behind]
      dsimp only
      rw [if_neg (not_not.mpr rfl), parse fuel (Nat.lt_of_succ_lt_succ enough), split]

lemma lineEnd_append_ne_nil (s : Text) : text ">\n" ++ s ≠ [] := by
  intro nil
  have none : text ">\n" = [] := (List.append_eq_nil_iff.mp nil).1
  exact absurd none (by decide)

lemma CallBody.parse {s ending after : Text} {call : Text × List Parameter} {mark : Option Text}
    (body : CallBody s call) (ends : Ending ending mark after) (fuel : Nat) (stop : Option Text)
    (read : List ToolFunction) :
    parseCalls (fuel + 1) (text ">\n" ++ (invokeStart ++ (s ++ ending))) stop read =
      parseCalls fuel after mark (read ++ [decodeDsmlToArguments call.1 call.2]) := by
  obtain ⟨matched, clear, lines, nodup⟩ := body
  next header s name params =>
  obtain ⟨next, s', first, short, parse⟩ := lines.parse ends clear [] nodup
  have start := @readUntilStop_mark (text ">\n") ((header ++ s) ++ ending) _ _ marks_invoke
    invokeStart List.mem_cons_self (clear_lineEnd marks_invoke)
  have other : ¬ some invokeStart = some toolCallsEndToken := by decide
  rw [parseCalls, if_neg (lineEnd_append_ne_nil _), start]
  dsimp only
  rw [if_neg (not_not.mpr rfl), if_neg other, if_neg (by rintro ⟨⟩), List.append_assoc, first]
  dsimp only
  rw [matched]
  dsimp only
  rw [parse _ (Nat.lt_succ_of_le short)]
  rfl

lemma CallsBlock.parse {s : Text} {rest : Option Text} {calls : List (Text × List Parameter)}
    (block : CallsBlock s rest calls) {fuel : Nat} (enough : s.length < fuel) (stop : Option Text)
    (read : List ToolFunction) :
    ∃ stop', parseCalls fuel s stop read = .ok (rest.getD [], stop',
      read ++ calls.map fun call => decodeDsmlToArguments call.1 call.2) := by
  have isOver (fuel : Nat) (enough : 0 < fuel) (stop : Option Text) (read : List ToolFunction) :
      parseCalls fuel [] stop read = .ok ([], stop, read) := by
    obtain ⟨fuel, rfl⟩ : ∃ n, fuel = n + 1 := ⟨fuel - 1, by omega⟩
    rw [parseCalls, if_pos rfl]
  induction block generalizing fuel stop read with
  | isOver =>
    refine ⟨stop, ?_⟩
    rw [isOver fuel enough, List.map_nil, List.append_nil]
    rfl
  | @unclosed s call body =>
    obtain ⟨fuel, rfl⟩ : ∃ n, fuel = n + 1 := ⟨fuel - 1, by omega⟩
    have one := body.parse .isOver fuel stop read
    rw [List.append_nil] at one
    refine ⟨none, ?_⟩
    rw [List.length_append, length_lineEnd] at enough
    rw [one, isOver fuel (by omega)]
    rfl
  | @closed rest =>
    obtain ⟨fuel, rfl⟩ : ∃ n, fuel = n + 1 := ⟨fuel - 1, by omega⟩
    have ends := @readUntilStop_mark (text ">\n") rest _ _ marks_invoke toolCallsEndToken
      (.tail _ List.mem_cons_self) (clear_lineEnd marks_invoke)
    refine ⟨some toolCallsEndToken, ?_⟩
    rw [parseCalls, if_neg (lineEnd_append_ne_nil _), ends]
    dsimp only
    rw [if_neg (not_not.mpr rfl), if_pos rfl, List.map_nil, List.append_nil]
    rfl
  | @call s t rest call calls body block ih =>
    obtain ⟨fuel, rfl⟩ : ∃ n, fuel = n + 1 := ⟨fuel - 1, by omega⟩
    simp only [List.length_append] at enough
    rw [length_lineEnd] at enough
    obtain ⟨stop', parse⟩ := @ih fuel (by omega) (some invokeEnd)
      (read ++ [decodeDsmlToArguments call.1 call.2])
    refine ⟨stop', ?_⟩
    rw [body.parse .closed fuel stop read, parse, List.map_cons, List.append_assoc]
    rfl

/-! ## What is read is a text of the grammar -/

lemma readUntilStop_matched {s content rest : Text} {stops : List Text} {matched : Option Text}
    (read : readUntilStop s stops = (content, matched, rest)) :
    (∃ stop ∈ stops, matched = some stop) ∨ matched = none ∧ rest = [] := by
  cases matched with
  | none => exact Or.inr ⟨rfl, (readUntilStop_none read).2.1⟩
  | some stop => exact Or.inl ⟨stop, (readUntilStop_some read).1, rfl⟩

lemma parseParameters_lines {fuel : Nat} {s after : Text} {stop mark : Option Text}
    {read args : List Parameter}
    (ok : parseParameters fuel s stop read = .ok (after, mark, args))
    (known : (∃ mark ∈ [parameterStart, invokeEnd], stop = some mark) ∨ stop = none ∧ s = []) :
    ∃ lines params ending, ParameterLines lines params ∧ Ending ending mark after ∧
      stop.getD [] ++ s = lines ++ ending ∧ args = read ++ params ∧
      ((read.map (·.name)).Nodup → (args.map (·.name)).Nodup) := by
  induction fuel generalizing s stop read with
  | zero => cases ok
  | succ fuel ih =>
    rw [parseParameters] at ok
    split_ifs at ok with more
    · obtain rfl := more
      rcases first : readUntilStop s [parameterEnd] with ⟨content, end', s'⟩
      rcases second : readUntilStop s' [parameterStart, invokeEnd] with ⟨between, next, s''⟩
      rw [first] at ok
      dsimp only at ok
      split at ok
      · next paramName string paramValue matched =>
        rw [second] at ok
        dsimp only at ok
        split_ifs at ok with twice format
        obtain rfl := not_ne_iff.mp format
        obtain ⟨lines, params, ending, inner, ends, eq, rfl, nodup⟩ :=
          ih ok (readUntilStop_matched second)
        -- without the closing mark there is nothing left for the end of the line
        have closed : end' = some parameterEnd := by
          rcases readUntilStop_matched first with ⟨stop, listed, rfl⟩ | ⟨-, rfl⟩
          · rw [List.mem_singleton.mp listed]
          · have nothing : readUntilStop [] [parameterStart, invokeEnd] = ([], none, []) := by
              decide
            have same : [] = text ">\n" := congrArg Prod.fst (nothing.symm.trans second)
            exact absurd same (by decide)
        obtain rfl := closed
        have clear := readUntilStop_clear first parameterEnd List.mem_cons_self (by decide)
        have line := @ParameterLines.cons _ _ ⟨paramName, paramValue, string⟩ _ matched clear inner
        refine ⟨_, _, ending, line, ends, ?_, List.append_assoc .., fun unique => nodup ?_⟩
        · have whole := readUntilStop_split first
          have rest := readUntilStop_split second
          rw [eq] at rest
          rw [whole, rest]
          simp only [Option.getD_some, List.append_assoc]
        · rw [List.map_append, List.nodup_append']
          refine ⟨unique, List.nodup_singleton _, fun name member same => twice ?_⟩
          rw [List.mem_singleton.mp same] at member
          exact member
      · cases ok
    · cases ok
      rcases known with ⟨stop', listed, rfl⟩ | ⟨rfl, rfl⟩
      · have closed : stop' = invokeEnd := by
          rcases List.mem_cons.mp listed with rfl | listed
          · exact absurd rfl more
          · exact List.mem_singleton.mp listed
        obtain rfl := closed
        exact ⟨[], [], _, .nil, .closed, rfl, (List.append_nil _).symm, id⟩
      · exact ⟨[], [], [], .nil, .isOver, rfl, (List.append_nil _).symm, id⟩

lemma CallsBlock.nil {s : Text} {rest : Option Text} {calls : List (Text × List Parameter)}
    (block : CallsBlock s rest calls) (nil : s = []) : rest = none ∧ calls = [] := by
  cases block with
  | isOver => exact ⟨rfl, rfl⟩
  | unclosed => exact absurd nil (lineEnd_append_ne_nil _)
  | closed => exact absurd nil (lineEnd_append_ne_nil _)
  | call => exact absurd nil (lineEnd_append_ne_nil _)

lemma parseCalls_block_of_ok {fuel : Nat} {s after : Text} {stop mark : Option Text}
    {read called : List ToolFunction}
    (ok : parseCalls fuel s stop read = .ok (after, mark, called)) :
    ∃ rest calls, CallsBlock s rest calls ∧ after = rest.getD [] ∧
      called = read ++ calls.map fun call => decodeDsmlToArguments call.1 call.2 := by
  induction fuel generalizing s stop read with
  | zero => cases ok
  | succ fuel ih =>
    rw [parseCalls] at ok
    split_ifs at ok with isOver
    · cases ok
      exact ⟨none, [], isOver ▸ .isOver, isOver, (List.append_nil _).symm⟩
    · rcases first : readUntilStop s [invokeStart, toolCallsEndToken] with ⟨between, start, s'⟩
      rcases second : readUntilStop s' [parameterStart, invokeEnd] with ⟨header, next, s''⟩
      have whole := readUntilStop_split first
      have inside := readUntilStop_split second
      rw [first] at ok
      dsimp only at ok
      split_ifs at ok with format ends missing
      · obtain rfl := not_ne_iff.mp format
        obtain rfl := ends
        cases ok
        exact ⟨some after, [], whole ▸ .closed, rfl, (List.append_nil _).symm⟩
      · obtain rfl := not_ne_iff.mp format
        have start' : start = some invokeStart := by
          rcases readUntilStop_matched first with ⟨stop, listed, rfl⟩ | ⟨rfl, -⟩
          · rcases List.mem_cons.mp listed with rfl | listed
            · rfl
            · exact absurd (congrArg some (List.mem_singleton.mp listed)) ends
          · exact absurd rfl missing
        obtain rfl := start'
        rw [second] at ok
        dsimp only at ok
        split at ok
        · next toolName matched =>
          split at ok
          · next left stop' args parsed =>
            obtain ⟨lines, params, ending, inner, closes, eq, rfl, nodup⟩ :=
              parseParameters_lines parsed (readUntilStop_matched second)
            have clear := readUntilStop_clear second
            have nonempty : ∀ stop ∈ [parameterStart, invokeEnd], stop ≠ [] := by decide
            have body : CallBody (header ++ lines) (toolName, args) :=
              .intro matched (fun stop listed => clear stop listed (nonempty stop listed)) inner
                (nodup List.nodup_nil)
            obtain ⟨rest, calls, block, rfl, rfl⟩ := ih ok
            rw [eq] at inside
            rw [inside, Option.getD_some] at whole
            refine ⟨rest, (toolName, args) :: calls, ?_, rfl, ?_⟩
            · cases closes with
              | closed =>
                have block' := CallsBlock.call body block
                simp only [List.append_assoc] at block' whole
                rwa [whole]
              | isOver =>
                obtain ⟨rfl, rfl⟩ := block.nil rfl
                have block' := CallsBlock.unclosed body
                rw [whole, List.append_nil]
                exact block'
            · rw [List.append_assoc, List.map_cons]
              rfl
          · cases ok
        · cases ok

/-! ## Where a block breaks off -/

/-- The ends of a text that breaks off. -/
def brokenEnds : List Text := [toolCallsStartToken, invokeEnd, text "\n", toolCallsEndToken]

/-- The text ends in one of these ways, so not with the end mark. -/
def Broken (s : Text) : Prop := ∃ tail ∈ brokenEnds, tail <:+ s

lemma Broken.append {s : Text} (broken : Broken s) (front : Text) : Broken (front ++ s) := by
  obtain ⟨tail, listed, suffix⟩ := broken
  exact ⟨tail, listed, suffix.trans (List.suffix_append ..)⟩

lemma Broken.not_eos {s : Text} (broken : Broken s) : ¬ eosToken <:+ s := by
  obtain ⟨tail, listed, suffix⟩ := broken
  have apart : ∀ tail ∈ brokenEnds, ¬ eosToken <:+ tail ∧ ¬ tail <:+ eosToken := by decide
  intro eos
  rcases List.suffix_or_suffix_of_suffix eos suffix with inside | inside
  · exact (apart tail listed).1 inside
  · exact (apart tail listed).2 inside

lemma broken_line {s : Text} (line : text "\n" <:+ s) : Broken s := by
  have listed : text "\n" ∈ brokenEnds := by decide
  exact ⟨_, listed, line⟩

lemma ParameterLines.line {s : Text} {params : List Parameter} (lines : ParameterLines s params) :
    s = [] ∨ text "\n" <:+ s := by
  induction lines with
  | nil => exact Or.inl rfl
  | @cons inner s param params matched clear lines ih =>
    have newline : text "\n" <:+ text ">\n" := by decide
    have last : text "\n" <:+ text ">\n" ++ s := by
      rcases ih with rfl | line
      · rwa [List.append_nil]
      · exact line.trans (List.suffix_append ..)
    refine Or.inr (last.trans ?_)
    exact (List.suffix_append ..).trans ((List.suffix_append ..).trans (List.suffix_append ..))

lemma CallBody.line {s : Text} {call : Text × List Parameter} (body : CallBody s call) :
    text "\n" <:+ s := by
  obtain ⟨matched, -, lines, -⟩ := body
  next header s name params =>
  rcases lines.line with rfl | line
  · obtain ⟨s', groups, suffix, ends⟩ := @Item.matchItems_suffix
      [.spaces, .lit (text "name=\""), .lazyGroup] _ _ [.lit (text "\">\n"), .eol] matched
    have newline : text "\n" <:+ text "\">\n" := by decide
    rw [Item.matchItems] at ends
    split_ifs at ends with starts
    obtain ⟨r, rfl⟩ := starts
    rw [List.drop_left, Item.matchItems] at ends
    rw [List.append_nil]
    refine List.IsSuffix.trans ?_ suffix
    split_ifs at ends with isOver
    rcases isOver with rfl | rfl
    · rwa [List.append_nil]
    · exact List.suffix_append ..
  · exact line.trans (List.suffix_append ..)

lemma CallsBlock.broken {s : Text} {rest : Option Text} {calls : List (Text × List Parameter)}
    (block : CallsBlock s rest calls) (off : rest = none ∨ rest = some []) : s = [] ∨ Broken s := by
  induction block with
  | isOver => exact Or.inl rfl
  | unclosed body => exact Or.inr (((broken_line body.line).append _).append _)
  | closed =>
    obtain rfl : _ = [] := off.elim nofun Option.some.inj
    have listed : toolCallsEndToken ∈ brokenEnds := by decide
    rw [List.append_nil]
    exact Or.inr ⟨_, listed, List.suffix_append ..⟩
  | @call s t rest call calls body block ih =>
    have ends : Broken (invokeEnd ++ t) := by
      rcases ih off with rfl | broken
      · have listed : invokeEnd ∈ brokenEnds := by decide
        rw [List.append_nil]
        exact ⟨_, listed, List.suffix_rfl⟩
      · exact broken.append _
    exact Or.inr (((ends.append _).append _).append _)

/-! ## Completions -/

/-- The text has the closing mark of each call and that of the block, and ends with the end mark. -/
def Complete (s : Text) (calls : List ToolCall) : Prop :=
  ∃ (front : Text) (bodies : List Text), bodies.length = calls.length ∧
    s = front ++ (toolCallsStartToken ++
      ((bodies.map fun body => text ">\n" ++ (invokeStart ++ (body ++ invokeEnd))).flatten ++
        (text ">\n" ++ (toolCallsEndToken ++ eosToken))))

lemma Complete.eos {s : Text} {calls : List ToolCall} (complete : Complete s calls) :
    eosToken <:+ s := by
  obtain ⟨front, bodies, -, rfl⟩ := complete
  have block : eosToken <:+ text ">\n" ++ (toolCallsEndToken ++ eosToken) :=
    (List.suffix_append ..).trans (List.suffix_append ..)
  exact block.trans
    ((List.suffix_append ..).trans ((List.suffix_append ..).trans (List.suffix_append ..)))

/-- A text with tool calls is accepted. -/
def Accepts (s : Text) (mode : ThinkingMode) (parsed : Parsed) : Prop :=
  parseMessageFromCompletionText s mode = .ok parsed ∧ toolCallsStartToken <:+: s

/-- The parser ends. With tool calls it accepts the text only if it is complete, and not if it is a
part of a longer one that is. -/
structure AcceptsWhole (s : Text) (mode : ThinkingMode) : Prop where
  ends : parseMessageFromCompletionText s mode ≠ .error .cutOff
  complete : ∀ parsed, Accepts s mode parsed → Complete s parsed.toolCalls
  cut : ∀ whole parsed, s <+: whole → s ≠ whole → Accepts whole mode parsed →
    Complete whole parsed.toolCalls → ¬ ∃ part, Accepts s mode part

/-- The text breaks off in its tool calls: behind the mark of the block or of the end of a call,
behind the first line of a call or the line of a parameter, or before the end mark. -/
def BreaksOff (s : Text) (mode : ThinkingMode) : Prop :=
  ∃ reasoning content front t calls, Front mode reasoning content front ∧
    s = front ++ (toolCallsStartToken ++ t) ∧
    (CallsBlock t none calls ∨ CallsBlock t (some []) calls)

lemma CallsBlock.append {s r : Text} {calls : List (Text × List Parameter)}
    (block : CallsBlock s (some r) calls) (more : Text) :
    CallsBlock (s ++ more) (some (r ++ more)) calls := by
  generalize eq : some r = rest at block
  induction block generalizing r with
  | isOver => cases eq
  | unclosed => cases eq
  | closed =>
    cases eq
    simp only [List.append_assoc]
    exact .closed
  | call body block ih =>
    simp only [List.append_assoc]
    exact .call body (ih eq)

lemma CallsBlock.bodies {s r : Text} {calls : List (Text × List Parameter)}
    (block : CallsBlock s (some r) calls) :
    ∃ bodies : List Text, bodies.length = calls.length ∧
      s = (bodies.map fun body => text ">\n" ++ (invokeStart ++ (body ++ invokeEnd))).flatten ++
        (text ">\n" ++ (toolCallsEndToken ++ r)) := by
  generalize eq : some r = rest at block
  induction block generalizing r with
  | isOver => cases eq
  | unclosed => cases eq
  | closed =>
    cases eq
    exact ⟨[], rfl, rfl⟩
  | @call s t rest call calls body block ih =>
    obtain ⟨bodies, length, rfl⟩ := ih eq
    refine ⟨s :: bodies, congrArg (· + 1) length, ?_⟩
    simp only [List.map_cons, List.flatten_cons, List.append_assoc]

/-! ## Reading a completion -/

lemma finishParse_free {reasoning summary s : Text} {stop : Option Text}
    {called : List ToolFunction} {parsed : Parsed}
    (ok : finishParse reasoning summary s stop called = .ok parsed) :
    Free summary ∧ Free reasoning ∧ parsed.toolCalls = toolCallsToOpenaiFormat called := by
  unfold finishParse at ok
  split_ifs at ok with ends
  split at ok
  · cases ok
  · next none =>
    cases ok
    have clear (token : Text) (listed : token ∈ forbiddenTokens) :
        ¬ (token <:+: summary ∨ token <:+: reasoning) := by
      have found := List.find?_eq_none.mp none token listed
      simpa using found
    exact ⟨fun token listed within => clear token listed (Or.inl within),
      fun token listed within => clear token listed (Or.inr within), rfl⟩

lemma parseContent_accepts {reasoning s : Text} {parsed : Parsed}
    (ok : parseContent reasoning s = .ok parsed) (marked : toolCallsStartToken <:+: s) :
    ∃ content t rest calls, Free content ∧ Free reasoning ∧
      s = content ++ (toolCallsStartToken ++ t) ∧
      firstAt toolCallsStartToken s = some content.length ∧ CallsBlock t rest calls ∧
      (rest.getD [] = [] ∨ rest.getD [] = eosToken) ∧ parsed.toolCalls.length = calls.length := by
  obtain ⟨-, body⟩ := parseContent_ok ok
  obtain ⟨first, starts⟩ : firstAt toolCallsStartToken s = some parsed.content.length ∧
      parsed.content <+: s := by
    cases body with
    | plain none eq =>
      obtain ⟨p, here⟩ := infix_iff_at.mp marked
      exact absurd here (firstAt_eq_none.mp none p)
    | calls first starts => exact ⟨first, starts⟩
  unfold parseContent at ok
  rcases read : readUntilStop s [eosToken, toolCallsStartToken] with ⟨content, stop, t⟩
  rw [read] at ok
  dsimp only at ok
  split_ifs at ok with calls plain
  · obtain rfl := calls
    obtain ⟨-, whole, -⟩ := readUntilStop_some read
    split at ok
    · cases ok
    · next after stop' called parsed' =>
      rcases read' : readUntilStop after [eosToken] with ⟨ends, stop'', left⟩
      rw [read'] at ok
      dsimp only at ok
      split_ifs at ok with nothing
      obtain rfl := not_ne_iff.mp nothing
      obtain ⟨rfl, same, -⟩ := finishParse_ok ok
      obtain ⟨free, free', count⟩ := finishParse_free ok
      obtain ⟨rest, calls, block, eq, rfl⟩ := parseCalls_block_of_ok parsed'
      have ends : after = [] ∨ after = eosToken := by
        have split := readUntilStop_split read'
        rw [List.nil_append, List.append_nil] at split
        rcases readUntilStop_matched read' with ⟨stop, listed, rfl⟩ | ⟨rfl, -⟩
        · exact Or.inr (split.trans (List.mem_singleton.mp listed))
        · exact Or.inl split
      refine ⟨content, t, rest, calls, free, free', whole, same ▸ first, block, eq ▸ ends, ?_⟩
      rw [count, toolCallsToOpenaiFormat, List.length_map, List.nil_append, List.length_map]
  · obtain rfl := not_ne_iff.mp plain
    obtain ⟨-, whole, least⟩ := readUntilStop_some read
    obtain ⟨rfl, same, -⟩ := finishParse_ok ok
    obtain ⟨here, -⟩ := firstAt_eq_some.mp first
    rw [whole, List.append_nil, same] at here
    exact absurd (here.of_append_right le_rfl) not_at_eos

lemma at_toolCalls_thinkingEnd {s : Text} {p : Nat}
    (here : At toolCallsStartToken (thinkingEndToken ++ s) p) :
    ∃ q, p = thinkingEndToken.length + q ∧ At toolCallsStartToken s q := by
  have newline : text "\n" <+: toolCallsStartToken := by decide
  have starts : At (text "\n") (thinkingEndToken ++ s) p := ⟨here.1, newline.trans here.2⟩
  have behind := starts.skip (by decide) (forall_code (by decide))
  exact ⟨p - thinkingEndToken.length, by omega, here.of_append_right behind⟩

lemma Accepts.block {s : Text} {mode : ThinkingMode} {parsed : Parsed}
    (accepts : Accepts s mode parsed) :
    ∃ reasoning content front t rest calls, Front mode reasoning content front ∧
      s = front ++ (toolCallsStartToken ++ t) ∧
      firstAt toolCallsStartToken s = some front.length ∧ CallsBlock t rest calls ∧
      (rest.getD [] = [] ∨ rest.getD [] = eosToken) ∧ parsed.toolCalls.length = calls.length := by
  obtain ⟨ok, marked⟩ := accepts
  unfold parseMessageFromCompletionText at ok
  split_ifs at ok with thinking
  · obtain rfl := thinking
    rcases read : readUntilStop s [thinkingEndToken, toolCallsStartToken] with ⟨reasoning, stop, s'⟩
    rw [read] at ok
    dsimp only at ok
    split_ifs at ok with ends
    obtain rfl := ends
    obtain ⟨-, rfl, least⟩ := readUntilStop_some read
    have marked' : toolCallsStartToken <:+: s' := by
      obtain ⟨p, here⟩ := infix_iff_at.mp marked
      have le := least toolCallsStartToken (by simp) p here
      obtain ⟨q, -, there⟩ := at_toolCalls_thinkingEnd (here.of_append_right le)
      exact infix_iff_at.mpr ⟨q, there⟩
    obtain ⟨content, t, rest, calls, free, free', rfl, first, block, isOver, count⟩ :=
      parseContent_accepts ok marked'
    refine ⟨reasoning, content, _, t, rest, calls, .thinking free' free, ?_, ?_, block, isOver,
      count⟩
    · simp only [List.append_assoc]
    · obtain ⟨here, before⟩ := firstAt_eq_some.mp first
      refine firstAt_eq_some.mpr ⟨?_, fun q lt here' => ?_⟩
      · rw [List.length_append, List.length_append]
        exact at_append_right.mpr (at_append_right.mpr here)
      · have le := least toolCallsStartToken (by simp) q here'
        obtain ⟨r, eq, there⟩ := at_toolCalls_thinkingEnd (here'.of_append_right le)
        rw [List.length_append, List.length_append] at lt
        exact before r (by omega) there
  · obtain ⟨content, t, rest, calls, free, free', rfl, first, block, isOver, count⟩ :=
      parseContent_accepts ok marked
    cases mode with
    | chat =>
      exact ⟨[], content, content, t, rest, calls, .chat free, rfl, first, block, isOver, count⟩
    | thinking => exact absurd rfl thinking

lemma Front.accepts {mode : ThinkingMode} {reasoning content front t : Text} {rest : Option Text}
    {calls : List (Text × List Parameter)} (before : Front mode reasoning content front)
    (block : CallsBlock t rest calls) (ends : rest.getD [] = [] ∨ rest.getD [] = eosToken) :
    ∃ parsed, Accepts (front ++ (toolCallsStartToken ++ t)) mode parsed := by
  have marked : toolCallsStartToken <:+: front ++ (toolCallsStartToken ++ t) :=
    infix_iff_at.mpr ⟨front.length, at_iff.mpr ⟨front, t, rfl, rfl⟩⟩
  obtain ⟨stop, read⟩ := block.parse (Nat.lt_succ_self _) none []
  cases before with
  | chat free =>
    have nothing : Free [] := by
      unfold Free
      decide
    have inner : parseMessageFromCompletionText (content ++ (toolCallsStartToken ++ t)) .chat =
        parseContent [] (content ++ (toolCallsStartToken ++ t)) := if_neg nofun
    exact ⟨_, inner.trans (parseContent_read free nothing read ends), marked⟩
  | @thinking reasoning content free free' =>
    simp only [List.append_assoc] at marked ⊢
    exact ⟨_, (parseMessage_thinking free _).trans (parseContent_read free' free read ends), marked⟩

/-! ## Which completions are accepted only as a whole -/

lemma parseMessage_ne_cutOff (s : Text) (mode : ThinkingMode) :
    parseMessageFromCompletionText s mode ≠ .error .cutOff := by
  have finish : ∀ reasoning content s stop called,
      finishParse reasoning content s stop called ≠ .error .cutOff := by
    intro reasoning content s stop called
    unfold finishParse
    split_ifs
    · split <;> nofun
    · nofun
  have inner : ∀ reasoning s, parseContent reasoning s ≠ .error .cutOff := by
    intro reasoning s
    unfold parseContent
    dsimp only
    split_ifs
    · split
      · next e failed =>
        rintro ⟨⟩
        exact parseToolCalls_ne_cutOff _ failed
      · split_ifs
        · nofun
        · exact finish _ _ _ _ _
    · nofun
    · exact finish _ _ _ _ _
  unfold parseMessageFromCompletionText
  dsimp only
  split_ifs
  · exact inner _ _
  · nofun
  · exact inner _ _

lemma BreaksOff.broken {s : Text} {mode : ThinkingMode} (off : BreaksOff s mode) : Broken s := by
  obtain ⟨_, _, front, t, calls, -, rfl, block⟩ := off
  have ends : t = [] ∨ Broken t := by
    rcases block with block | block
    · exact block.broken (Or.inl rfl)
    · exact block.broken (Or.inr rfl)
  rcases ends with rfl | broken
  · have listed : toolCallsStartToken ∈ brokenEnds := by decide
    rw [List.append_nil]
    exact ⟨_, listed, List.suffix_append ..⟩
  · exact (broken.append _).append _

lemma Accepts.whole {s : Text} {mode : ThinkingMode} {parsed : Parsed}
    (accepts : Accepts s mode parsed) (on : ¬ BreaksOff s mode) :
    ∃ front t calls, s = front ++ (toolCallsStartToken ++ t) ∧
      firstAt toolCallsStartToken s = some front.length ∧ CallsBlock t (some eosToken) calls ∧
      parsed.toolCalls.length = calls.length := by
  obtain ⟨reasoning, content, front, t, rest, calls, before, eq, first, block, ends, count⟩ :=
    accepts.block
  refine ⟨front, t, calls, eq, first, ?_, count⟩
  cases rest with
  | none => exact absurd ⟨reasoning, content, front, t, calls, before, eq, Or.inl block⟩ on
  | some r =>
    rcases ends with nil | eos
    · obtain rfl : r = [] := nil
      exact absurd ⟨reasoning, content, front, t, calls, before, eq, Or.inr block⟩ on
    · obtain rfl : r = eosToken := eos
      exact block

/-- A completion is accepted only as a whole exactly if it does not break off in its tool calls. -/
theorem whole_iff (s : Text) (mode : ThinkingMode) : AcceptsWhole s mode ↔ ¬ BreaksOff s mode := by
  constructor
  · intro whole off
    obtain ⟨_, _, front, t, calls, before, rfl, block⟩ := id off
    obtain ⟨parsed, accepts⟩ :
        ∃ parsed, Accepts (front ++ (toolCallsStartToken ++ t)) mode parsed := by
      rcases block with block | block
      · exact before.accepts block (Or.inl rfl)
      · exact before.accepts block (Or.inl rfl)
    exact off.broken.not_eos (whole.complete parsed accepts).eos
  · intro on
    refine ⟨parseMessage_ne_cutOff s mode, fun parsed accepts => ?_, ?_⟩
    · obtain ⟨front, t, calls, rfl, -, block, count⟩ := accepts.whole on
      obtain ⟨bodies, length, rfl⟩ := block.bodies
      exact ⟨front, bodies, length.trans count.symm, rfl⟩
    · rintro whole parsed starts other accepts' - ⟨part, accepts⟩
      obtain ⟨front, t, calls, eq, first, block, -⟩ := accepts.whole on
      obtain ⟨_, _, front', t', rest', calls', -, eq', first', block', ends', -⟩ := accepts'.block
      -- both have the mark of the tool calls at the same place
      have same : front.length = front'.length :=
        Option.some.inj ((firstAt_append first starts).symm.trans first')
      obtain ⟨more, rfl⟩ := starts
      rw [eq] at eq'
      simp only [List.append_assoc] at eq'
      obtain ⟨-, tails⟩ := List.append_inj eq' same
      obtain rfl := List.append_cancel_left tails
      -- and the loops end at the same place, behind which the longer one has more
      obtain ⟨stop, read⟩ := (block.append more).parse (Nat.lt_succ_self _) none []
      obtain ⟨stop', read'⟩ := block'.parse (Nat.lt_succ_self _) none []
      have left : eosToken ++ more = rest'.getD [] :=
        congrArg Prod.fst (Except.ok.inj (read.symm.trans read'))
      have none : more = [] := by
        rw [← left] at ends'
        rcases ends' with nil | eos
        · exact (List.append_eq_nil_iff.mp nil).2
        · exact List.append_right_eq_self.mp eos
      rw [none, List.append_nil] at other
      exact other rfl

/-- A call whose text ends behind its first line. -/
def argumentless : Text :=
  toolCallsStartToken ++ text ">\n" ++ invokeStart ++ text " name=\"delete\">\n"

/-- It is accepted as a call without arguments. -/
theorem accepted_partial : ¬ AcceptsWhole argumentless .chat := by
  intro whole
  have accepted : parseMessageFromCompletionText argumentless .chat =
      .ok ⟨[], [], [{ function := { name := text "delete", arguments := text "\x7b\x7d" } }]⟩ := by
    decide +kernel
  have marked : toolCallsStartToken <:+: argumentless := ⟨[], _, rfl⟩
  exact absurd (whole.complete _ ⟨accepted, marked⟩).eos (by decide)

end PocketMoE.Encoding
