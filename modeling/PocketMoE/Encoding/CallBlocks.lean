import PocketMoE.Encoding.Parse
import PocketMoE.Lib.JsonReads

/-!
# Blocks of tool calls

What `render_message` writes of tool calls is what `parse_tool_calls` reads. Between the marks of a
block the DSML token does not stand (`clear_paramContent`, `clear_nameContent`), so each loop reads up
to the next mark (`parseParameters_block`, `parseCalls_block`). The arguments are JSON: the text of a
value is read as this value, and has the token in its strings only.
-/

namespace PocketMoE.Encoding
open PocketMoE.Lib

variable {R : Type} {py : Builtins R}

/-! ## Marks -/

lemma dsmlToken_ne_nil : dsmlToken ≠ [] := by decide

lemma mark_dsml : Json.Mark dsmlToken where
  plain := forall_code (by decide)
  first := ⟨code '｜', text "DSML｜", by decide⟩

lemma clear_nil : ¬ dsmlToken <:+: [] := mark_dsml.not_nil

lemma clear_append {l sep m : Text} (nonempty : sep ≠ []) (outside : sep.all (· ∉ dsmlToken))
    (left : ¬ dsmlToken <:+: l) (right : ¬ dsmlToken <:+: m) : ¬ dsmlToken <:+: l ++ (sep ++ m) := by
  have each : ∀ c ∈ sep, c ∉ dsmlToken := forall_code outside
  obtain ⟨c, rest, rfl⟩ := List.exists_cons_of_ne_nil nonempty
  obtain ⟨first, later⟩ := List.forall_mem_cons.mp each
  exact not_infix_separator first left (not_infix_skip dsmlToken_ne_nil later right)

lemma clear_text {s : Text} (outside : s.all (· ∉ dsmlToken)) : ¬ dsmlToken <:+: s := by
  have clear := not_infix_skip dsmlToken_ne_nil (forall_code outside) clear_nil
  rwa [List.append_nil] at clear

/-- Marks that begin with a character that they have once, and have the DSML token. -/
def Marks (c : Code) (stops : List Text) : Prop :=
  ∀ stop ∈ stops, stop.head? = some c ∧ c ∉ stop.tail ∧ dsmlToken <:+: stop ∧
    ∀ stop' ∈ stops, stop' <+: stop ∨ stop <+: stop' → stop' = stop

lemma readUntilStop_marks {c : Code} {stops : List Text} (marks : Marks c stops)
    {content stop rest : Text} (listed : stop ∈ stops) (clear : ¬ dsmlToken <:+: content) :
    readUntilStop (content ++ (stop ++ rest)) stops = (content, some stop, rest) := by
  refine @readUntilStop_first stops content stop rest c listed ?_ ?_ ?_
  · exact fun stop' listed' => ⟨(marks stop' listed').1, (marks stop' listed').2.1⟩
  · exact (marks stop listed).2.2.2
  · exact fun stop' listed' within => clear ((marks stop' listed').2.2.1.trans within)

lemma marks_invoke : Marks (code '<') [invokeStart, toolCallsEndToken] := by
  unfold Marks
  decide

lemma marks_parameter : Marks (code '<') [parameterStart, invokeEnd] := by
  unfold Marks
  decide

lemma marks_parameterEnd : Marks (code '/') [parameterEnd] := by
  unfold Marks
  decide

/-! ## Parameters -/

/-- What is written of a parameter between its marks. -/
def paramContent (param : Parameter) : Text :=
  text " name=\"" ++ (param.name ++ (text "\" string=\"" ++ (param.string ++
    (text "\">" ++ (param.value ++ text "<")))))

/-- A parameter that can be read back. -/
structure Parameter.Plain (param : Parameter) : Prop where
  quote : code '"' ∉ param.name
  name : ¬ dsmlToken <:+: param.name
  value : ¬ dsmlToken <:+: param.value
  string : param.string ∈ [text "true", text "false"]

lemma clear_paramContent {param : Parameter} (plain : param.Plain) :
    ¬ dsmlToken <:+: paramContent param := by
  have string : ¬ dsmlToken <:+: param.string := by
    have both : ∀ s ∈ [text "true", text "false"], ¬ dsmlToken <:+: s := by decide
    exact both _ plain.string
  unfold paramContent
  refine not_infix_skip dsmlToken_ne_nil (forall_code (by decide)) ?_
  refine clear_append (by decide) (by decide) plain.name ?_
  refine clear_append (by decide) (by decide) string ?_
  exact not_infix_separator (by decide) plain.value clear_nil

lemma lazyGroup_quote {group t s : Text} {items : List Item} {groups : List Text}
    (quote : code '"' ∉ group) (first : t.head? = some (code '"'))
    (rest : Item.matchItems items s = some groups) :
    Item.matchItems (.lazyGroup :: .lit t :: items) (group ++ (t ++ s)) = some (group :: groups) := by
  refine Item.lazyGroup_eq (Item.matchItems_lit.trans rest) fun pre post eq nonempty => ?_
  refine Item.matchItems_lit_none fun starts => quote ?_
  obtain ⟨c, post, rfl⟩ := List.exists_cons_of_ne_nil nonempty
  obtain ⟨t, rfl⟩ := List.head?_eq_some_iff.mp first
  rw [List.cons_append, List.cons_prefix_cons] at starts
  rw [eq, starts.1]
  exact List.mem_append_right _ List.mem_cons_self

lemma oneOf_eq {string s : Text} {items : List Item} {groups : List Text}
    (listed : string ∈ [text "true", text "false"])
    (rest : Item.matchItems items s = some groups) :
    Item.matchItems (.oneOf [text "true", text "false"] :: items) (string ++ s) =
      some (string :: groups) := by
  rw [Item.matchItems]
  simp only [List.mem_cons, List.not_mem_nil, or_false] at listed
  rcases listed with rfl | rfl
  · rw [Item.oneOfThen, if_pos (List.prefix_append ..), List.drop_left, rest]
  · have other : ¬ text "true" <+: text "false" ++ s := by
      intro starts
      exact absurd (List.cons_prefix_cons.mp starts).1 (by decide)
    rw [Item.oneOfThen, if_neg other, Item.oneOfThen, if_pos (List.prefix_append ..), List.drop_left,
      rest]

lemma lazyGroup_end (value : Text) :
    Item.matchItems [.lazyGroup, .lit (text "<"), .eol] (value ++ text "<") = some [value] := by
  refine Item.lazyGroup_eq (by decide) fun pre post _ nonempty => ?_
  obtain ⟨c, post, rfl⟩ := List.exists_cons_of_ne_nil nonempty
  rw [Item.matchItems]
  split_ifs with starts
  · have left : ((c :: post) ++ text "<").drop (text "<").length = post ++ text "<" := rfl
    have last : (post ++ text "<").getLast? = some (code '<') := List.getLast?_concat
    rw [left, Item.matchItems, if_neg]
    rintro (nil | newline)
    · rw [nil] at last
      cases last
    · rw [newline] at last
      exact absurd last (by decide)
  · rfl

lemma matchItems_parameter {param : Parameter} (plain : param.Plain) :
    Item.matchItems parameterPattern (paramContent param) =
      some [param.name, param.string, param.value] := by
  unfold parameterPattern paramContent
  refine Item.matchItems_lit.trans ?_
  refine lazyGroup_quote plain.quote (by decide) ?_
  refine oneOf_eq plain.string ?_
  exact Item.matchItems_lit.trans (lazyGroup_end param.value)

lemma matchItems_toolName {name ending : Text} (quote : code '"' ∉ name)
    (ends : ending = [] ∨ ending = [code '\n']) :
    Item.matchItems toolNamePattern (text " name=\"" ++ (name ++ (text "\">\n" ++ ending))) =
      some [name] := by
  have eol : Item.matchItems [.eol] ending = some [] := by
    rw [Item.matchItems, if_pos ends]
    rfl
  refine Item.spaces_eq (by decide) (by decide) ?_
  refine Item.matchItems_lit.trans ?_
  exact lazyGroup_quote quote (by decide) eol

/-- What is written from the first mark of the parameters on. -/
def block (after : Text) : List Parameter → Text
  | [] => invokeEnd ++ after
  | param :: params =>
    parameterStart ++ (paramContent param ++ (parameterEnd ++ (text ">\n" ++ block after params)))

/-- The first mark of the parameters, and what stands behind it. -/
def opening (after : Text) : List Parameter → Text × Text
  | [] => (invokeEnd, after)
  | param :: params =>
    (parameterStart, paramContent param ++ (parameterEnd ++ (text ">\n" ++ block after params)))

lemma block_eq (after : Text) (params : List Parameter) :
    block after params = (opening after params).1 ++ (opening after params).2 := by
  cases params with
  | nil => rfl
  | cons param params => rfl

lemma readUntilStop_block (after : Text) (params : List Parameter) {content : Text}
    (clear : ¬ dsmlToken <:+: content) :
    readUntilStop (content ++ block after params) [parameterStart, invokeEnd] =
      (content, some (opening after params).1, (opening after params).2) := by
  rw [block_eq]
  refine readUntilStop_marks marks_parameter ?_ clear
  cases params with
  | nil => exact .tail _ List.mem_cons_self
  | cons param params => exact List.mem_cons_self

lemma length_after_le (after : Text) (params : List Parameter) :
    after.length ≤ (opening after params).2.length := by
  induction params with
  | nil => exact le_rfl
  | cons param params ih =>
    rw [opening, block_eq]
    simp only [List.length_append]
    omega

lemma length_params_le (after : Text) (params : List Parameter) :
    params.length ≤ (opening after params).2.length := by
  induction params with
  | nil => exact Nat.zero_le _
  | cons param params ih =>
    rw [opening, block_eq]
    simp only [List.length_append, List.length_cons, length_lineEnd]
    omega

lemma parseParameters_block {after : Text} {params : List Parameter}
    (plain : ∀ param ∈ params, param.Plain) {fuel : Nat} (enough : params.length < fuel)
    (read : List Parameter) (nodup : ((read ++ params).map (·.name)).Nodup) :
    parseParameters fuel (opening after params).2 (some (opening after params).1) read =
      .ok (after, some invokeEnd, read ++ params) := by
  induction params generalizing fuel read with
  | nil =>
    obtain ⟨fuel, rfl⟩ : ∃ n, fuel = n + 1 := ⟨fuel - 1, by omega⟩
    have other : ¬ some invokeEnd = some parameterStart := by decide
    rw [opening, parseParameters, if_neg other, List.append_nil]
  | cons param params ih =>
    obtain ⟨here, later⟩ := List.forall_mem_cons.mp plain
    obtain ⟨fuel, rfl⟩ : ∃ n, fuel = n + 1 := ⟨fuel - 1, by omega⟩
    have content := @readUntilStop_marks _ _ marks_parameterEnd (paramContent param) parameterEnd
      (text ">\n" ++ block after params) List.mem_cons_self (clear_paramContent here)
    have clear : ¬ dsmlToken <:+: text ">\n" := clear_text (by decide)
    have behind := readUntilStop_block after params clear
    have fresh : param.name ∉ read.map (·.name) := by
      rw [List.map_append, List.nodup_append'] at nodup
      exact fun member => nodup.2.2 member List.mem_cons_self
    rw [opening, parseParameters, if_pos rfl, content]
    dsimp only
    rw [matchItems_parameter here]
    dsimp only
    rw [if_neg fresh, behind]
    dsimp only
    rw [if_neg (not_not.mpr rfl)]
    have next := ih later (Nat.lt_of_succ_lt_succ enough) (read ++ [param])
    rw [List.append_assoc] at next
    exact next nodup

/-! ## Calls -/

/-- What is written of a call up to the first mark of its parameters. -/
def nameContent (name : Text) (params : List Parameter) : Text :=
  text " name=\"" ++ (name ++ (text "\">\n" ++ if params = [] then [code '\n'] else []))

/-- What is written from the first mark of the calls on. -/
def callsBlock (after : Text) : List (Text × List Parameter) → Text
  | [] => toolCallsEndToken ++ after
  | (name, params) :: calls =>
    invokeStart ++ (nameContent name params ++ block (text ">\n" ++ callsBlock after calls) params)

/-- A call that can be read back. -/
structure PlainCall (call : Text × List Parameter) : Prop where
  quote : code '"' ∉ call.1
  name : ¬ dsmlToken <:+: call.1
  params : ∀ param ∈ call.2, param.Plain
  nodup : (call.2.map (·.name)).Nodup

lemma clear_nameContent {call : Text × List Parameter} (plain : PlainCall call) :
    ¬ dsmlToken <:+: nameContent call.1 call.2 := by
  have ending : ¬ dsmlToken <:+: if call.2 = [] then [code '\n'] else [] := by
    split_ifs
    · exact clear_text (by decide)
    · exact clear_nil
  refine not_infix_skip dsmlToken_ne_nil (forall_code (by decide)) ?_
  exact clear_append (by decide) (by decide) plain.name ending

lemma length_calls_le (after : Text) (calls : List (Text × List Parameter)) :
    calls.length ≤ (callsBlock after calls).length := by
  induction calls with
  | nil => exact Nat.zero_le _
  | cons call calls ih =>
    have mark : 0 < invokeStart.length := by decide
    obtain ⟨name, params⟩ := call
    rw [callsBlock, block_eq]
    have le : (text ">\n" ++ callsBlock after calls).length ≤
        (opening (text ">\n" ++ callsBlock after calls) params).2.length := length_after_le ..
    simp only [List.length_append, List.length_cons] at le ⊢
    omega

lemma parseCalls_block {after : Text} {calls : List (Text × List Parameter)}
    (plain : ∀ call ∈ calls, PlainCall call) {fuel : Nat} (enough : calls.length < fuel)
    (stopToken : Option Text) (read : List ToolFunction) :
    parseCalls fuel (text ">\n" ++ callsBlock after calls) stopToken read =
      .ok (after, some toolCallsEndToken,
        read ++ calls.map fun call => decodeDsmlToArguments call.1 call.2) := by
  have some : ∀ s, text ">\n" ++ s ≠ [] := fun s => by
    rw [show text ">\n" = [code '>', code '\n'] by decide]
    rintro ⟨⟩
  have clear : ¬ dsmlToken <:+: text ">\n" := clear_text (by decide)
  induction calls generalizing fuel stopToken read with
  | nil =>
    obtain ⟨fuel, rfl⟩ : ∃ n, fuel = n + 1 := ⟨fuel - 1, by omega⟩
    have ends := @readUntilStop_marks _ _ marks_invoke (text ">\n") toolCallsEndToken after
      (.tail _ List.mem_cons_self) clear
    rw [callsBlock, parseCalls, if_neg (some _), ends]
    dsimp only
    rw [if_neg (not_not.mpr rfl), if_pos rfl, List.map_nil, List.append_nil]
  | cons call calls ih =>
    obtain ⟨name, params⟩ := call
    obtain ⟨here, later⟩ := List.forall_mem_cons.mp plain
    obtain ⟨fuel, rfl⟩ : ∃ n, fuel = n + 1 := ⟨fuel - 1, by omega⟩
    have start := @readUntilStop_marks _ _ marks_invoke (text ">\n") invokeStart
      (nameContent name params ++ block (text ">\n" ++ callsBlock after calls) params)
      List.mem_cons_self clear
    have named := readUntilStop_block (text ">\n" ++ callsBlock after calls) params
      (clear_nameContent here)
    have ending : (if params = [] then [code '\n'] else []) = [] ∨
        (if params = [] then [code '\n'] else []) = [code '\n'] := by
      split_ifs
      · exact Or.inr rfl
      · exact Or.inl rfl
    rw [callsBlock, parseCalls, if_neg (some _), start]
    dsimp only
    rw [if_neg (not_not.mpr rfl), if_neg (by decide), if_neg (by rintro ⟨⟩), named]
    dsimp only
    rw [nameContent, matchItems_toolName here.quote ending]
    dsimp only
    rw [parseParameters_block here.params (Nat.lt_succ_of_le (length_params_le _ _)) [] here.nodup]
    dsimp only
    rw [ih later (Nat.lt_of_succ_lt_succ enough), List.map_cons, List.append_assoc]
    rfl

/-! ## What is written -/

/-- What is written for a member of the arguments. -/
def parameter (py : Builtins R) (member : Text × Json R) : Parameter :=
  match member.2 with
  | .str s => ⟨member.1, s, text "true"⟩
  | v => ⟨member.1, toJson py v, text "false"⟩

lemma parameter_name (member : Text × Json R) : (parameter py member).name = member.1 := by
  obtain ⟨key, v⟩ := member
  cases v <;> rfl

lemma encodeParameter_eq (key : Text) (v : Json R) :
    encodeParameter py key v = parameterStart ++
      (paramContent (parameter py (key, v)) ++ (parameterEnd ++ text ">")) := by
  have opens : text "parameter name=\"" = text "parameter" ++ text " name=\"" := by decide
  have closes : text "</" = text "<" ++ text "/" := by decide
  have ends : text "parameter>" = text "parameter" ++ text ">" := by decide
  unfold encodeParameter parameterStart parameterEnd paramContent
  rw [opens, closes, ends]
  cases v <;> simp only [parameter, List.append_assoc]

lemma decodeValue_parameter (key : Text) (v : Json R) :
    decodeValue (parameter py (key, v)) =
      Json.dumpsStr key ++ (text ": " ++ Json.dumps py.floats v) := by
  have other : text "false" ≠ text "true" := by decide
  rw [decodeValue, parameter_name, List.append_assoc]
  cases v with
  | str s => rw [parameter, if_pos rfl, Json.dumps]
  | _ =>
    rw [← toJson]
    exact congrArg _ (congrArg _ (if_neg other))

lemma decodeDsmlToArguments_parameter (name : Text) (members : Dict R) :
    decodeDsmlToArguments name (members.map (parameter py)) =
      { name := name, arguments := toJson py (.obj members) } := by
  have values : (members.map (parameter py)).map decodeValue =
      Json.dumpsMembers py.floats members := by
    induction members with
    | nil => rfl
    | cons member members ih =>
      obtain ⟨key, v⟩ := member
      rw [List.map_cons, List.map_cons, decodeValue_parameter, ih, Json.dumpsMembers]
  rw [decodeDsmlToArguments, values, toJson, Json.dumps, List.append_assoc]

lemma intercalate_parameters (after : Text) (members : Dict R) :
    (text "\n").intercalate (members.map fun member => encodeParameter py member.1 member.2) ++
        (text "\n" ++ (invokeEnd ++ after)) =
      (if members.map (parameter py) = [] then [code '\n'] else []) ++
        block after (members.map (parameter py)) := by
  have line : text ">\n" = text ">" ++ text "\n" := by decide
  have newline : text "\n" = [code '\n'] := by decide
  induction members with
  | nil => rw [List.map_nil, List.map_nil, if_pos rfl, List.intercalate_nil, newline]; rfl
  | cons member members ih =>
    rw [List.map_cons, List.map_cons, if_neg (List.cons_ne_nil _ _), List.nil_append, block,
      encodeParameter_eq, line]
    cases members with
    | nil =>
      rw [List.map_nil, List.map_nil, List.intercalate_singleton, block]
      simp only [List.append_assoc]
    | cons member' members =>
      rw [List.map_cons, List.map_cons, if_neg (List.cons_ne_nil _ _), List.nil_append] at ih
      rw [List.map_cons, List.map_cons, List.intercalate_cons_cons, ← ih]
      simp only [List.append_assoc]

lemma block_append (after more : Text) (params : List Parameter) :
    block after params ++ more = block (after ++ more) params := by
  induction params with
  | nil => rw [block, block, List.append_assoc]
  | cons param params ih =>
    rw [block, block, ← ih]
    simp only [List.append_assoc]

/-- What is written for a call. -/
def callOf (py : Builtins R) (function : ToolFunction) : Text × List Parameter :=
  match Json.loads py.floats function.arguments with
  | some (.obj members) => (function.name, members.map (parameter py))
  | _ => (function.name, [])

/-- The text of a call. -/
def callText (call : Text × List Parameter) : Text :=
  invokeStart ++ (nameContent call.1 call.2 ++ block (text ">") call.2)

lemma encodeToolCall_eq {function : ToolFunction} {members : Dict R}
    (read : Json.loads py.floats function.arguments = some (.obj members)) :
    encodeToolCall py function = .ok (callText (callOf py function)) := by
  have opens : text "invoke name=\"" = text "invoke" ++ text " name=\"" := by decide
  have closes : text "\n</" = text "\n" ++ text "</" := by decide
  have ends : text "invoke>" = text "invoke" ++ text ">" := by decide
  have args := @intercalate_parameters R py (text ">") members
  rw [encodeToolCall, encodeArgumentsToDsml, read, callOf, read]
  dsimp only
  rw [Except.map, callText, nameContent, opens, closes, ends]
  simp only [List.append_assoc]
  rw [← args, invokeStart, invokeEnd]
  simp only [List.append_assoc]

lemma intercalate_calls (after : Text) {calls : List (Text × List Parameter)} (some : calls ≠ []) :
    (text "\n").intercalate (calls.map callText) ++ (text "\n" ++ (toolCallsEndToken ++ after)) =
      callsBlock after calls := by
  have line : text ">\n" = text ">" ++ text "\n" := by decide
  induction calls with
  | nil => exact absurd rfl some
  | cons call calls ih =>
    cases calls with
    | nil =>
      rw [List.map_cons, List.map_nil, List.intercalate_singleton, callText, callsBlock, callsBlock,
        line, List.append_assoc, List.append_assoc, block_append]
      simp only [List.append_assoc]
    | cons call' calls =>
      rw [List.map_cons, List.map_cons, List.intercalate_cons_cons, callsBlock,
        ← ih (List.cons_ne_nil _ _), callText, line, List.map_cons]
      simp only [List.append_assoc]
      rw [block_append]

end PocketMoE.Encoding
