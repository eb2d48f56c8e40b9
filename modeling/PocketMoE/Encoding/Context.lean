import PocketMoE.Encoding.Prefix

/-!
# A conversation is encoded behind its context

`encode_messages` with a context is meant to go on where the prompt of the context ends. It filters
the context by itself and the whole conversation, and renders as many messages as the two results
differ by. The filters agree on the context (`length_leftOf`) unless a question follows that drops a
message which the context by itself keeps, being behind its last user message. Then the cut moves, and
the first of the new messages are left out (`contextLaw_iff`).
-/

namespace PocketMoE.Encoding
open PocketMoE.Lib

variable {R : Type}

/-! ## What is rendered -/

/-- The context and the messages, merged and with sorted tool results. -/
def preprocess (messages context : List (Message R)) : List (Message R) × List (Message R) :=
  (if context = [] then [] else sortToolResultsByCallOrder (mergeToolMessages context),
    (sortToolResultsByCallOrder (context ++ mergeToolMessages messages)).drop context.length)

/-- `effective_drop_thinking`. -/
def effectiveDropThinking (settings : Settings) (fullMessages : List (Message R)) : Bool :=
  settings.dropThinking && !fullMessages.any (!·.tools.isEmpty)

/-- Messages are dropped. -/
def Drops (settings : Settings) (fullMessages : List (Message R)) : Prop :=
  settings.thinkingMode = .thinking ∧ effectiveDropThinking settings fullMessages

instance (settings : Settings) (fullMessages : List (Message R)) :
    Decidable (Drops settings fullMessages) :=
  inferInstanceAs (Decidable (_ ∧ _))

/-- `full_messages`, `context_len` and `num_to_render`. -/
structure Plan (R : Type) where
  fullMessages : List (Message R)
  contextLen : Nat
  numToRender : Nat

/-- What `encode_messages` finds before it renders. -/
def plan (settings : Settings) (messages context : List (Message R)) : Plan R :=
  let (context, messages) := preprocess messages context
  let fullMessages := context ++ messages
  if Drops settings fullMessages then
    let dropped := dropThinkingMessages fullMessages
    let numToRender := dropped.length - (dropThinkingMessages context).length
    ⟨dropped, dropped.length - numToRender, numToRender⟩
  else ⟨fullMessages, context.length, messages.length⟩

/-- The messages that are rendered. -/
def Plan.rendered (p : Plan R) : List (Message R) :=
  (p.fullMessages.drop p.contextLen).take p.numToRender

/-- Some messages, rendered. -/
def renderSlice (py : Builtins R) (settings : Settings) (drop : Bool)
    (fullMessages : List (Message R)) (start number : Nat) : Except EncodingError Text := do
  let parts ← (List.range number).mapM fun idx =>
    renderMessage py (idx + start) fullMessages settings.thinkingMode drop settings.reasoningEffort
  return parts.flatten

lemma encodeMessages_plan (py : Builtins R) (settings : Settings)
    (messages context : List (Message R)) :
    encodeMessages py settings messages context =
      let (before, after) := preprocess messages context
      let p := plan settings messages context
      ((if settings.addDefaultBosToken ∧ before.length = 0 then bosToken else []) ++ ·) <$>
        renderSlice py settings (effectiveDropThinking settings (before ++ after)) p.fullMessages
          p.contextLen p.numToRender := by
  unfold encodeMessages plan renderSlice preprocess Drops effectiveDropThinking
  dsimp only
  split_ifs
  all_goals
    dsimp only
    cases List.mapM (m := Except EncodingError) _ (List.range _) with
    | error e => rfl
    | ok parts => rfl

/-! ## The messages that survive -/

/-- What `_drop_thinking_messages` leaves of a message in its place. -/
def leftOf (lastUserIdx : Int) (entry : Message R × Nat) : Option (Message R) :=
  if entry.1.role ∈ [.user, .system, .tool, .latestReminder, .directSearchResults] ∨
      lastUserIdx ≤ entry.2 then some entry.1
  else if entry.1.role = .assistant then some { entry.1 with reasoningContent := [] }
  else none

/-- What survives of some messages of a conversation, given with their places. -/
def survivors (settings : Settings) (fullMessages : List (Message R))
    (part : List (Message R × Nat)) : List (Message R) :=
  if Drops settings fullMessages then part.filterMap (leftOf (findLastUserIndex fullMessages))
  else part.map Prod.fst

/-- The conversation of a context and messages, with the number of the messages of the context. -/
def wholeConversation (messages context : List (Message R)) : List (Message R) × Nat :=
  ((preprocess (context ++ messages) []).2, (mergeToolMessages context).length)

/-- What survives of the context in the whole conversation. -/
def contextSurvivors (settings : Settings) (messages context : List (Message R)) :
    List (Message R) :=
  let (whole, number) := wholeConversation messages context
  survivors settings whole (whole.zipIdx.take number)

/-- What survives of the messages in the whole conversation. -/
def messageSurvivors (settings : Settings) (messages context : List (Message R)) :
    List (Message R) :=
  let (whole, number) := wholeConversation messages context
  survivors settings whole (whole.zipIdx.drop number)

/-- The start of the prompt of the whole conversation: what survives of the context, rendered. -/
def renderContext (py : Builtins R) (settings : Settings) (messages context : List (Message R)) :
    Except EncodingError Text :=
  let whole := (wholeConversation messages context).1
  ((if settings.addDefaultBosToken then bosToken else []) ++ ·) <$>
    renderSlice py settings (effectiveDropThinking settings whole)
      (plan settings (context ++ messages) []).fullMessages 0
      (contextSurvivors settings messages context).length

/-- With a context, `encode_messages` renders what survives of the messages and nothing else, and
its text is what follows the context in the prompt of the whole conversation. -/
structure ContextLaw (py : Builtins R) (settings : Settings)
    (messages context : List (Message R)) : Prop where
  rendered : (plan settings messages context).rendered =
    messageSurvivors settings messages context
  suffix : encodeMessages py settings (context ++ messages) [] = do
    let start ← renderContext py settings messages context
    let rest ← encodeMessages py settings messages context
    return start ++ rest

/-- A message of this role counts as a question once tool results are merged. -/
def Role.asks : Role → Bool
  | .user => true
  | .developer => true
  | .tool => true
  | _ => false

/-- A message of this role is dropped before the last user message. -/
def Role.fades : Role → Bool
  | .developer => true
  | .other _ => true
  | _ => false

/-- Some message that a later question drops is not followed by one. -/
def Unanswered (messages : List (Message R)) : Prop :=
  ∃ earlier msg later, messages = earlier ++ msg :: later ∧ msg.role.fades ∧
    ∀ next ∈ later, ¬ next.role.asks

section
variable {messages context l m : List (Message R)}

lemma unanswered_concat (msg : Message R) :
    Unanswered (l ++ [msg]) ↔ msg.role.fades ∨ ¬ msg.role.asks ∧ Unanswered l := by
  constructor
  · rintro ⟨earlier, found, later, split, fades, none⟩
    rcases List.eq_nil_or_concat later with rfl | ⟨later, last, rfl⟩
    · obtain ⟨-, same⟩ := List.append_inj' split rfl
      cases same
      exact Or.inl fades
    · rw [List.concat_eq_append, ← List.cons_append, ← List.append_assoc] at split
      rw [List.concat_eq_append] at none
      obtain ⟨rest, same⟩ := List.append_inj' split rfl
      cases same
      exact Or.inr ⟨none _ (List.mem_append_right _ (List.mem_singleton_self _)), earlier, found,
        later, rest, fades, fun next old => none _ (List.mem_append_left _ old)⟩
  · rintro (fades | ⟨quiet, earlier, found, later, rfl, fades, none⟩)
    · exact ⟨l, msg, [], rfl, fades, List.forall_mem_nil _⟩
    · refine ⟨earlier, found, later ++ [msg], ?_, fades, fun next old => ?_⟩
      · rw [List.append_assoc, List.cons_append]
      · rcases List.mem_append.mp old with old | last
        · exact none next old
        · rwa [List.mem_singleton.mp last]

lemma mergeToolMessages_concat (messages : List (Message R)) (msg : Message R) :
    mergeToolMessages (messages ++ [msg]) =
      (mergeStep (mergeToolMessages messages).reverse msg).reverse := by
  rw [mergeToolMessages, List.foldl_append, mergeToolMessages, List.reverse_reverse]
  rfl

/-- The new last message is a user message, added or in the place of one. -/
def Extends (merged merged' : List (Message R)) : Prop :=
  ∃ last earlier, merged' = last :: earlier ∧ last.role = .user ∧
    (merged = earlier ∨ ∃ old, merged = old :: earlier ∧ old.role = .user)

lemma appendBlock_extends (block : Block R) (takes : Message R → Bool) {newMsg : Message R}
    (user : newMsg.role = .user) (merged : List (Message R)) :
    Extends merged (appendBlock block takes newMsg merged) := by
  cases merged with
  | nil => exact ⟨newMsg, [], rfl, user, Or.inl rfl⟩
  | cons last earlier =>
    rw [appendBlock]
    cases last.contentBlocks with
    | none => exact ⟨newMsg, _, rfl, user, Or.inl rfl⟩
    | some blocks =>
      dsimp only
      split_ifs with takes
      · exact ⟨_, earlier, rfl, takes.1, Or.inr ⟨last, rfl, takes.1⟩⟩
      · exact ⟨newMsg, _, rfl, user, Or.inl rfl⟩

lemma mergeStep_cases (merged : List (Message R)) (msg : Message R) :
    (msg.role ≠ .user ∧ msg.role ≠ .tool ∧ mergeStep merged msg = msg :: merged) ∨
      (msg.role = .user ∨ msg.role = .tool) ∧ Extends merged (mergeStep merged msg) := by
  unfold mergeStep
  cases role : msg.role with
  | tool => exact Or.inr ⟨Or.inr rfl, appendBlock_extends _ _ rfl _⟩
  | user => exact Or.inr ⟨Or.inl rfl, appendBlock_extends _ _ rfl _⟩
  | _ => exact Or.inl ⟨nofun, nofun, rfl⟩

lemma Role.asks_eq {role : Role} (other : role ≠ .tool) : role.asks = role.isUser := by
  cases role with
  | tool => exact absurd rfl other
  | _ => rfl

lemma unanswered_merge (messages : List (Message R)) :
    Unanswered (mergeToolMessages messages) ↔ Unanswered messages := by
  induction messages using List.reverseRecOn with
  | nil => rfl
  | append_singleton messages msg ih =>
    rw [mergeToolMessages_concat, unanswered_concat]
    rcases mergeStep_cases (mergeToolMessages messages).reverse msg with
      ⟨-, -, eq⟩ | ⟨role, last, earlier, eq, user, -⟩
    · rw [eq, List.reverse_cons, List.reverse_reverse, unanswered_concat, ih]
    · rw [eq, List.reverse_cons, unanswered_concat, user]
      rcases role with role | role
      · simp [role, Role.fades, Role.asks]
      · simp [role, Role.fades, Role.asks]

lemma asks_merge (messages : List (Message R)) :
    (∃ msg ∈ mergeToolMessages messages, msg.role.isUser) ↔ ∃ msg ∈ messages, msg.role.asks := by
  induction messages using List.reverseRecOn with
  | nil => simp [mergeToolMessages]
  | append_singleton messages msg ih =>
    rw [mergeToolMessages_concat]
    rcases mergeStep_cases (mergeToolMessages messages).reverse msg with
      ⟨-, other, eq⟩ | ⟨role, last, earlier, eq, user, -⟩
    · rw [eq]
      have same := Role.asks_eq other
      simp only [List.mem_reverse, List.mem_cons, List.mem_append, List.not_mem_nil, or_and_right,
        exists_or, exists_eq_left, ih, same, or_false]
      exact or_comm
    · rw [eq]
      refine iff_of_true ⟨last, ?_, ?_⟩ ⟨msg, ?_, ?_⟩
      · exact List.mem_reverse.mpr (List.mem_cons_self ..)
      · rw [user]
        rfl
      · exact List.mem_append_right _ (List.mem_singleton_self _)
      · rcases role with role | role
        · rw [role]
          rfl
        · rw [role]
          rfl

lemma tool_merge (messages : List (Message R)) :
    ∀ msg ∈ mergeToolMessages messages, msg.role ≠ .tool := by
  induction messages using List.reverseRecOn with
  | nil => exact List.forall_mem_nil _
  | append_singleton messages msg ih =>
    rw [mergeToolMessages_concat]
    rcases mergeStep_cases (mergeToolMessages messages).reverse msg with
      ⟨-, other, eq⟩ | ⟨-, last, earlier, eq, user, before⟩
    · rw [eq, List.reverse_cons, List.reverse_reverse]
      exact List.forall_mem_append.mpr ⟨ih, List.forall_mem_singleton.mpr other⟩
    · rw [eq, List.reverse_cons]
      refine List.forall_mem_append.mpr ⟨fun old mem => ih old ?_, ?_⟩
      · rw [← List.mem_reverse]
        rcases before with same | ⟨old', same, -⟩
        · rw [same]
          exact List.mem_reverse.mp mem
        · rw [same]
          exact List.mem_cons_of_mem _ (List.mem_reverse.mp mem)
      · rw [List.forall_mem_singleton, user]
        nofun

lemma orderAfter_concat (order : OrderedDict Text Nat) (messages : List (Message R))
    (msg : Message R) :
    orderAfter order (messages ++ [msg]) = (sortStep (orderAfter order messages) msg).1 := by
  rw [orderAfter, List.foldl_append]
  rfl

lemma sortStep_other {msg : Message R} (other : msg.role ≠ .assistant)
    (order : OrderedDict Text Nat) : (sortStep order msg).1 = order := by
  unfold sortStep
  cases role : msg.role with
  | assistant => exact absurd role other
  | _ => rfl

lemma orderAfter_merge (order : OrderedDict Text Nat) (messages : List (Message R)) :
    orderAfter order (mergeToolMessages messages) = orderAfter order messages := by
  induction messages using List.reverseRecOn with
  | nil => rfl
  | append_singleton messages msg ih =>
    rw [mergeToolMessages_concat, orderAfter_concat, ← ih]
    rcases mergeStep_cases (mergeToolMessages messages).reverse msg with
      ⟨-, -, eq⟩ | ⟨role, last, earlier, eq, user, before⟩
    · rw [eq, List.reverse_cons, List.reverse_reverse, orderAfter_concat]
    · have other : msg.role ≠ .assistant := by
        rcases role with role | role
        · rw [role]
          nofun
        · rw [role]
          nofun
      have user_other {msg : Message R} (user : msg.role = .user) : msg.role ≠ .assistant := by
        rw [user]
        nofun
      rw [eq, List.reverse_cons, orderAfter_concat, sortStep_other (user_other user),
        sortStep_other other]
      rcases before with same | ⟨old, same, user⟩
      · rw [← same, List.reverse_reverse]
      · rw [← List.reverse_reverse (mergeToolMessages messages), same, List.reverse_cons,
          orderAfter_concat, sortStep_other (user_other user)]

lemma roles_sortFrom (order : OrderedDict Text Nat) (messages : List (Message R)) :
    (sortFrom order messages).map (·.role) = messages.map (·.role) := by
  induction messages generalizing order with
  | nil => rfl
  | cons msg messages ih =>
    rw [sortFrom, List.map_cons, List.map_cons, ih]
    congr 1
    unfold sortStep
    cases role : msg.role with
    | _ => simp [role]

lemma Unanswered.congr {l' : List (Message R)} (roles : l.map (·.role) = l'.map (·.role))
    (unanswered : Unanswered l) : Unanswered l' := by
  obtain ⟨earlier, msg, later, rfl, fades, quiet⟩ := unanswered
  rw [List.map_append, List.map_cons] at roles
  obtain ⟨earlier', rest, rfl, -, same⟩ := List.map_eq_append_iff.mp roles.symm
  obtain ⟨msg', later', rfl, same, tail⟩ := List.map_eq_cons_iff.mp same
  refine ⟨earlier', msg', later', rfl, same ▸ fades, fun next old asks => ?_⟩
  have mem : next.role ∈ later.map (·.role) := tail ▸ List.mem_map_of_mem old
  obtain ⟨before, old', eq⟩ := List.mem_map.mp mem
  exact quiet before old' (eq ▸ asks)

lemma exists_role {p : Role → Prop} {l' : List (Message R)}
    (roles : l.map (·.role) = l'.map (·.role)) :
    (∃ msg ∈ l, p msg.role) ↔ ∃ msg ∈ l', p msg.role := by
  have roles' (l : List (Message R)) :
      (∃ msg ∈ l, p msg.role) ↔ ∃ role ∈ l.map (·.role), p role := by
    simp only [List.mem_map, exists_exists_and_eq_and]
  rw [roles', roles, ← roles']

/-! ## The last user message -/

lemma findLastUserIndex_bounds (l : List (Message R)) :
    -1 ≤ findLastUserIndex l ∧ findLastUserIndex l < l.length ∧
      ((∃ msg ∈ l, msg.role.isUser) → 0 ≤ findLastUserIndex l) := by
  unfold findLastUserIndex
  cases found : l.reverse.findIdx? (·.role.isUser) with
  | none =>
    dsimp only
    refine ⟨Int.le_refl _, by omega, fun ⟨msg, old, user⟩ => ?_⟩
    have other := List.findIdx?_eq_none_iff.mp found msg (List.mem_reverse.mpr old)
    rw [user] at other
    cases other
  | some back =>
    obtain ⟨lt, -⟩ := List.findIdx?_eq_some_iff_getElem.mp found
    rw [List.length_reverse] at lt
    dsimp only
    omega

lemma findLastUserIndex_quiet (quiet : ¬ ∃ msg ∈ m, msg.role.isUser) :
    findLastUserIndex (l ++ m) = findLastUserIndex l := by
  have none : m.reverse.findIdx? (·.role.isUser) = none := by
    refine List.findIdx?_eq_none_iff.mpr fun msg old => ?_
    exact Bool.eq_false_iff.mpr fun user => quiet ⟨msg, List.mem_reverse.mp old, user⟩
  unfold findLastUserIndex
  rw [List.reverse_append, List.findIdx?_append, none, Option.none_or, List.length_append,
    List.length_reverse]
  cases l.reverse.findIdx? (·.role.isUser) with
  | none => rfl
  | some back =>
    dsimp only [Option.map_some]
    omega

lemma findLastUserIndex_asked (asked : ∃ msg ∈ m, msg.role.isUser) :
    findLastUserIndex (l ++ m) = l.length + findLastUserIndex m := by
  unfold findLastUserIndex
  rw [List.reverse_append, List.findIdx?_append, List.length_append]
  cases found : m.reverse.findIdx? (·.role.isUser) with
  | none =>
    obtain ⟨msg, old, user⟩ := asked
    have other := List.findIdx?_eq_none_iff.mp found msg (List.mem_reverse.mpr old)
    rw [user] at other
    cases other
  | some back =>
    rw [Option.some_or]
    dsimp only
    omega

lemma findLastUserIndex_le (msg : Message R) :
    findLastUserIndex (l ++ msg :: m) ≤ l.length ↔ ¬ ∃ next ∈ m, next.role.isUser := by
  rw [List.append_cons]
  constructor
  · intro le asked
    rw [findLastUserIndex_asked asked, List.length_append, List.length_singleton] at le
    have := (findLastUserIndex_bounds m).2.2 asked
    omega
  · intro quiet
    rw [findLastUserIndex_quiet quiet]
    have := (findLastUserIndex_bounds (l ++ [msg])).2.1
    rw [List.length_append, List.length_singleton] at this
    omega

/-! ## Dropping messages -/

lemma isSome_leftOf (lastUserIdx : Int) (entry : Message R × Nat) :
    (leftOf lastUserIdx entry).isSome ↔ entry.1.role.fades → lastUserIdx ≤ entry.2 := by
  unfold leftOf
  cases role : entry.1.role with
  | developer => by_cases le : lastUserIdx ≤ entry.2 <;> simp [Role.fades, le]
  | other name => by_cases le : lastUserIdx ≤ entry.2 <;> simp [Role.fades, le]
  | assistant => by_cases le : lastUserIdx ≤ entry.2 <;> simp [Role.fades, le]
  | _ => simp [Role.fades]

lemma split_of_mem_zipIdx {α : Type*} {l : List α} {entry : α × Nat} (mem : entry ∈ l.zipIdx) :
    ∃ earlier later, l = earlier ++ entry.1 :: later ∧ earlier.length = entry.2 := by
  obtain ⟨lt, eq⟩ := List.getElem?_eq_some_iff.mp (List.mem_zipIdx_iff_getElem?.mp mem)
  refine ⟨l.take entry.2, l.drop (entry.2 + 1), ?_, List.length_take_of_le lt.le⟩
  rw [← eq, List.getElem_cons_drop, List.take_append_drop]

lemma countP_lt {α : Type*} {p q : α → Bool} {l : List α} (le : ∀ a ∈ l, p a → q a) {a : α}
    (mem : a ∈ l) (other : q a) (not : ¬ p a) : l.countP p < l.countP q := by
  obtain ⟨earlier, later, rfl⟩ := List.append_of_mem mem
  have left := List.countP_mono_left fun b old => le b (List.mem_append_left _ old)
  have right := List.countP_mono_left fun b old =>
    le b (List.mem_append_right _ (List.mem_cons_of_mem _ old))
  rw [List.countP_append, List.countP_append, List.countP_cons_of_neg not,
    List.countP_cons_of_pos other]
  omega

lemma length_leftOf (merged : ∀ msg ∈ l, msg.role.asks = msg.role.isUser) :
    (l.zipIdx.filterMap (leftOf (findLastUserIndex (l ++ m)))).length ≤
        (dropThinkingMessages l).length ∧
      ((l.zipIdx.filterMap (leftOf (findLastUserIndex (l ++ m)))).length =
        (dropThinkingMessages l).length ↔
          ¬ ((∃ msg ∈ m, msg.role.isUser) ∧ Unanswered l)) := by
  have whole : dropThinkingMessages l = l.zipIdx.filterMap (leftOf (findLastUserIndex l)) := rfl
  rw [whole]
  by_cases asked : ∃ msg ∈ m, msg.role.isUser
  · have last := findLastUserIndex_asked (l := l) asked
    have behind := (findLastUserIndex_bounds m).2.2 asked
    have before := (findLastUserIndex_bounds l).2.1
    have le : ∀ entry ∈ l.zipIdx, (leftOf (findLastUserIndex (l ++ m)) entry).isSome →
        (leftOf (findLastUserIndex l) entry).isSome := by
      intro entry old
      rw [isSome_leftOf, isSome_leftOf]
      intro left fades
      have := left fades
      omega
    rw [List.length_filterMap_eq_countP, List.length_filterMap_eq_countP]
    refine ⟨List.countP_mono_left le, ?_⟩
    rw [not_and_or, or_iff_right (not_not_intro asked)]
    constructor
    · rintro eq ⟨earlier, msg, later, split, fades, quiet⟩
      have mem : (msg, earlier.length) ∈ l.zipIdx := by
        rw [split]
        simp [List.zipIdx_append]
      refine Nat.ne_of_lt (countP_lt le mem ?_ ?_) eq
      · rw [isSome_leftOf, split]
        refine fun _ => (findLastUserIndex_le msg).mpr ?_
        rintro ⟨next, old, user⟩
        have asks := merged next (split ▸ List.mem_append_right _ (List.mem_cons_of_mem _ old))
        exact quiet next old (asks.trans user)
      · rw [isSome_leftOf]
        intro left
        have short : earlier.length < l.length := by
          rw [split, List.length_append, List.length_cons]
          omega
        have := left fades
        dsimp only at this
        omega
    · intro answered
      refine List.countP_congr fun entry old => ⟨le entry old, fun left => ?_⟩
      rw [isSome_leftOf] at left ⊢
      intro fades
      obtain ⟨earlier, later, split, place⟩ := split_of_mem_zipIdx old
      have none := left fades
      rw [← place, split] at none
      refine absurd ⟨earlier, entry.1, later, split, fades, fun next old asks => ?_⟩ answered
      have user := merged next (split ▸ List.mem_append_right _ (List.mem_cons_of_mem _ old))
      exact (findLastUserIndex_le entry.1).mp none ⟨next, old, user.symm.trans asks⟩
  · rw [findLastUserIndex_quiet asked]
    exact ⟨le_rfl, iff_of_true rfl fun both => asked both.1⟩

end

/-! ## The law -/

/-- The last message is an answer. -/
def EndsInAnswer (context : List (Message R)) : Prop :=
  ∃ earlier answer, context = earlier ++ [answer] ∧ answer.role = .assistant

section
variable {context : List (Message R)}

lemma preprocess_append (ends : EndsInAnswer context) (messages : List (Message R)) :
    preprocess (context ++ messages) [] =
      ([], (preprocess messages context).1 ++ (preprocess messages context).2) ∧
    (preprocess messages context).1 = sortToolResultsByCallOrder (mergeToolMessages context) ∧
    (preprocess messages context).2 =
      sortFrom (orderAfter .empty context) (mergeToolMessages messages) := by
  obtain ⟨earlier, answer, rfl, role⟩ := ends
  have some : earlier ++ [answer] ≠ [] := List.concat_ne_nil _ _
  have merged : mergeToolMessages (earlier ++ [answer] ++ messages) =
      mergeToolMessages (earlier ++ [answer]) ++ mergeToolMessages messages := by
    rw [List.append_assoc, List.singleton_append, mergeToolMessages_append _ role,
      mergeToolMessages_append _ role, List.append_cons]
    rfl
  have before : (preprocess messages (earlier ++ [answer])).1 =
      sortToolResultsByCallOrder (mergeToolMessages (earlier ++ [answer])) := if_neg some
  have after : (preprocess messages (earlier ++ [answer])).2 =
      sortFrom (orderAfter .empty (earlier ++ [answer])) (mergeToolMessages messages) := by
    unfold preprocess sortToolResultsByCallOrder
    dsimp only
    rw [sortFrom_append, List.drop_left' (sortFrom_length ..)]
  refine ⟨?_, before, after⟩
  rw [before, after]
  unfold preprocess
  rw [if_pos rfl, List.nil_append, merged, List.length_nil, List.drop_zero]
  unfold sortToolResultsByCallOrder
  rw [sortFrom_append, orderAfter_merge]

variable (settings : Settings) (messages : List (Message R))

lemma plan_whole (ends : EndsInAnswer context) :
    let survivors := contextSurvivors settings messages context ++
      messageSurvivors settings messages context
    plan settings (context ++ messages) [] = ⟨survivors, 0, survivors.length⟩ := by
  dsimp only
  have whole := (preprocess_append ends messages).1
  have all : contextSurvivors settings messages context ++
      messageSurvivors settings messages context =
      survivors settings (preprocess (context ++ messages) []).2
        (preprocess (context ++ messages) []).2.zipIdx := by
    unfold contextSurvivors messageSurvivors wholeConversation survivors
    dsimp only
    split_ifs
    · rw [← List.filterMap_append, List.take_append_drop]
    · rw [← List.map_append, List.take_append_drop]
  rw [all]
  unfold plan survivors
  rw [whole]
  dsimp only
  rw [List.nil_append]
  split_ifs
  · have none : dropThinkingMessages ([] : List (Message R)) = [] := rfl
    rw [none, List.length_nil, Nat.sub_zero, Nat.sub_self]
    rfl
  · rw [List.zipIdx_map_fst]
    rfl

lemma plan_context (ends : EndsInAnswer context) :
    ∃ kept survivors, survivors = contextSurvivors settings messages context ++
        messageSurvivors settings messages context ∧
    plan settings messages context =
      ⟨survivors, survivors.length - (survivors.length - kept), survivors.length - kept⟩ ∧
    (contextSurvivors settings messages context).length ≤ kept ∧
    ((contextSurvivors settings messages context).length = kept ↔
      ¬ (Drops settings (wholeConversation messages context).1 ∧
        (∃ msg ∈ messages, msg.role.asks) ∧ Unanswered context)) := by
  obtain ⟨whole, before, after⟩ := preprocess_append ends messages
  have number : (mergeToolMessages context).length = (preprocess messages context).1.length := by
    rw [before, sortToolResultsByCallOrder, sortFrom_length]
  have roles := roles_sortFrom .empty (mergeToolMessages context)
  have unanswered : Unanswered (preprocess messages context).1 ↔ Unanswered context := by
    rw [before, ← unanswered_merge context]
    exact ⟨Unanswered.congr roles, Unanswered.congr roles.symm⟩
  have merged : ∀ msg ∈ (preprocess messages context).1, msg.role.asks = msg.role.isUser := by
    intro msg old
    refine Role.asks_eq fun tool => ?_
    rw [before] at old
    obtain ⟨msg', old', tool'⟩ := (exists_role (p := (· = .tool)) roles).mp ⟨msg, old, tool⟩
    exact tool_merge context msg' old' tool'
  have asked : (∃ msg ∈ (preprocess messages context).2, msg.role.isUser) ↔
      ∃ msg ∈ messages, msg.role.asks := by
    rw [after, ← asks_merge]
    exact exists_role (p := fun role => role.isUser) (roles_sortFrom ..)
  unfold plan contextSurvivors messageSurvivors wholeConversation survivors
  dsimp only
  rw [whole, number]
  dsimp only
  rw [List.zipIdx_append, List.take_left' List.length_zipIdx, List.drop_left' List.length_zipIdx,
    ← asked, ← unanswered]
  split_ifs with drops
  · refine ⟨(dropThinkingMessages (preprocess messages context).1).length, _, rfl, ?_, ?_⟩
    · rw [← List.filterMap_append, ← List.zipIdx_append]
      rfl
    · rw [and_iff_right drops]
      exact length_leftOf merged
  · refine ⟨(preprocess messages context).1.length, _, rfl, ?_, ?_, ?_⟩
    · rw [List.zipIdx_map_fst, List.zipIdx_map_fst, List.length_append, Nat.add_sub_cancel_left,
        Nat.add_sub_cancel]
    · rw [List.zipIdx_map_fst]
    · rw [List.zipIdx_map_fst]
      exact iff_of_true rfl fun all => drops all.1

lemma messageSurvivors_ne_nil (ends : EndsInAnswer context)
    (asked : ∃ msg ∈ messages, msg.role.asks) :
    messageSurvivors settings messages context ≠ [] := by
  obtain ⟨whole, before, after⟩ := preprocess_append ends messages
  have number : (mergeToolMessages context).length = (preprocess messages context).1.length := by
    rw [before, sortToolResultsByCallOrder, sortFrom_length]
  obtain ⟨msg, old, -⟩ := (asks_merge messages).mpr asked
  have some : (preprocess messages context).2 ≠ [] := by
    rw [after]
    exact List.ne_nil_of_length_pos (by
      rw [sortFrom_length]
      exact List.length_pos_of_mem old)
  obtain ⟨earlier, last, split⟩ : ∃ earlier last, (preprocess messages context).2 =
      earlier ++ [last] := ⟨_, _, (List.dropLast_append_getLast some).symm⟩
  unfold messageSurvivors wholeConversation survivors
  dsimp only
  rw [whole, number]
  dsimp only
  rw [List.zipIdx_append, List.drop_left' List.length_zipIdx, split]
  split_ifs
  · rw [List.zipIdx_append, List.filterMap_append]
    refine List.append_ne_nil_of_right_ne_nil _ ?_
    have bound := (findLastUserIndex_bounds ((preprocess messages context).1 ++
      (earlier ++ [last]))).2.1
    rw [List.length_append, List.length_append, List.length_singleton] at bound
    obtain ⟨left, eq⟩ := Option.isSome_iff_exists.mp ((isSome_leftOf
      (findLastUserIndex ((preprocess messages context).1 ++ (earlier ++ [last])))
      (last, (preprocess messages context).1.length + earlier.length)).mpr fun _ => by
        dsimp only
        omega)
    simp [eq]
  · rw [List.zipIdx_map_fst]
    exact List.concat_ne_nil _ _

end

lemma renderPart_append (py : Builtins R) (settings : Settings) (drop : Bool)
    (fullMessages : List (Message R)) (number more : Nat) :
    renderSlice py settings drop fullMessages 0 (number + more) = do
      let start ← renderSlice py settings drop fullMessages 0 number
      let rest ← renderSlice py settings drop fullMessages number more
      return start ++ rest := by
  have shift (idx : Nat) : number + idx + 0 = idx + number := by omega
  unfold renderSlice
  rw [List.range_add, List.mapM_append, List.mapM_map]
  simp only [Function.comp_def, shift]
  cases List.mapM (m := Except EncodingError) _ (List.range number) with
  | error e => rfl
  | ok start =>
    cases List.mapM (m := Except EncodingError) _ (List.range more) with
    | error e => rfl
    | ok rest =>
      show Except.ok (start ++ rest).flatten = Except.ok (start.flatten ++ rest.flatten)
      rw [List.flatten_append]

/-- The law holds unless messages are dropped, something is asked behind the context, and the
context has a message that only this question drops. -/
theorem contextLaw_iff (py : Builtins R) (settings : Settings) (messages : List (Message R))
    {context : List (Message R)} (ends : EndsInAnswer context) :
    ContextLaw py settings messages context ↔
      ¬ (Drops settings (wholeConversation messages context).1 ∧
        (∃ msg ∈ messages, msg.role.asks) ∧ Unanswered context) := by
  obtain ⟨kept, survivors, all, cut, le, exact⟩ := plan_context settings messages ends
  have whole := plan_whole settings messages ends
  rw [← all] at whole
  have total : survivors.length = (contextSurvivors settings messages context).length +
      (messageSurvivors settings messages context).length := by
    rw [all, List.length_append]
  rw [← exact]
  constructor
  · intro law
    have lengths := congrArg List.length law.rendered
    by_contra other
    have some := messageSurvivors_ne_nil settings messages ends
      (not_not.mp (fun not => other (exact.mpr fun both => not both.2.1)))
    have pos := List.length_pos_iff.mpr some
    rw [Plan.rendered, cut, List.length_take, List.length_drop] at lengths
    dsimp only at lengths
    omega
  · rintro rfl
    have left : survivors.length - (contextSurvivors settings messages context).length =
        (messageSurvivors settings messages context).length := by omega
    have start : survivors.length - (messageSurvivors settings messages context).length =
        (contextSurvivors settings messages context).length := by omega
    rw [left, start] at cut
    refine ⟨?_, ?_⟩
    · rw [Plan.rendered, cut]
      dsimp only
      rw [all, List.drop_left, List.take_length]
    · obtain ⟨split, before, -⟩ := preprocess_append ends messages
      have some : (preprocess messages context).1.length ≠ 0 := by
        obtain ⟨earlier, answer, rfl, role⟩ := ends
        rw [before, mergeToolMessages_append earlier role, sortToolResultsByCallOrder,
          sortFrom_length, List.length_append, List.length_cons]
        exact Nat.succ_ne_zero _
      have behind : ¬ (settings.addDefaultBosToken = true ∧
          (preprocess messages context).1.length = 0) := fun both => some both.2
      rw [encodeMessages_plan, encodeMessages_plan]
      unfold renderContext wholeConversation
      rw [split, cut, whole]
      dsimp only
      rw [if_neg behind, List.nil_append, total, renderPart_append]
      simp only [List.length_nil, and_true]
      cases renderSlice py settings _ _ 0 _ with
      | error e => rfl
      | ok start =>
        cases renderSlice py settings _ _ _ _ with
        | error e => rfl
        | ok rest => exact congrArg Except.ok (List.append_assoc ..).symm

/-- A note of the developer is dropped in its place before a question. -/
theorem contextLaw_iff_developer :
    let py : Builtins Unit := ⟨⟨fun _ => text "1.5", fun _ => .finite ()⟩, fun _ => text "1.5"⟩
    let hello : Field (Content Unit) := .value (.text (text "Hello."))
    let context : List (Message Unit) :=
      [{ role := .developer, content := hello },
        { role := .user, content := hello },
        { role := .assistant, content := hello }]
    ContextLaw py ⟨.thinking, true, true, none⟩
      [{ role := .user, content := hello }] context := by
  intro py hello context
  have answered : ¬ Unanswered context := by
    show ¬ Unanswered ([] ++ [_] ++ [_] ++ [_])
    rw [unanswered_concat, unanswered_concat]
    rintro (fades | ⟨-, fades | ⟨quiet, -⟩⟩)
    · cases fades
    · cases fades
    · exact quiet rfl
  have ends : EndsInAnswer context := ⟨[_, _], _, rfl, rfl⟩
  exact (contextLaw_iff py ⟨.thinking, true, true, none⟩ _ ends).mpr fun all => answered all.2.2

/-- After a note of the developer and an answer, the question is left out. -/
theorem not_contextLaw_developer :
    let py : Builtins Unit := ⟨⟨fun _ => text "1.5", fun _ => .finite ()⟩, fun _ => text "1.5"⟩
    let hello : Field (Content Unit) := .value (.text (text "Hello."))
    let context : List (Message Unit) :=
      [{ role := .developer, content := hello },
        { role := .assistant, content := hello }]
    let messages : List (Message Unit) := [{ role := .user, content := hello }]
    let settings : Settings := ⟨.thinking, true, true, none⟩
    encodeMessages py settings messages context = .ok [] ∧
      encodeMessages py settings (context ++ messages) [] = .ok (bosToken ++ text "Hello." ++
        eosToken ++ userSpToken ++ text "Hello." ++ assistantSpToken ++ thinkingStartToken) ∧
      ¬ ContextLaw py settings messages context := by
  intro py hello context messages settings
  refine ⟨by decide +kernel, by decide +kernel, fun law => ?_⟩
  have lengths := congrArg List.length law.rendered
  revert lengths
  decide

end PocketMoE.Encoding
