import Mathlib.Data.List.Infix
import PocketMoE.Encoding.Dsv4

/-!
# A conversation is encoded from left to right

What is encoded of a conversation stays the start of what is encoded when an answer and more follow,
as long as no reasoning is dropped: in chat mode, or with `drop_thinking` off
(`encodeMessages_prefix`).

An answer is where messages are not merged (`mergeToolMessages_append`), the order of tool results
is found from left to right (`sortFrom_append`), and a message looks ahead at the next one only to
see whether an answer follows, which is also what it takes the end for (`renderMessage_append`).
-/

namespace PocketMoE.Encoding
open PocketMoE.Lib

variable {R : Type} {py : Builtins R}

/-! ## Preprocessing -/

/-- No block is appended to the last message. -/
def Sealed (merged : List (Message R)) : Prop := ∀ last ∈ merged.head?, last.role ≠ .user

lemma appendBlock_append {merged : List (Message R)} (closed : Sealed merged) (block : Block R)
    (takes : Message R → Bool) (newMsg : Message R) (l : List (Message R)) :
    appendBlock block takes newMsg (l ++ merged) = appendBlock block takes newMsg l ++ merged := by
  cases l with
  | cons last l =>
    rw [List.cons_append, appendBlock, appendBlock]
    cases last.contentBlocks with
    | none => rfl
    | some blocks =>
      dsimp only
      split_ifs
      · rfl
      · rfl
  | nil =>
    rw [List.nil_append]
    cases merged with
    | nil => rfl
    | cons last merged =>
      have other : ¬ (last.role = .user ∧ takes last) := fun both => closed last rfl both.1
      rw [appendBlock, appendBlock]
      cases last.contentBlocks with
      | none => rfl
      | some blocks => exact if_neg other

lemma mergeStep_append {merged : List (Message R)} (closed : Sealed merged) (msg : Message R)
    (l : List (Message R)) : mergeStep (l ++ merged) msg = mergeStep l msg ++ merged := by
  unfold mergeStep
  cases msg.role with
  | tool => exact appendBlock_append closed ..
  | user => exact appendBlock_append closed ..
  | _ => rfl

lemma mergeToolMessages_append (messages : List (Message R)) {answer : Message R}
    (role : answer.role = .assistant) (rest : List (Message R)) :
    mergeToolMessages (messages ++ answer :: rest) =
      mergeToolMessages messages ++ answer :: mergeToolMessages rest := by
  have fold : ∀ (rest l merged : List (Message R)), Sealed merged →
      rest.foldl mergeStep (l ++ merged) = rest.foldl mergeStep l ++ merged := by
    intro rest
    induction rest with
    | nil => exact fun _ _ _ => rfl
    | cons msg rest ih =>
      intro l merged closed
      rw [List.foldl_cons, mergeStep_append closed, ih _ _ closed, List.foldl_cons]
  have step : mergeStep (messages.foldl mergeStep []) answer =
      answer :: messages.foldl mergeStep [] := by
    rw [mergeStep, role]
  have closed : Sealed (answer :: messages.foldl mergeStep []) := by
    rintro last ⟨⟩
    rw [role]
    decide
  have whole := fold rest [] _ closed
  rw [List.nil_append] at whole
  rw [mergeToolMessages, List.foldl_append, List.foldl_cons, step, whole, List.reverse_append,
    List.reverse_cons, List.append_assoc, List.singleton_append]
  rfl

/-- `last_tool_call_order` behind some messages. -/
def orderAfter (order : OrderedDict Text Nat) (messages : List (Message R)) :
    OrderedDict Text Nat :=
  messages.foldl (fun order msg => (sortStep order msg).1) order

lemma sortFrom_append (order : OrderedDict Text Nat) (l m : List (Message R)) :
    sortFrom order (l ++ m) = sortFrom order l ++ sortFrom (orderAfter order l) m := by
  induction l generalizing order with
  | nil => rfl
  | cons msg l ih =>
    rw [List.cons_append, sortFrom, sortFrom, ih, List.cons_append]
    rfl

@[simp]
lemma sortFrom_length (order : OrderedDict Text Nat) (l : List (Message R)) :
    (sortFrom order l).length = l.length := by
  induction l generalizing order with
  | nil => rfl
  | cons msg l ih => rw [sortFrom, List.length_cons, List.length_cons, ih]

lemma sortStep_answer {answer : Message R} (role : answer.role = .assistant)
    (order : OrderedDict Text Nat) : (sortStep order answer).2 = answer := by
  rw [sortStep, role]

/-! ## Rendering -/

/-- No reasoning is dropped. -/
def Keeps (thinkingMode : ThinkingMode) (dropThinking : Bool) : Prop :=
  thinkingMode = .chat ∨ dropThinking = false

section
variable {thinkingMode : ThinkingMode} {drop drop' : Bool} {l m : List (Message R)} {index : Nat}

lemma renderRole_append (keeps : Keeps thinkingMode drop) (keeps' : Keeps thinkingMode drop')
    (within : index < l.length) (msg : Message R) (tools : List (Json R)) :
    renderRole py index (l ++ m) msg tools thinkingMode drop =
      renderRole py index l msg tools thinkingMode drop' := by
  have before : (l ++ m)[index - 1]? = l[index - 1]? :=
    List.getElem?_append_left (Nat.lt_of_le_of_lt (Nat.sub_le ..) within)
  unfold renderRole
  cases msg.role with
  | assistant =>
    dsimp only
    rw [before]
    rcases keeps with rfl | rfl
    · rfl
    · rcases keeps' with rfl | rfl
      · rfl
      · rfl
  | _ => rfl

lemma transition_append (keeps : Keeps thinkingMode drop) (keeps' : Keeps thinkingMode drop')
    (msg : Message R) :
    renderTransition.transition index (l ++ m) msg thinkingMode drop =
      renderTransition.transition index l msg thinkingMode drop' := by
  unfold renderTransition.transition
  cases msg.task with
  | some task => rfl
  | none =>
    dsimp only
    rcases keeps with rfl | rfl
    · simp
    · rcases keeps' with rfl | rfl
      · simp
      · simp

lemma renderTransition_append (keeps : Keeps thinkingMode drop) (keeps' : Keeps thinkingMode drop')
    (within : index < l.length) {answer : Message R} (role : answer.role = .assistant)
    (msg : Message R) :
    renderTransition index (l ++ answer :: m) msg thinkingMode drop =
      renderTransition index l msg thinkingMode drop' := by
  unfold renderTransition
  rw [transition_append keeps keeps']
  rcases Nat.lt_or_eq_of_le (Nat.succ_le_of_lt within) with inside | last
  · rw [List.getElem?_append_left inside]
  · have next : (l ++ answer :: m)[index + 1]? = some answer := by
      rw [show index + 1 = l.length from last, List.getElem?_append_right le_rfl, Nat.sub_self, List.getElem?_cons_zero]
    have none : l[index + 1]? = none := List.getElem?_eq_none (Nat.le_of_eq last.symm)
    rw [next, none]
    exact if_pos (Or.inl role)

lemma renderMessage_append (keeps : Keeps thinkingMode drop) (keeps' : Keeps thinkingMode drop')
    (within : index < l.length) {answer : Message R} (role : answer.role = .assistant)
    (reasoningEffort : Option ReasoningEffort) :
    renderMessage py index (l ++ answer :: m) thinkingMode drop reasoningEffort =
      renderMessage py index l thinkingMode drop' reasoningEffort := by
  unfold renderMessage
  rw [List.getElem?_append_left within, List.getElem?_eq_getElem within]
  dsimp only
  rw [renderTransition_append keeps keeps' within role]
  simp only [renderRole_append keeps keeps' within]

end

variable (py) in
lemma encodeMessages_eq {settings : Settings}
    (keeps : Keeps settings.thinkingMode settings.dropThinking) (messages context : List (Message R)) : ∃ drop, Keeps settings.thinkingMode drop ∧
    encodeMessages py settings messages context =
      let rendered := (sortToolResultsByCallOrder (context ++ mergeToolMessages messages)).drop
        context.length
      let context :=
        if context = [] then [] else sortToolResultsByCallOrder (mergeToolMessages context)
      do
        let parts ← (List.range rendered.length).mapM fun idx =>
          renderMessage py (idx + context.length) (context ++ rendered) settings.thinkingMode drop
            settings.reasoningEffort
        return (if settings.addDefaultBosToken ∧ context.length = 0 then bosToken else []) ++
          parts.flatten := by
  unfold encodeMessages
  dsimp only
  generalize ((context ++ mergeToolMessages messages : List (Message R))) = whole
  generalize (if context = [] then [] else sortToolResultsByCallOrder (mergeToolMessages context)) =
    before
  generalize (!(before ++ _).any _) = noTools
  refine ⟨settings.dropThinking && noTools, ?_, ?_⟩
  · rcases keeps with chat | off
    · exact Or.inl chat
    · exact Or.inr (by rw [off]; rfl)
  · have stay : ¬ (settings.thinkingMode = .thinking ∧ (settings.dropThinking && noTools) = true) := by
      rintro ⟨thinking, both⟩
      rcases keeps with chat | off
      · rw [chat] at thinking
        cases thinking
      · rw [off] at both
        cases both
    rw [if_neg stay]

lemma mapM_congr {α β ε : Type} {f g : α → Except ε β} {l : List α} (same : ∀ a ∈ l, f a = g a) :
    l.mapM f = l.mapM g := by
  induction l with
  | nil => rfl
  | cons a l ih =>
    obtain ⟨here, rest⟩ := List.forall_mem_cons.mp same
    rw [List.mapM_cons, List.mapM_cons, here, ih rest]

/-- When an answer and more follow, the prompt of a conversation is the start of the new prompt, if no
reasoning is dropped. -/
theorem encodeMessages_prefix {settings : Settings}
    (keeps : Keeps settings.thinkingMode settings.dropThinking)
    (messages rest context : List (Message R)) {answer : Message R}
    (role : answer.role = .assistant) {prompt : Text}
    (encoded : encodeMessages py settings (messages ++ answer :: rest) context = .ok prompt) :
    ∃ start, encodeMessages py settings messages context = .ok start ∧ start <+: prompt := by
  obtain ⟨drop, keeps₁, eq⟩ := encodeMessages_eq py keeps messages context
  obtain ⟨drop', keeps₂, eq'⟩ :=
    encodeMessages_eq py keeps (messages ++ answer :: rest) context
  rw [eq'] at encoded
  rw [eq]
  dsimp only at encoded ⊢
  have split : ∃ more,
      (sortToolResultsByCallOrder (context ++ mergeToolMessages (messages ++ answer :: rest))).drop
          context.length =
        (sortToolResultsByCallOrder (context ++ mergeToolMessages messages)).drop context.length ++
          answer :: more := by
    rw [mergeToolMessages_append messages role, ← List.append_assoc]
    unfold sortToolResultsByCallOrder
    rw [sortFrom_append, sortFrom, sortStep_answer role, List.drop_append_of_le_length]
    · exact ⟨_, rfl⟩
    · rw [sortFrom_length, List.length_append]
      exact Nat.le_add_right ..
  obtain ⟨more, split⟩ := split
  rw [split] at encoded
  generalize ((sortToolResultsByCallOrder (context ++ mergeToolMessages messages)).drop
    context.length) = rendered at encoded ⊢
  generalize (if context = [] then [] else sortToolResultsByCallOrder (mergeToolMessages context)) =
    before at encoded ⊢
  have same : ∀ idx ∈ List.range rendered.length,
      renderMessage py (idx + before.length) (before ++ (rendered ++ answer :: more))
        settings.thinkingMode drop' settings.reasoningEffort =
      renderMessage py (idx + before.length) (before ++ rendered) settings.thinkingMode drop
        settings.reasoningEffort := by
    intro idx listed
    have lt := List.mem_range.mp listed
    rw [← List.append_assoc]
    refine renderMessage_append keeps₂ keeps₁ ?_ role _
    rw [List.length_append]
    omega
  rw [List.length_append, List.range_add, List.mapM_append, mapM_congr same] at encoded
  cases parts : (List.range rendered.length).mapM fun idx =>
      renderMessage py (idx + before.length) (before ++ rendered) settings.thinkingMode drop
        settings.reasoningEffort with
  | error e =>
    rw [parts] at encoded
    cases encoded
  | ok texts =>
    rw [parts] at encoded
    refine ⟨_, rfl, ?_⟩
    simp only [bind, Except.bind] at encoded
    split at encoded
    · cases encoded
    · rename_i whole both
      split at both
      · cases both
      · cases both
        cases encoded
        rw [List.flatten_append, ← List.append_assoc]
        exact List.prefix_append ..

/-- A tool result, an answer and a question. -/
theorem encodeMessages_prefix_tool :
    let py : Builtins Unit := ⟨⟨fun _ => text "1.5", fun _ => .finite ()⟩, fun _ => text "1.5"⟩
    let asked : List (Message Unit) :=
      [{ role := .user, content := .value (.text (text "How warm?")) },
        { role := .assistant,
          toolCalls := [{ id := text "a", function := ⟨[], text "warmth", text "\x7b\x7d"⟩ }] },
        { role := .tool, toolCallId := text "a", content := .value (.text (text "20")) }]
    let answer : Message Unit := { role := .assistant, content := .value (.text (text "Warm.")) }
    let more : List (Message Unit) :=
      [{ role := .user, content := .value (.text (text "Thanks.")) }]
    ∃ prompt start, encodeMessages py ⟨.chat, true, true, none⟩ (asked ++ answer :: more) =
        .ok prompt ∧
      encodeMessages py ⟨.chat, true, true, none⟩ asked = .ok start ∧ start <+: prompt := by
  intro py asked answer more
  have encoded : (encodeMessages py ⟨.chat, true, true, none⟩ (asked ++ answer :: more)).isOk := by
    decide
  cases prompt : encodeMessages py ⟨.chat, true, true, none⟩ (asked ++ answer :: more) with
  | error e =>
    rw [prompt] at encoded
    cases encoded
  | ok prompt' =>
    have keeps : Keeps (Settings.mk .chat true true none).thinkingMode true := Or.inl rfl
    obtain ⟨start, eq, starts⟩ := encodeMessages_prefix keeps asked more [] rfl prompt
    exact ⟨prompt', start, rfl, eq, starts⟩

end PocketMoE.Encoding
