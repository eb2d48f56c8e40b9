import PocketMoE.Encoding.Dsv4
import PocketMoE.Lib.SortBy

/-!
# What becomes of the messages that are merged

`Follows` says that messages and a list of turns are the same conversation: tool results and texts
of users stand in turns of a user, each once and in their order, only that the results of the calls
of the assistant before are in the order of these calls, and a turn has the fields of its texts.

`merge_tool_messages` and `sort_tool_results_by_call_order` keep a conversation in this sense
exactly if `Kept` holds of it (`preserved_iff`). A text that joins the turn of another message
loses its fields. A result of no call is sorted like one of the first call, and without calls of
the assistant before, the order of those of an earlier one is taken.
-/

namespace PocketMoE.Encoding
open PocketMoE.Lib

variable {R : Type}

/-! ## The same conversation -/

/-- A message that becomes a part of a turn of a user. -/
def Message.Merges (msg : Message R) : Prop := msg.role = .tool ∨ msg.role = .user

instance (msg : Message R) : Decidable msg.Merges := inferInstanceAs (Decidable (_ ∨ _))

/-- The block that it becomes. -/
def mergedBlock (msg : Message R) : Block R :=
  match msg.role with
  | .tool => .toolResult msg.toolCallId (msg.content.getD (.text []))
  | _ => .text (msg.content.getD (.text []))

/-- The fields of a message are those of its turn. -/
structure Attached (msg turn : Message R) : Prop where
  task : msg.task ≠ none → turn.task = msg.task
  woEos : msg.woEos = true → turn.woEos = true
  mask : msg.mask ≠ .missing → turn.mask = msg.mask

/-- The tool calls of the assistant before, behind a message. -/
def callsAfter (calls : List ToolCall) (msg : Message R) : List ToolCall :=
  if msg.role = .assistant then msg.toolCalls else calls

/-- A result of one of some calls. -/
def Block.calledBy (calls : List ToolCall) : Block R → Bool
  | .toolResult toolUseId _ => ((toolCallOrder calls).get toolUseId).isSome
  | _ => false

/-- The place of its call among them. -/
def Block.placeIn (calls : List ToolCall) (block : Block R) : Nat :=
  block.callOrder (toolCallOrder calls)

/-- Messages behind an assistant with some calls, and what is made of them. -/
inductive Follows : List ToolCall → List (Message R) → List (Message R) → Prop where
  | nil {calls : List ToolCall} : Follows calls [] []
  | other {calls : List ToolCall} {msg : Message R} {messages out : List (Message R)}
      (other : ¬ msg.Merges) (rest : Follows (callsAfter calls msg) messages out) :
      Follows calls (msg :: messages) (msg :: out)
  | turn {calls : List ToolCall} {parts messages out : List (Message R)} {turn : Message R}
      {blocks : List (Block R)} (nonempty : parts ≠ []) (merges : ∀ msg ∈ parts, msg.Merges)
      (role : turn.role = .user) (contents : turn.contentBlocks = some blocks)
      (sorted : SortedAmong (Block.calledBy calls ·) (Block.placeIn calls)
        (parts.map mergedBlock) blocks)
      (fields : ∀ msg ∈ parts, msg.role = .user → Attached msg turn)
      (rest : Follows calls messages out) : Follows calls (parts ++ messages) (turn :: out)

/-- The conversation is kept. -/
def Preserved (messages : List (Message R)) : Prop :=
  Follows [] messages (sortToolResultsByCallOrder (mergeToolMessages messages))

/-! ## What is needed for it -/

/-- A message joins the turn that begins with another one: a tool result, or a text if the other has
no task. -/
def joins (first msg : Message R) : Bool :=
  msg.role = .tool ∨ msg.role = .user ∧ (first.role = .tool ∨ first.task = none)

/-- The fields of the turn that begins with a message. -/
def turnStart (first : Message R) : Message R :=
  match first.role with
  | .tool => { role := .user }
  | _ =>
    { role := .user, content := first.content.getD (.text []), task := first.task,
      woEos := first.woEos, mask := first.mask }

/-- In a turn, a text has no other fields than the turn, and behind a result stands none that is
sorted before it and is no result of the calls of the assistant before. -/
structure TurnKept (calls : List ToolCall) (order : OrderedDict Text Nat) (first : Message R)
    (parts : List (Message R)) : Prop where
  fields : ∀ msg ∈ parts, msg.role = .user → Attached msg (turnStart first)
  results : ((parts.map mergedBlock).filter (·.isToolResult)).Pairwise fun a b =>
    b.calledBy calls ∨ a.callOrder order ≤ b.callOrder order

/-- All turns are kept. -/
def Kept (calls : List ToolCall) (order : OrderedDict Text Nat) : List (Message R) → Prop
  | [] => True
  | msg :: messages =>
    if msg.Merges then
      TurnKept calls order msg (msg :: messages.takeWhile (joins msg)) ∧
        Kept calls order (messages.dropWhile (joins msg))
    else Kept (callsAfter calls msg) (sortStep order msg).1 messages
  termination_by messages => messages.length
  decreasing_by
    · exact Nat.lt_succ_of_le (List.dropWhile_suffix _).length_le
    · exact Nat.lt_succ_self _

/-! ## The turns of the merged messages -/

lemma mergeStep_cons (last msg : Message R) (merged : List (Message R)) :
    mergeStep (last :: merged) msg = mergeStep [last] msg ++ merged := by
  have block (block : Block R) (takes : Message R → Bool) (newMsg : Message R) :
      appendBlock block takes newMsg (last :: merged) =
        appendBlock block takes newMsg [last] ++ merged := by
    rw [appendBlock, appendBlock]
    cases last.contentBlocks with
    | none => rfl
    | some blocks =>
      dsimp only
      split_ifs
      · rfl
      · rfl
  unfold mergeStep
  cases msg.role with
  | tool => exact block ..
  | user => exact block ..
  | _ => rfl

lemma mergeStep_ne_nil (last msg : Message R) : mergeStep [last] msg ≠ [] := by
  have block (block : Block R) (takes : Message R → Bool) (newMsg : Message R) :
      appendBlock block takes newMsg [last] ≠ [] := by
    rw [appendBlock]
    cases last.contentBlocks with
    | none => exact List.cons_ne_nil _ _
    | some blocks =>
      dsimp only
      split_ifs
      · exact List.cons_ne_nil _ _
      · exact List.cons_ne_nil _ _
  unfold mergeStep
  cases msg.role with
  | tool => exact block _ _ _
  | user => exact block _ _ _
  | _ => exact List.cons_ne_nil _ _

lemma foldl_mergeStep_cons (last : Message R) (merged messages : List (Message R)) :
    messages.foldl mergeStep (last :: merged) = messages.foldl mergeStep [last] ++ merged := by
  induction messages generalizing last merged with
  | nil => rfl
  | cons msg messages ih =>
    obtain ⟨new, rest, step⟩ := List.exists_cons_of_ne_nil (mergeStep_ne_nil last msg)
    rw [List.foldl_cons, mergeStep_cons, List.foldl_cons, step, List.cons_append,
      ih new (rest ++ merged), ih new rest, List.append_assoc]

lemma mergeStep_alone {last msg : Message R}
    (alone : msg.Merges → ∀ blocks, last.contentBlocks = some blocks →
      ¬ (last.role = .user ∧ (msg.role = .user → last.task = none))) :
    mergeStep [last] msg = mergeStep [] msg ++ [last] := by
  unfold mergeStep
  cases role : msg.role with
  | tool =>
    dsimp only [appendBlock]
    cases contents : last.contentBlocks with
    | none => rfl
    | some blocks =>
      have other := alone (Or.inl role) blocks contents
      refine if_neg fun both => other ⟨both.1, fun user => ?_⟩
      rw [role] at user
      cases user
  | user =>
    dsimp only [appendBlock]
    cases contents : last.contentBlocks with
    | none => rfl
    | some blocks =>
      have other := alone (Or.inr role) blocks contents
      exact if_neg fun both => other ⟨both.1, fun _ => Option.isNone_iff_eq_none.mp both.2⟩
  | _ => rfl

lemma foldl_mergeStep_alone {last msg : Message R}
    (alone : msg.Merges → ∀ blocks, last.contentBlocks = some blocks →
      ¬ (last.role = .user ∧ (msg.role = .user → last.task = none)))
    (messages : List (Message R)) :
    (msg :: messages).foldl mergeStep [last] = (msg :: messages).foldl mergeStep [] ++ [last] := by
  rw [List.foldl_cons, mergeStep_alone alone, List.foldl_cons]
  have one : ∃ new, mergeStep [] msg = [new] := by
    unfold mergeStep appendBlock
    cases msg.role with
    | _ => exact ⟨_, rfl⟩
  obtain ⟨new, one⟩ := one
  rw [one, List.singleton_append, foldl_mergeStep_cons]

/-- The turn that begins with a message, and has some messages as its parts. -/
def turnOf (first : Message R) (parts : List (Message R)) : Message R :=
  { turnStart first with contentBlocks := some (parts.map mergedBlock) }

lemma turnStart_role (first : Message R) : (turnStart first).role = .user := by
  unfold turnStart
  cases first.role <;> rfl

lemma turnStart_task (first : Message R) :
    (turnStart first).task = none ↔ first.role = .tool ∨ first.task = none := by
  unfold turnStart
  cases role : first.role with
  | tool => exact iff_of_true rfl (Or.inl rfl)
  | _ => exact (or_iff_right nofun).symm

lemma joins_iff (first msg : Message R) :
    joins first msg = true ↔ msg.Merges ∧ (msg.role = .user → (turnStart first).task = none) := by
  rw [joins, decide_eq_true_eq, turnStart_task, Message.Merges]
  constructor
  · rintro (tool | ⟨user, free⟩)
    · refine ⟨Or.inl tool, fun user => ?_⟩
      rw [tool] at user
      cases user
    · exact ⟨Or.inr user, fun _ => free⟩
  · rintro ⟨tool | user, free⟩
    · exact Or.inl tool
    · exact Or.inr ⟨user, free user⟩

lemma mergeStep_joins {first msg : Message R} (parts : List (Message R))
    (joined : joins first msg = true) :
    mergeStep [turnOf first parts] msg = [turnOf first (parts ++ [msg])] := by
  obtain ⟨merges, free⟩ := (joins_iff first msg).mp joined
  have whole : (parts ++ [msg]).map mergedBlock = parts.map mergedBlock ++ [mergedBlock msg] := by
    rw [List.map_append, List.map_singleton]
  rw [turnOf, turnOf, whole]
  rcases merges with tool | user
  · rw [mergedBlock, mergeStep, tool]
    exact if_pos ⟨turnStart_role first, rfl⟩
  · rw [mergedBlock, mergeStep, user]
    exact if_pos ⟨turnStart_role first, Option.isNone_iff_eq_none.mpr (free user)⟩

lemma foldl_mergeStep_turn (first : Message R) (parts messages : List (Message R)) :
    messages.foldl mergeStep [turnOf first parts] =
      (messages.dropWhile (joins first)).foldl mergeStep [] ++
        [turnOf first (parts ++ messages.takeWhile (joins first))] := by
  induction messages generalizing parts with
  | nil => rw [List.takeWhile_nil, List.append_nil]; rfl
  | cons msg messages ih =>
    by_cases joined : joins first msg = true
    · rw [List.foldl_cons, mergeStep_joins parts joined, ih, List.dropWhile_cons_of_pos joined,
        List.takeWhile_cons_of_pos joined, List.append_assoc, List.singleton_append]
    · rw [List.dropWhile_cons_of_neg joined, List.takeWhile_cons_of_neg joined, List.append_nil]
      refine foldl_mergeStep_alone (fun merges _ _ both => joined ?_) messages
      exact (joins_iff first msg).mpr ⟨merges, both.2⟩

lemma mergeToolMessages_turn {msg : Message R} (merges : msg.Merges) (messages : List (Message R)) :
    mergeToolMessages (msg :: messages) =
      turnOf msg (msg :: messages.takeWhile (joins msg)) ::
        mergeToolMessages (messages.dropWhile (joins msg)) := by
  have start : mergeStep [] msg = [turnOf msg [msg]] := by
    rw [turnOf, turnStart, List.map_singleton, mergedBlock]
    rcases merges with tool | user
    · rw [mergeStep, tool]
      rfl
    · rw [mergeStep, user]
      rfl
  rw [mergeToolMessages, List.foldl_cons, start, foldl_mergeStep_turn, List.reverse_append,
    List.reverse_singleton, List.singleton_append, List.singleton_append]
  rfl

lemma mergeToolMessages_other {msg : Message R} (other : ¬ msg.Merges)
    (messages : List (Message R)) :
    mergeToolMessages (msg :: messages) = msg :: mergeToolMessages messages := by
  have start : mergeStep [] msg = [msg] := by
    unfold mergeStep
    cases role : msg.role with
    | tool => exact absurd (Or.inl role) other
    | user => exact absurd (Or.inr role) other
    | _ => rfl
  have rest : messages.foldl mergeStep [msg] = messages.foldl mergeStep [] ++ [msg] := by
    cases messages with
    | nil => rfl
    | cons next messages =>
      refine foldl_mergeStep_alone (fun _ _ _ both => other (Or.inr both.1)) messages
  rw [mergeToolMessages, List.foldl_cons, start, rest, List.reverse_append]
  rfl

/-! ## The order of the results -/

lemma refill_result {block first : Block R} (result : block.isToolResult)
    (blocks sorted : List (Block R)) :
    refill (block :: blocks) (first :: sorted) = first :: refill blocks sorted := if_pos result

lemma refill_other {block : Block R} (other : ¬ block.isToolResult)
    (blocks sorted : List (Block R)) :
    refill (block :: blocks) sorted = block :: refill blocks sorted := by
  cases sorted with
  | nil => exact if_neg other
  | cons first sorted => exact if_neg other

lemma filter_refill {p : Block R → Bool} (tool : ∀ b, p b = true → b.isToolResult = true)
    (blocks sorted : List (Block R))
    (length : sorted.length = (blocks.filter (·.isToolResult)).length) :
    (refill blocks sorted).filter p = sorted.filter p := by
  induction blocks generalizing sorted with
  | nil => rw [refill, List.eq_nil_of_length_eq_zero length]
  | cons block blocks ih =>
    by_cases result : block.isToolResult
    · rw [List.filter_cons_of_pos result, List.length_cons] at length
      cases sorted with
      | nil => cases length
      | cons first sorted =>
        rw [refill_result result, List.filter_cons, List.filter_cons,
          ih sorted (Nat.succ.inj length)]
    · rw [List.filter_cons_of_neg result] at length
      have none : ¬ p block = true := fun here => result (tool block here)
      rw [refill_other result, List.filter_cons_of_neg none, ih sorted length]

lemma places_refill (p : Block R → Prop) (blocks sorted : List (Block R))
    (length : sorted.length = (blocks.filter (·.isToolResult)).length) :
    List.Forall₂ (fun a b => (p b ↔ p a) ∧ (¬ p a → b = a)) blocks (refill blocks sorted) ↔
      List.Forall₂ (fun a b => (p b ↔ p a) ∧ (¬ p a → b = a)) (blocks.filter (·.isToolResult))
        sorted := by
  induction blocks generalizing sorted with
  | nil =>
    rw [refill, List.eq_nil_of_length_eq_zero length]
    rfl
  | cons block blocks ih =>
    by_cases result : block.isToolResult
    · rw [List.filter_cons_of_pos result] at length ⊢
      cases sorted with
      | nil => cases length
      | cons first sorted =>
        rw [refill_result result, List.forall₂_cons, List.forall₂_cons,
          ih sorted (Nat.succ.inj length)]
    · rw [List.filter_cons_of_neg result] at length ⊢
      rw [refill_other result, List.forall₂_cons, ih sorted length]
      exact and_iff_right ⟨Iff.rfl, fun _ => rfl⟩

lemma sortedAmong_refill {p : Block R → Bool} {key : Block R → Nat}
    (tool : ∀ b, p b = true → b.isToolResult = true) (blocks sorted : List (Block R))
    (length : sorted.length = (blocks.filter (·.isToolResult)).length) :
    SortedAmong (p ·) key blocks (refill blocks sorted) ↔
      SortedAmong (p ·) key (blocks.filter (·.isToolResult)) sorted := by
  have same : (blocks.filter (·.isToolResult)).filter p = blocks.filter p := by
    rw [List.filter_filter]
    refine List.filter_congr fun b _ => ?_
    rw [Bool.and_eq_left_iff_imp]
    exact tool b
  have places := places_refill (p ·) blocks sorted length
  have kept := filter_refill tool blocks sorted length
  constructor
  · intro among
    have sorted := among.sorted
    refine ⟨places.mp among.places, ?_⟩
    simp only [Bool.decide_eq_true] at sorted ⊢
    rw [same, ← sorted, kept]
  · intro among
    have sorted := among.sorted
    refine ⟨places.mpr among.places, ?_⟩
    simp only [Bool.decide_eq_true] at sorted ⊢
    rw [kept, sorted, same]

variable {calls : List ToolCall} {order : OrderedDict Text Nat} {blocks : List (Block R)}

lemma calledBy_result (b : Block R) (called : b.calledBy calls = true) : b.isToolResult = true := by
  cases b with
  | toolResult => rfl
  | _ => cases called

lemma placeIn_other (b : Block R) (other : ¬ b.calledBy calls = true) : b.placeIn calls = 0 := by
  cases b with
  | toolResult toolUseId content =>
    have none : (toolCallOrder calls).get toolUseId = none :=
      Option.not_isSome_iff_eq_none.mp other
    rw [Block.placeIn, Block.callOrder, none, Option.getD_none]
  | _ => rfl

lemma not_calledBy_nil (b : Block R) : ¬ b.calledBy [] = true := by
  cases b with
  | toolResult => exact Bool.false_ne_true
  | _ => exact Bool.false_ne_true

lemma callOrder_of_empty (empty : order.entries = []) (b : Block R) : b.callOrder order = 0 := by
  have none : ∀ id, order.get id = none := by
    intro id
    cases found : order.get id with
    | none => rfl
    | some place =>
      have member := OrderedDict.get_eq_some.mp found
      rw [empty] at member
      cases member
  cases b with
  | toolResult toolUseId content => rw [Block.callOrder, none, Option.getD_none]
  | _ => rfl

lemma pairwise_of_short {α : Type} {l : List α} {r : α → α → Prop} (short : l.length ≤ 1) :
    l.Pairwise r := by
  match l, short with
  | [], _ => exact .nil
  | [a], _ => exact List.pairwise_singleton ..

lemma sortedAmong_self (unsorted : (blocks.filter (·.isToolResult)).length ≤ 1 ∨
      ∀ b : Block R, b.placeIn calls = 0) :
    SortedAmong (Block.calledBy calls ·) (Block.placeIn calls) blocks blocks := by
  refine ⟨places_refl blocks, (sortBy_of_pairwise ?_).symm⟩
  rcases unsorted with short | flat
  · refine pairwise_of_short (Nat.le_trans ?_ short)
    simp only [Bool.decide_eq_true]
    rw [← List.countP_eq_length_filter, ← List.countP_eq_length_filter]
    exact List.countP_mono_left fun b _ called => calledBy_result b called
  · refine List.pairwise_iff_forall_sublist.mpr fun {a b} _ => ?_
    rw [flat a]
    exact Nat.zero_le _

lemma sortedAmong_sortBlocks_iff (known : calls = [] ∨ toolCallOrder calls = order)
    (blocks : List (Block R)) :
    SortedAmong (Block.calledBy calls ·) (Block.placeIn calls) blocks (sortBlocks order blocks) ↔
      (blocks.filter (·.isToolResult)).Pairwise fun a b =>
        b.calledBy calls ∨ a.callOrder order ≤ b.callOrder order := by
  by_cases sorts : 1 < (blocks.filter (·.isToolResult)).length ∧ order.entries ≠ []
  · have sorted : sortBlocks order blocks =
        refill blocks (sortBy (Block.callOrder order) (blocks.filter (·.isToolResult))) :=
      if_pos sorts
    rw [sorted, sortedAmong_refill calledBy_result _ _ (sortBy_perm ..).length_eq]
    rcases known with rfl | rfl
    · -- nothing should move
      have same : SortedAmong (Block.calledBy [] ·) (Block.placeIn [])
          (blocks.filter (·.isToolResult))
          (sortBy (Block.callOrder order) (blocks.filter (·.isToolResult))) ↔
          sortBy (Block.callOrder order) (blocks.filter (·.isToolResult)) =
            blocks.filter (·.isToolResult) := by
        refine ⟨fun among => ?_, fun eq => ?_⟩
        · have equal := among.places.imp fun a b related =>
            (related.2 (not_calledBy_nil a)).symm
          rw [List.forall₂_eq_eq_eq] at equal
          exact equal.symm
        · rw [eq]
          exact sortedAmong_self (Or.inr fun b => placeIn_other b (not_calledBy_nil b))
      rw [same, sortBy_eq_self_iff]
      refine List.Pairwise.iff fun a b => (or_iff_right (not_calledBy_nil b)).symm
    · refine (sortedAmong_sortBy_iff placeIn_other).trans (List.Pairwise.iff fun a b => ?_)
      refine or_congr_right' fun other => ?_
      have zero : b.callOrder (toolCallOrder calls) = 0 := placeIn_other b other
      rw [zero, Nat.le_zero]
      rfl
  · have kept : sortBlocks order blocks = blocks := if_neg sorts
    have unsorted : (blocks.filter (·.isToolResult)).length ≤ 1 ∨ order.entries = [] := by
      rcases not_and_or.mp sorts with short | empty
      · exact Or.inl (Nat.le_of_not_lt short)
      · exact Or.inr (not_ne_iff.mp empty)
    rw [kept]
    rcases unsorted with short | empty
    · exact iff_of_true (sortedAmong_self (Or.inl short)) (pairwise_of_short short)
    · have flat : ∀ b : Block R, b.placeIn calls = 0 := by
        rcases known with rfl | rfl
        · exact fun b => placeIn_other b (not_calledBy_nil b)
        · exact callOrder_of_empty empty
      refine iff_of_true (sortedAmong_self (Or.inr flat)) ?_
      refine List.pairwise_iff_forall_sublist.mpr fun {a b} _ => Or.inr ?_
      rw [callOrder_of_empty empty]
      exact Nat.zero_le _

/-! ## Which conversations are kept -/

lemma follows_other_iff {msg : Message R} {messages out : List (Message R)} (other : ¬ msg.Merges) :
    Follows calls (msg :: messages) (msg :: out) ↔ Follows (callsAfter calls msg) messages out := by
  refine ⟨fun follows => ?_, .other other⟩
  generalize eq : msg :: messages = l at follows
  cases follows with
  | other _ rest =>
    cases eq
    exact rest
  | turn nonempty merges =>
    next parts more _ _ =>
    obtain ⟨first, parts, rfl⟩ := List.exists_cons_of_ne_nil nonempty
    cases eq
    exact absurd (merges msg List.mem_cons_self) other

lemma follows_turn_iff {parts messages out : List (Message R)} {turn : Message R}
    {blocks : List (Block R)} (nonempty : parts ≠ []) (merges : ∀ msg ∈ parts, msg.Merges)
    (role : turn.role = .user) (contents : turn.contentBlocks = some blocks)
    (length : blocks.length = parts.length) :
    Follows calls (parts ++ messages) (turn :: out) ↔
      (SortedAmong (Block.calledBy calls ·) (Block.placeIn calls) (parts.map mergedBlock) blocks ∧
        ∀ msg ∈ parts, msg.role = .user → Attached msg turn) ∧ Follows calls messages out := by
  refine ⟨fun follows => ?_, fun all => .turn nonempty merges role contents all.1.1 all.1.2 all.2⟩
  generalize eq : parts ++ messages = l at follows
  cases follows with
  | other other =>
    obtain ⟨first, parts, rfl⟩ := List.exists_cons_of_ne_nil nonempty
    cases eq
    exact absurd (merges _ List.mem_cons_self) other
  | turn nonempty' merges' role' contents' sorted fields rest =>
    next parts' messages' blocks' =>
    obtain rfl : blocks = blocks' := Option.some.inj (contents.symm.trans contents')
    -- the turn has as many blocks as it has parts
    have same : parts.length = parts'.length := by
      have count := sorted.places.length_eq
      rw [List.length_map] at count
      rw [← length, count]
    obtain ⟨rfl, rfl⟩ := List.append_inj eq same
    exact ⟨⟨sorted, fields⟩, rest⟩

lemma sortStep_unmerged {msg : Message R} (other : ¬ msg.Merges) :
    (sortStep order msg).2 = msg := by
  unfold sortStep
  cases role : msg.role with
  | user => exact absurd (Or.inr role) other
  | _ => rfl

lemma known_after (known : calls = [] ∨ toolCallOrder calls = order) (msg : Message R) :
    callsAfter calls msg = [] ∨ toolCallOrder (callsAfter calls msg) = (sortStep order msg).1 := by
  unfold callsAfter sortStep
  cases msg.role with
  | assistant =>
    rw [if_pos rfl]
    dsimp only
    by_cases none : msg.toolCalls = []
    · exact Or.inl none
    · rw [if_neg none]
      exact Or.inr rfl
  | _ => exact known

lemma sortBlocks_length (order : OrderedDict Text Nat) (blocks : List (Block R)) :
    (sortBlocks order blocks).length = blocks.length := by
  have refilled : ∀ (blocks sorted : List (Block R)),
      (refill blocks sorted).length = blocks.length := by
    intro blocks
    induction blocks with
    | nil => exact fun _ => rfl
    | cons block blocks ih =>
      intro sorted
      unfold refill
      split_ifs
      · cases sorted with
        | nil => exact congrArg Nat.succ (ih [])
        | cons first sorted => exact congrArg Nat.succ (ih sorted)
      · exact congrArg Nat.succ (ih sorted)
  unfold sortBlocks
  dsimp only
  split_ifs
  · exact refilled ..
  · rfl

lemma turnKept_iff (known : calls = [] ∨ toolCallOrder calls = order) (first : Message R)
    (parts : List (Message R)) :
    TurnKept calls order first parts ↔
      SortedAmong (Block.calledBy calls ·) (Block.placeIn calls) (parts.map mergedBlock)
        (sortBlocks order (parts.map mergedBlock)) ∧
      ∀ msg ∈ parts, msg.role = .user → Attached msg (sortStep order (turnOf first parts)).2 := by
  have role : (turnOf first parts).role = .user := turnStart_role first
  have attached (msg : Message R) :
      Attached msg (sortStep order (turnOf first parts)).2 ↔ Attached msg (turnStart first) := by
    unfold sortStep
    rw [role]
    exact ⟨fun ⟨task, woEos, mask⟩ => ⟨task, woEos, mask⟩,
      fun ⟨task, woEos, mask⟩ => ⟨task, woEos, mask⟩⟩
  rw [sortedAmong_sortBlocks_iff known]
  simp only [attached]
  exact ⟨fun kept => ⟨kept.results, kept.fields⟩, fun both => ⟨both.2, both.1⟩⟩

lemma follows_iff {n : Nat} {messages : List (Message R)} (le : messages.length ≤ n)
    (known : calls = [] ∨ toolCallOrder calls = order) :
    Follows calls messages (sortFrom order (mergeToolMessages messages)) ↔
      Kept calls order messages := by
  induction n generalizing calls order messages with
  | zero =>
    obtain rfl := List.eq_nil_of_length_eq_zero (Nat.le_zero.mp le)
    rw [Kept]
    exact iff_of_true .nil trivial
  | succ n ih =>
    cases messages with
    | nil =>
      rw [Kept]
      exact iff_of_true .nil trivial
    | cons msg messages =>
      rw [List.length_cons, Nat.succ_le_succ_iff] at le
      rw [Kept]
      by_cases merges : msg.Merges
      · have joined : ∀ part ∈ msg :: messages.takeWhile (joins msg), part.Merges :=
          List.forall_mem_cons.mpr ⟨merges, fun part member =>
            ((joins_iff msg part).mp (List.all_eq_true.mp List.all_takeWhile part member)).1⟩
        have split : msg :: messages = (msg :: messages.takeWhile (joins msg)) ++
            messages.dropWhile (joins msg) := by
          rw [List.cons_append, List.takeWhile_append_dropWhile]
        have role : (turnOf msg (msg :: messages.takeWhile (joins msg))).role = .user :=
          turnStart_role msg
        have order_eq : (sortStep order (turnOf msg (msg :: messages.takeWhile (joins msg)))).1 =
            order := by
          unfold sortStep
          rw [role]
        have short := (List.dropWhile_suffix (joins msg) (l := messages)).length_le.trans le
        rw [if_pos merges, mergeToolMessages_turn merges, sortFrom, order_eq, ← ih short known,
          turnKept_iff known]
        nth_rewrite 1 [split]
        refine follows_turn_iff (List.cons_ne_nil _ _) joined ?_ ?_ ?_
        · unfold sortStep
          rw [role]
        · unfold sortStep
          rw [role]
          rfl
        · rw [sortBlocks_length, List.length_map]
      · rw [if_neg merges, mergeToolMessages_other merges, sortFrom, sortStep_unmerged merges,
          follows_other_iff merges, ih le (known_after known msg)]

/-- A conversation is kept exactly if each of its turns is. -/
theorem preserved_iff (messages : List (Message R)) :
    Preserved messages ↔ Kept [] .empty messages :=
  follows_iff le_rfl (Or.inl rfl)

/-- A text. -/
def greeting : Message Unit where
  role := .user
  content := .value (.text (text "hi"))

/-- A request for a title. -/
def titleRequest : Message Unit where
  role := .user
  content := .value (.text (text "title?"))
  task := some (text "title")

/-- Behind the text, the request joins its turn and loses its task. -/
theorem task_lost : ¬ Preserved [greeting, titleRequest] := by
  intro kept
  have merges : greeting.Merges := Or.inr rfl
  rw [Preserved, sortToolResultsByCallOrder, follows_iff le_rfl (Or.inl rfl), Kept,
    if_pos merges] at kept
  have attached := kept.1.fields titleRequest (.tail _ List.mem_cons_self) rfl
  have task : none = some (text "title") := attached.task nofun
  cases task

end PocketMoE.Encoding
