import PocketMoE.Server.StreamingDecoder

/-!
# What a stream sends of a message

`decoder_iff` says when a stream of `_StreamingDecoder` has all of the message that `final_message`
returns, for any tokenizer whose text of some tokens, but for replacement characters at its end, is the
start of the text of more tokens. No append may end inside `</think>` or inside the end mark, and
without tool calls the content may not end with a replacement character or with what is held back
(`Delivered`).
-/

namespace PocketMoE.Streaming
open PocketMoE.Lib PocketMoE.Encoding

/-- Where the content of a completion begins. -/
def contentStart (mode : ThinkingMode) (whole : Text) : Nat :=
  match mode with
  | .chat => 0
  | .thinking =>
    match firstAt thinkingEndToken whole with
    | some p => p + thinkingEndToken.length
    | none => 0

/-- The content of a completion, without the end mark. -/
def contentPart (mode : ThinkingMode) (whole : Text) : Text :=
  (stripSpecialEos whole).drop (contentStart mode whole)

/-- A completion has no tool calls. -/
def Plain (mode : ThinkingMode) (whole : Text) : Prop :=
  firstAt toolCallsStartToken (whole.drop (contentStart mode whole)) = none

/-- What the calls of `append` may decode if all of the message is to be sent. -/
structure Delivered (decode : List Int → Text) (mode : ThinkingMode) (calls : List (List Int)) :
    Prop where
  /-- No call ends inside `</think>`. -/
  reasoning : ∀ decoded ∈ decodings decode [] calls,
    ¬ Splits (contentStart mode (decode calls.flatten)) decoded
  /-- Without tool calls, no call ends inside the end mark. -/
  ends : Plain mode (decode calls.flatten) → ∀ decoded ∈ decodings decode [] calls,
    decoded.length ≤ (stripSpecialEos (decode calls.flatten)).length
  /-- Without tool calls, the content does not end with a replacement character. -/
  solid : Plain mode (decode calls.flatten) →
    (contentPart mode (decode calls.flatten)).getLast? ≠ some 0xFFFD
  /-- Without tool calls, the content does not end with the start of the mark of a block of them. -/
  shown : Plain mode (decode calls.flatten) → ∀ n, 0 < n → n < toolCallsStartToken.length →
    ¬ toolCallsStartToken.take n <:+ contentPart mode (decode calls.flatten)
  /-- Without a call, there is nothing to send. -/
  called : calls = [] → contentStart mode (decode []) ≤ thinkingEndToken.length ∧
    ((decode []).drop (contentStart mode (decode [])) = eosToken ∨
      toolCallsStartToken <+: (decode []).drop (contentStart mode (decode [])))

variable {decode : List Int → Text} {mode : ThinkingMode} {whole : Text} {offset : Nat}

lemma contentStart_eq (at' : Offset whole mode offset) : contentStart mode whole = offset := by
  cases at' with
  | chat => rfl
  | thinking first => rw [contentStart, first]

/-! ## The end of the reasoning -/

lemma Splits.next {decoded : Text} {p : Nat} (here : At thinkingEndToken whole p)
    (splits : Splits (p + thinkingEndToken.length) decoded) :
    ∃ c rest, whole.drop decoded.length = c :: rest ∧ c ∈ thinkingEndToken.tail := by
  obtain ⟨begun, inside⟩ := splits
  obtain ⟨before, after, rfl, rfl⟩ := at_iff.mp here
  obtain ⟨k, eq⟩ := Nat.exists_eq_add_of_lt (show before.length < decoded.length by omega)
  have split : (before ++ (thinkingEndToken ++ after)).drop decoded.length =
      thinkingEndToken.tail.drop k ++ after := by
    rw [eq, Nat.add_assoc, ← List.drop_drop, List.drop_left, Nat.add_comm k 1, ← List.drop_drop,
      List.drop_append_of_le_length (by decide), List.drop_one,
      List.drop_append_of_le_length (by rw [List.length_tail]; omega)]
  have some : thinkingEndToken.tail.drop k ≠ [] := by
    refine List.ne_nil_of_length_pos ?_
    rw [List.length_drop, List.length_tail]
    omega
  obtain ⟨c, rest, first⟩ := List.exists_cons_of_ne_nil some
  refine ⟨c, rest ++ after, by rw [split, first, List.cons_append], ?_⟩
  exact List.mem_of_mem_drop (first ▸ List.mem_cons_self)

lemma Splits.not_eos (monotone : Monotone decode) {tokenIds more : List Int}
    (at' : Offset (decode (tokenIds ++ more)) mode offset)
    (splits : Splits offset (decodeAll decode tokenIds)) :
    decodeAll decode tokenIds = rstrip (decode tokenIds) := by
  cases at' with
  | chat => exact absurd splits.2 (Nat.not_lt_zero _)
  | thinking first =>
    obtain ⟨c, rest, next, member⟩ := splits.next (firstAt_eq_some.mp first).1
    unfold decodeAll at next ⊢
    by_cases eos : eosToken <:+ decode tokenIds
    · -- behind the text stands what has been taken off
      obtain ⟨front, eq⟩ := eos
      have starts := monotone tokenIds more
      rw [← eq, solid_eos] at starts
      obtain ⟨after, whole⟩ := starts
      rw [← eq, stripSpecialEos_append, ← whole] at next
      have split : rstrip front ++ front.rtakeWhile (· = 0xFFFD) = front :=
        List.rdropWhile_append_rtakeWhile
      nth_rewrite 2 [← split] at next
      rw [List.append_assoc, List.append_assoc, List.drop_left] at next
      have other : c ≠ 0xFFFD ∧ c ≠ code '<' :=
        forall_code (P := fun c => c ≠ 0xFFFD ∧ c ≠ code '<') (by decide) c member
      cases replaced : front.rtakeWhile (· = 0xFFFD) with
      | nil =>
        have begins : eosToken = code '<' :: eosToken.tail := by decide
        rw [replaced, begins] at next
        exact absurd (List.cons.inj next).1.symm other.2
      | cons d ds =>
        have here := List.mem_rtakeWhile_imp (replaced ▸ List.mem_cons_self (a := d) (l := ds))
        rw [decide_eq_true_eq] at here
        rw [replaced] at next
        exact absurd ((List.cons.inj next).1.symm.trans here) other.1
    · rw [stripSpecialEos, if_neg eos]

lemma Splits.longest (monotone : Monotone decode) {tokenIds new more : List Int}
    (at' : Offset (decode (tokenIds ++ new ++ more)) mode offset)
    (splits : Splits offset (decodeAll decode (tokenIds ++ new))) :
    (decodeAll decode tokenIds).length ≤ (decodeAll decode (tokenIds ++ new)).length := by
  rw [splits.not_eos monotone at']
  exact ((solid_rstrip _).prefix_rstrip (decodeAll_starts monotone tokenIds new)).length_le

lemma pairwise_decodings (before : List Int) (calls : List (List Int)) :
    (decodings decode before calls).Pairwise fun earlier decoded => ∃ tokenIds new more,
      earlier = decodeAll decode tokenIds ∧ decoded = decodeAll decode (tokenIds ++ new) ∧
        tokenIds ++ new ++ more = before ++ calls.flatten := by
  induction calls generalizing before with
  | nil => exact List.Pairwise.nil
  | cons tokenIds calls ih =>
    rw [decodings, List.flatten_cons, ← List.append_assoc]
    refine List.Pairwise.cons (fun decoded later => ?_) (ih _)
    obtain ⟨new, more, eq, split⟩ := mem_decodings later
    refine ⟨before ++ tokenIds, new, more, rfl, eq, ?_⟩
    rw [List.append_assoc, split]

/-! ## The last text -/

variable {content : Text} {tokenIds : List Int}

lemma solid_append {s t : Text} (solid : Solid s) (solid' : Solid t) : Solid (s ++ t) := by
  rcases List.eq_nil_or_concat t with rfl | ⟨front, c, rfl⟩
  · rwa [List.append_nil]
  · rw [List.concat_eq_append] at solid' ⊢
    have last := solid_iff.mp solid' (by simp)
    rw [List.getLast_append_singleton] at last
    rw [← List.append_assoc]
    exact solid_concat last

lemma solid_iff_getLast {s : Text} : Solid s ↔ s.getLast? ≠ some 0xFFFD := by
  rcases List.eq_nil_or_concat s with rfl | ⟨front, c, rfl⟩
  · exact iff_of_true rfl nofun
  · rw [solid_iff, List.concat_eq_append, List.getLast?_concat]
    simp

lemma Solid.of_append {s t : Text} (solid : Solid (s ++ t)) : Solid t := by
  refine solid_iff.mpr fun some => ?_
  have last := solid_iff.mp solid (by simp [some])
  rwa [List.getLast_append_of_ne_nil _ some] at last

lemma solid_before (at' : Offset whole mode offset) : Solid (whole.take offset) := by
  cases at' with
  | chat => rfl
  | @thinking p first =>
    obtain ⟨before, after, rfl, rfl⟩ := at_iff.mp (firstAt_eq_some.mp first).1
    have last : thinkingEndToken = text "</think" ++ [code '>'] := by decide
    rw [← List.append_assoc, ← List.length_append, List.take_left, last, ← List.append_assoc]
    exact solid_concat (by decide)

lemma prefix_of_calls (front rest : Text)
    (eq : decode tokenIds = front ++ (toolCallsStartToken ++ rest)) :
    front ++ toolCallsStartToken.dropLast <+: decodeAll decode tokenIds := by
  obtain ⟨head, mark⟩ : ∃ head, toolCallsStartToken = head ++ [code 'l', code 's'] :=
    ⟨toolCallsStartToken.dropLast.dropLast, by decide⟩
  have start : front ++ toolCallsStartToken.dropLast = (front ++ head) ++ [code 'l'] := by
    rw [mark, List.dropLast_append_of_ne_nil (by simp), ← List.append_assoc]
    rfl
  have whole : decode tokenIds = (front ++ head) ++ code 'l' :: code 's' :: rest := by
    rw [eq, mark]
    simp only [List.append_assoc, List.cons_append, List.nil_append]
  have starts : (front ++ head) ++ [code 'l'] <+: decode tokenIds := by
    rw [whole]
    refine ⟨code 's' :: rest, ?_⟩
    rw [List.append_assoc, List.singleton_append]
  rw [start]
  refine (solid_concat (by decide)).prefix_rstrip ?_
  unfold stripSpecialEos
  split_ifs with eos
  · obtain ⟨before, split⟩ := eos
    have here : At eosToken (decode tokenIds) before.length :=
      at_iff.mpr ⟨before, [], by rw [← split, List.append_nil], rfl⟩
    rw [whole] at here
    -- the end mark has no `l`
    have behind : (front ++ head).length < before.length := by
      rcases here.separator (by decide) with inside | ⟨behind, -⟩
      · have le := inside.length_le
        rw [← List.length_append, split, whole] at le
        simp only [List.length_append, List.length_cons] at le
        omega
      · exact behind
    rw [← split, List.length_append, Nat.add_sub_cancel, List.take_left]
    refine List.prefix_of_prefix_length_le starts (split ▸ List.prefix_append ..) ?_
    rwa [List.length_append]
  · exact starts

lemma last_of_calls (first : firstAt toolCallsStartToken ((decode tokenIds).drop offset) =
      some content.length) (starts : content <+: (decode tokenIds).drop offset) :
    (decode tokenIds).take offset ++ content ++ toolCallsStartToken.dropLast <+:
      decodeAll decode tokenIds := by
  obtain ⟨before, after, eq, length⟩ := at_iff.mp (firstAt_eq_some.mp first).1
  have same : content = before :=
    List.IsPrefix.eq_of_length (List.prefix_of_prefix_length_le starts
      (eq ▸ List.prefix_append ..) length.ge) length.symm
  refine prefix_of_calls _ after ?_
  rw [same, List.append_assoc, ← eq, List.take_append_drop]

lemma strip_of_plain (eq : (decode tokenIds).drop offset = content ++ eosToken) :
    stripSpecialEos (decode tokenIds) = (decode tokenIds).take offset ++ content := by
  have split := List.take_append_drop offset (decode tokenIds)
  rw [eq, ← List.append_assoc] at split
  nth_rewrite 1 [← split]
  exact stripSpecialEos_append _

lemma last_of_body (at' : Offset (decode tokenIds) mode offset)
    (body : Body ((decode tokenIds).drop offset) content) :
    (decode tokenIds).take offset <+: decodeAll decode tokenIds := by
  cases body with
  | plain none eq =>
    refine (solid_before at').prefix_rstrip ?_
    rw [strip_of_plain eq]
    exact List.prefix_append ..
  | calls first starts =>
    have called := last_of_calls first starts
    rw [List.append_assoc] at called
    exact (List.prefix_append ..).trans called

/-! ## What is shown at the end -/

variable {front emitted : Text}

lemma visible_of_calls (first : firstAt toolCallsStartToken (whole.drop offset) = some content.length)
    (starts : content <+: whole.drop offset) (le : offset ≤ whole.length)
    (starts' : emitted <+: whole)
    (decoded : whole.take offset ++ content ++ toolCallsStartToken.dropLast <+: emitted) :
    visible toolCallsStartToken (emitted.drop offset) = content := by
  have long := decoded.length_le
  rw [List.length_append, List.length_append, List.length_take_of_le le, List.length_dropLast]
    at long
  have nonempty : toolCallsStartToken ≠ [] := by decide
  have pos := List.length_pos_of_ne_nil nonempty
  rw [visible_cut nonempty first (starts'.drop offset) (by rw [List.length_drop]; omega)]
  exact (List.prefix_iff_eq_take.mp starts).symm

lemma visible_of_plain (solid : Solid front) (starts : emitted <+: front ++ (content ++ eosToken))
    (last : rstrip (front ++ content) <+: emitted) (solid' : Solid emitted) :
    visible toolCallsStartToken (emitted.drop front.length) = content ↔
      emitted.length ≤ (front ++ content).length ∧ Solid content ∧
        visible toolCallsStartToken content = content := by
  have within : front <+: emitted := (solid.prefix_rstrip (List.prefix_append ..)).trans last
  obtain ⟨x, rfl⟩ := within
  rw [List.drop_left]
  have starts := (List.prefix_append_right_inj front).mp starts
  rcases Nat.lt_or_ge (front ++ content).length (front ++ x).length with longer | le
  · -- a part of the end mark is shown
    refine iff_of_false (fun shown => ?_) fun all => absurd longer (Nat.not_lt.mpr all.1)
    rw [List.length_append, List.length_append, Nat.add_lt_add_iff_left] at longer
    obtain ⟨e, rfl⟩ := List.prefix_of_prefix_length_le (List.prefix_append ..) starts
      (Nat.le_of_lt longer)
    obtain ⟨k, agrees, -, eq⟩ := visible_least toolCallsStartToken (content ++ e)
    have length := congrArg List.length (eq.symm.trans shown)
    rw [List.length_take_of_le agrees.1] at length
    have split := agrees.2
    rw [length, List.drop_left] at split
    have begins : eosToken = code '<' :: eosToken.tail := by decide
    have begins' : toolCallsStartToken = code '\n' :: toolCallsStartToken.tail := by decide
    have inside := (List.prefix_append_right_inj content).mp starts
    cases e with
    | nil => exact absurd longer (by simp)
    | cons c e =>
      rw [begins, List.cons_prefix_cons] at inside
      rw [begins', List.cons_prefix_cons, List.cons_prefix_cons, inside.1] at split
      rcases split with ⟨same, -⟩ | ⟨same, -⟩
      · exact absurd same (by decide)
      · exact absurd same (by decide)
  · have inside : front ++ x <+: front ++ content := by
      refine List.prefix_of_prefix_length_le ?_ (List.prefix_append _ eosToken) le
      rwa [List.append_assoc, List.prefix_append_right_inj]
    have eq : front ++ x = rstrip (front ++ content) :=
      (solid'.prefix_rstrip inside).eq_of_length_le last.length_le
    rw [List.prefix_append_right_inj] at inside
    constructor
    · intro shown
      have all : content.length ≤ x.length := by
        have length := (visible_prefix_self toolCallsStartToken x).length_le
        rwa [shown] at length
      obtain rfl := inside.eq_of_length_le all
      exact ⟨le, solid'.of_append, shown⟩
    · rintro ⟨-, solid'', shown⟩
      rw [solid_append solid solid''] at eq
      rw [List.append_cancel_left eq, shown]

/-! ## The whole stream -/

variable {calls : List (List Int)} {st : StreamingDecoder} {deltas : List Delta}

lemma sent_new (mode : ThinkingMode) (whole : Text) (offset : Nat) : Sent mode whole offset {} [] := by
  refine ⟨List.nil_prefix, ⟨?_, ?_, ?_⟩, rfl, rfl, List.prefix_rfl, fun _ => rfl, fun _ => rfl, ?_⟩
  · rw [List.drop_nil]
    decide
  · rw [List.drop_nil]
    intro p here
    exact absurd here (by rw [show firstAt toolCallsStartToken [] = none by decide]; nofun)
  · rw [List.drop_nil]
    exact (List.prefix_nil.mp (visible_prefix_self toolCallsStartToken [])).symm
  · intro le
    exact Nat.le_trans le (Nat.zero_le _)

lemma reasoning_iff {texts : List Text} (at' : Offset whole mode offset)
    (sent : Sent mode whole offset st deltas) (ran : Ran offset {} texts st)
    (last : whole.take offset <+: st.emittedText)
    (ordered : texts.Pairwise fun earlier decoded => Splits offset decoded →
      earlier.length ≤ decoded.length) :
    st.reasoningEmitted = whole.take (offset - thinkingEndToken.length) ↔
      ∀ decoded ∈ texts, ¬ Splits offset decoded := by
  have le := at'.le
  have length : (whole.take (offset - thinkingEndToken.length)).length =
      offset - thinkingEndToken.length := List.length_take_of_le (by omega)
  constructor
  · intro eq decoded member splits
    have lt := ran.split ordered decoded member splits (Nat.zero_le _)
    rw [eq, length] at lt
    exact Nat.lt_irrefl _ lt
  · intro clear
    have upTo := ran.clean clear (Nat.zero_le _)
    have longer := last.length_le
    rw [List.length_take_of_le le] at longer
    have behind := sent.behind longer
    have same : st.reasoningEmitted.length = offset - thinkingEndToken.length := by omega
    rw [← same]
    exact List.prefix_iff_eq_take.mp (sent.reasoning.trans sent.starts)

lemma contentPart_eq (at' : Offset (decode tokenIds) mode offset)
    (body : Body ((decode tokenIds).drop offset) content) (plain : Plain mode (decode tokenIds)) :
    contentPart mode (decode tokenIds) = content ∧ firstAt toolCallsStartToken content = none := by
  have start := contentStart_eq at'
  cases body with
  | plain none eq =>
    have length : ((decode tokenIds).take offset).length = offset := List.length_take_of_le at'.le
    constructor
    · rw [contentPart, start, strip_of_plain eq]
      nth_rewrite 1 [← length]
      exact List.drop_left
    · rw [eq, firstAt_eq_none] at none
      exact firstAt_eq_none.mpr fun p here => none p (here.append _)
  | calls first starts =>
    rw [Plain, start, first] at plain
    cases plain

lemma nil_content_iff {s : Text} (body : Body s content) :
    [] = content ↔ s = eosToken ∨ toolCallsStartToken <+: s := by
  cases body with
  | plain none eq =>
    constructor
    · rintro rfl
      exact Or.inl eq
    · rintro (only | starts)
      · rw [eq, List.append_left_eq_self] at only
        exact only.symm
      · exact absurd (at_zero.mpr starts) (firstAt_eq_none.mp none 0)
  | calls first starts =>
    obtain ⟨here, before⟩ := firstAt_eq_some.mp first
    constructor
    · rintro rfl
      exact Or.inr (at_zero.mp here)
    · rintro (rfl | starts)
      · exact absurd here not_at_eos
      · refine (List.eq_nil_of_length_eq_zero ?_).symm
        refine Nat.eq_zero_of_not_pos fun pos => ?_
        exact before 0 pos (at_zero.mpr starts)

lemma content_iff {texts : List Text} (at' : Offset (decode tokenIds) mode offset)
    (body : Body ((decode tokenIds).drop offset) content) (ran : Ran offset {} texts st)
    (starts : st.emittedText <+: decode tokenIds)
    (last : decodeAll decode tokenIds <+: st.emittedText) (solid : Solid st.emittedText) :
    visible toolCallsStartToken (st.emittedText.drop offset) = content ↔
      (Plain mode (decode tokenIds) →
        ∀ decoded ∈ texts, decoded.length ≤ (stripSpecialEos (decode tokenIds)).length) ∧
      (Plain mode (decode tokenIds) →
        (contentPart mode (decode tokenIds)).getLast? ≠ some 0xFFFD) ∧
      (Plain mode (decode tokenIds) → ∀ n, 0 < n → n < toolCallsStartToken.length →
        ¬ toolCallsStartToken.take n <:+ contentPart mode (decode tokenIds)) := by
  have start := contentStart_eq at'
  by_cases plain : Plain mode (decode tokenIds)
  · obtain ⟨part, none⟩ := contentPart_eq at' body plain
    have length : ((decode tokenIds).take offset).length = offset := List.length_take_of_le at'.le
    have upTo : st.emittedText.length ≤ (stripSpecialEos (decode tokenIds)).length ↔
        ∀ decoded ∈ texts, decoded.length ≤ (stripSpecialEos (decode tokenIds)).length := by
      constructor
      · exact fun le decoded member => (ran.longest decoded member).trans le
      · intro all
        rcases List.mem_cons.mp ran.member with none | member
        · rw [none]
          exact Nat.zero_le _
        · exact all _ member
    cases body with
    | plain _ eq =>
      rw [decodeAll, strip_of_plain eq] at last
      have whole : st.emittedText <+: (decode tokenIds).take offset ++ (content ++ eosToken) := by
        rwa [← eq, List.take_append_drop]
      have shown := visible_of_plain (solid_before at') whole last solid
      rw [length, ← strip_of_plain eq, upTo, solid_iff_getLast, visible_eq_self none] at shown
      rw [shown, part]
      exact ⟨fun all => ⟨fun _ => all.1, fun _ => all.2.1, fun _ => all.2.2⟩,
        fun all => ⟨all.1 plain, all.2.1 plain, all.2.2 plain⟩⟩
    | calls first _ =>
      rw [Plain, start, first] at plain
      cases plain
  · cases body with
    | plain none _ =>
      rw [← start] at none
      exact absurd none plain
    | calls first starts' =>
      refine iff_of_true ?_ ⟨fun no => absurd no plain, fun no => absurd no plain,
        fun no => absurd no plain⟩
      exact visible_of_calls first starts' at'.le starts ((last_of_calls first starts').trans last)

/-- A stream has all of the message that is returned in the end, and no more, exactly if no call of
`append` ends inside a mark and nothing is left at the end of the content. -/
theorem decoder_iff (monotone : Monotone decode) {parsed : Parsed}
    (ok : parseMessageFromCompletionText (decode calls.flatten) mode = .ok parsed) :
    (contents (stream decode mode calls).1 =
          (finalMessage decode mode (stream decode mode calls).2).content ∧
        reasonings (stream decode mode calls).1 =
          (finalMessage decode mode (stream decode mode calls).2).reasoningContent) ↔
      Delivered decode mode calls := by
  obtain ⟨offset, at', reasons, body⟩ := parseMessage_ok ok
  have starts : ∀ decoded ∈ decodings decode [] calls, decoded <+: decode calls.flatten := by
    intro decoded member
    obtain ⟨new, more, rfl, split⟩ := mem_decodings member
    rw [← split]
    exact decodeAll_starts monotone new more
  obtain ⟨deltas, st, run, sent, all, ran⟩ :=
    (sent_new mode (decode calls.flatten) offset).run at' starts
  have message : finalMessage decode mode st = parsed := by
    rw [finalMessage, all]
    dsimp only
    rw [List.nil_append, ok]
  rw [stream, run]
  dsimp only
  rw [message, sent.contents_eq, sent.reasonings_eq, sent.content.shown, reasons]
  by_cases called : calls = []
  · subst called
    cases run
    have start := contentStart_eq at'
    have le := at'.le
    have begins : [] = (decode [].flatten).take (offset - thinkingEndToken.length) ↔
        offset ≤ thinkingEndToken.length := by
      rw [← List.length_eq_zero_iff.trans eq_comm, List.length_take_of_le (by omega)]
      exact Nat.sub_eq_zero_iff_le
    rw [List.drop_nil, List.prefix_nil.mp (visible_prefix_self toolCallsStartToken []), begins,
      nil_content_iff body]
    constructor
    · rintro ⟨first, before⟩
      have nothing := (nil_content_iff body).mpr first
      rw [← start] at first before
      refine ⟨nofun, fun _ => nofun, fun plain => ?_, fun plain n pos short => ?_,
        fun _ => ⟨before, first⟩⟩
      · rw [(contentPart_eq at' body plain).1, ← nothing]
        nofun
      · rw [(contentPart_eq at' body plain).1, ← nothing]
        intro suffix
        have inside := suffix.length_le
        rw [List.length_take_of_le (Nat.le_of_lt short)] at inside
        exact absurd inside (Nat.not_le.mpr pos)
    · intro all
      obtain ⟨before, first⟩ := all.called rfl
      exact ⟨start ▸ first, start ▸ before⟩
  · have last : decodeAll decode calls.flatten <+: st.emittedText := by
      have member : decodeAll decode calls.flatten ∈ decodings decode [] calls :=
        last_decodings called
      exact List.prefix_of_prefix_length_le (starts _ member) sent.starts (ran.longest _ member)
    have solid : Solid st.emittedText := by
      rcases List.mem_cons.mp ran.member with none | member
      · rw [none]
        rfl
      · obtain ⟨new, more, eq, -⟩ := mem_decodings member
        rw [eq]
        exact solid_rstrip _
    have ordered : (decodings decode [] calls).Pairwise fun earlier decoded =>
        Splits offset decoded → earlier.length ≤ decoded.length := by
      refine (pairwise_decodings [] calls).imp ?_
      rintro _ _ ⟨tokenIds, new, more, rfl, rfl, split⟩ splits
      rw [List.nil_append] at split
      rw [← split] at at'
      exact splits.longest monotone at'
    rw [content_iff at' body ran sent.starts last solid,
      reasoning_iff at' sent ran ((last_of_body at' body).trans last) ordered]
    have start := contentStart_eq at'
    constructor
    · rintro ⟨⟨ends, solid, shown⟩, reasoning⟩
      exact ⟨by rwa [start], ends, solid, shown, fun none => absurd none called⟩
    · rintro ⟨reasoning, ends, solid, shown, -⟩
      rw [start] at reasoning
      exact ⟨⟨ends, solid, shown⟩, reasoning⟩

/-- A tokenizer of four tokens. -/
def spelled (tokenIds : List Int) : Text :=
  tokenIds.flatMap fun tokenId =>
    if tokenId = 0 then eosToken
    else if tokenId = 1 then thinkingEndToken
    else if tokenId = 2 then text "Hi."
    else text "\n"

lemma spelled_monotone : Monotone spelled := by
  intro tokenIds more
  refine (rstrip_starts _).trans ?_
  rw [spelled, spelled, List.flatMap_append]
  exact List.prefix_append ..

theorem decoder_iff_greeting :
    (contents (stream spelled .thinking [[2, 1], [2, 0]]).1 =
          (finalMessage spelled .thinking (stream spelled .thinking [[2, 1], [2, 0]]).2).content ∧
        reasonings (stream spelled .thinking [[2, 1], [2, 0]]).1 =
          (finalMessage spelled .thinking
            (stream spelled .thinking [[2, 1], [2, 0]]).2).reasoningContent) ↔
      Delivered spelled .thinking [[2, 1], [2, 0]] :=
  have ok : parseMessageFromCompletionText (spelled [2, 1, 2, 0]) .thinking =
      .ok ⟨text "Hi.", text "Hi.", []⟩ := by decide
  decoder_iff spelled_monotone ok

/-- A line break at the end of the content may be the start of a block of tool calls. It is held back,
and is never sent. -/
theorem stream_loses_newline :
    Monotone spelled ∧
      parseMessageFromCompletionText (spelled [2, 3, 0]) .chat = .ok ⟨text "Hi.\n", [], []⟩ ∧
      contents (stream spelled .chat [[2], [3], [0]]).1 = text "Hi." ∧
      contents (stream spelled .chat [[2], [3], [0]]).1 ≠
        (finalMessage spelled .chat (stream spelled .chat [[2], [3], [0]]).2).content :=
  ⟨spelled_monotone, by decide⟩

end PocketMoE.Streaming
