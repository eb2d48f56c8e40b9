import Mathlib.Data.List.DropRight
import PocketMoE.Encoding.Parse
import PocketMoE.Lib.Holdback

/-!
# The streaming decoder

Model of `_StreamingDecoder` (`openai.py`). It decodes all tokens after each `append`, and sends what is
new of the reasoning and of the content. What may be the start of a block of tool calls is held back,
and never sent if it is none: `final_message` has it all the same.

All texts that are decoded are starts of one text. So what has been sent of the content is what can be
shown of the longest one (`Sent`), and so it stays in a run (`Sent.run`). What has been sent of the
reasoning is too long if a text ends inside `</think>` (`Ran`).
-/

namespace PocketMoE.Streaming
open PocketMoE.Lib PocketMoE.Encoding

/-! ## The decoder -/

/-- `_strip_special_eos`. -/
def stripSpecialEos (s : Text) : Text :=
  if eosToken <:+ s then s.take (s.length - eosToken.length) else s

/-- `rstrip` of U+FFFD. -/
def rstrip (s : Text) : Text := s.rdropWhile (· = 0xFFFD)

/-- A member of what `append` returns. -/
inductive Delta where
  | content (s : Text)
  | reasoning (s : Text)
deriving DecidableEq

/-- `_StreamingDecoder`. -/
structure StreamingDecoder where
  tokenIds : List Int := []
  emittedText : Text := []
  contentEmitted : Text := []
  reasoningEmitted : Text := []
  contentTruncated : Bool := false
  contentVisibleLen : Option Nat := none

/-- `_truncate_for_tool_calls`. -/
def truncateForToolCalls (st : StreamingDecoder) (contentText : Text) : Text × StreamingDecoder :=
  if st.contentTruncated then (contentText.take (st.contentVisibleLen.getD 0), st)
  else
    match firstAt toolCallsStartToken contentText with
    | some idx =>
      (contentText.take idx, { st with contentTruncated := true, contentVisibleLen := some idx })
    | none =>
      let maxOverlap := min contentText.length (toolCallsStartToken.length - 1)
      (contentText.take (contentText.length - overlap toolCallsStartToken contentText maxOverlap), st)

/-- Send what is new of the reasoning. -/
def emitReasoning (st : StreamingDecoder) (text : Text) : List Delta × StreamingDecoder :=
  if st.reasoningEmitted.length < text.length then
    ([.reasoning (text.drop st.reasoningEmitted.length)], { st with reasoningEmitted := text })
  else ([], st)

/-- Send what is new of the content. -/
def emitContent (st : StreamingDecoder) (contentText : Text) : List Delta × StreamingDecoder :=
  let (visible, st) := truncateForToolCalls st contentText
  if st.contentEmitted.length < visible.length then
    ([.content (visible.drop st.contentEmitted.length)], { st with contentEmitted := visible })
  else ([], st)

/-- What `append` does with the decoded text. -/
def emit (thinkingMode : ThinkingMode) (st : StreamingDecoder) (decoded : Text) :
    List Delta × StreamingDecoder :=
  if decoded.length < st.emittedText.length then ([], st)
  else
    let st := { st with emittedText := decoded }
    if thinkingMode ≠ .thinking then emitContent st decoded
    else
      match firstAt thinkingEndToken decoded with
      | none => emitReasoning st decoded
      | some markerIdx =>
        let reasoningText := decoded.take markerIdx
        let contentText := decoded.drop (markerIdx + thinkingEndToken.length)
        let (outputs, st) := emitReasoning st reasoningText
        let (outputs', st) := emitContent st contentText
        (outputs ++ outputs', st)

/-- The text of all tokens as `append` takes it. -/
def decodeAll (decode : List Int → Text) (tokenIds : List Int) : Text :=
  rstrip (stripSpecialEos (decode tokenIds))

/-- `append`. -/
def append (decode : List Int → Text) (thinkingMode : ThinkingMode) (st : StreamingDecoder)
    (tokenIds : List Int) : List Delta × StreamingDecoder :=
  let st := { st with tokenIds := st.tokenIds ++ tokenIds }
  emit thinkingMode st (decodeAll decode st.tokenIds)

/-- `final_message`. -/
def finalMessage (decode : List Int → Text) (thinkingMode : ThinkingMode) (st : StreamingDecoder) :
    Parsed :=
  let text := decode st.tokenIds
  match parseMessageFromCompletionText text thinkingMode with
  | .ok parsed => parsed
  | .error _ => ⟨stripSpecialEos text, [], []⟩

/-- One call of `append`, behind what has been returned so far. -/
def step (decode : List Int → Text) (thinkingMode : ThinkingMode)
    (run : List Delta × StreamingDecoder) (tokenIds : List Int) : List Delta × StreamingDecoder :=
  let (outputs, st) := append decode thinkingMode run.2 tokenIds
  (run.1 ++ outputs, st)

/-- What some calls of `append` return, and the decoder after them. -/
def stream (decode : List Int → Text) (thinkingMode : ThinkingMode) (calls : List (List Int)) :
    List Delta × StreamingDecoder :=
  calls.foldl (step decode thinkingMode) ([], {})

/-- The content deltas of a stream. -/
def contents (deltas : List Delta) : Text :=
  deltas.flatMap fun
    | .content s => s
    | .reasoning _ => []

/-- The reasoning deltas of a stream. -/
def reasonings (deltas : List Delta) : Text :=
  deltas.flatMap fun
    | .content _ => []
    | .reasoning s => s

/-! ## The decoded texts -/

/-- There is no replacement character at the end. -/
def Solid (s : Text) : Prop := rstrip s = s

lemma rstrip_starts (s : Text) : rstrip s <+: s := List.rdropWhile_prefix _ s

lemma solid_rstrip (s : Text) : Solid (rstrip s) := List.rdropWhile_idempotent _ _

lemma solid_iff {s : Text} : Solid s ↔ ∀ some : s ≠ [], s.getLast some ≠ 0xFFFD := by
  rw [Solid, rstrip, List.rdropWhile_eq_self_iff]
  simp only [decide_eq_true_eq, ne_eq]

lemma solid_concat {s : Text} {c : Code} (other : c ≠ 0xFFFD) : Solid (s ++ [c]) := by
  refine solid_iff.mpr fun some => ?_
  rwa [List.getLast_append_singleton]

lemma Solid.prefix_rstrip {s t : Text} (solid : Solid s) (starts : s <+: t) : s <+: rstrip t := by
  have split : rstrip t ++ t.rtakeWhile (· = 0xFFFD) = t := List.rdropWhile_append_rtakeWhile
  rcases Nat.le_total s.length (rstrip t).length with inside | long
  · exact List.prefix_of_prefix_length_le starts (rstrip_starts t) inside
  · obtain ⟨more, rfl⟩ := List.prefix_of_prefix_length_le (rstrip_starts t) starts long
    have within : more <+: t.rtakeWhile (· = 0xFFFD) := by
      refine (List.prefix_append_right_inj (rstrip t)).mp ?_
      rwa [split]
    rcases List.eq_nil_or_concat more with rfl | ⟨front, c, rfl⟩
    · rw [List.append_nil]
    · have member : c ∈ t.rtakeWhile (· = 0xFFFD) :=
        within.subset (by simp)
      have replaced := List.mem_rtakeWhile_imp member
      rw [decide_eq_true_eq] at replaced
      rw [List.concat_eq_append, ← List.append_assoc] at solid
      have last := solid_iff.mp solid (by simp)
      rw [List.getLast_append_singleton] at last
      exact absurd replaced last

lemma stripSpecialEos_starts (s : Text) : stripSpecialEos s <+: s := by
  unfold stripSpecialEos
  split_ifs
  · exact List.take_prefix ..
  · exact List.prefix_rfl

lemma stripSpecialEos_append (s : Text) : stripSpecialEos (s ++ eosToken) = s := by
  rw [stripSpecialEos, if_pos (List.suffix_append ..), List.length_append, Nat.add_sub_cancel,
    List.take_left]

variable {decode : List Int → Text}

/-- But for replacement characters at its end, the text of tokens is the start of the text of more. -/
def Monotone (decode : List Int → Text) : Prop :=
  ∀ tokenIds more, rstrip (decode tokenIds) <+: decode (tokenIds ++ more)

lemma solid_eos (s : Text) : Solid (s ++ eosToken) := by
  have last : eosToken = text "<｜end▁of▁sentence｜" ++ [code '>'] := by decide
  rw [last, ← List.append_assoc]
  exact solid_concat (by decide)

lemma decodeAll_starts_rstrip (tokenIds : List Int) :
    decodeAll decode tokenIds <+: rstrip (decode tokenIds) :=
  (solid_rstrip _).prefix_rstrip ((rstrip_starts _).trans (stripSpecialEos_starts _))

lemma decodeAll_starts (monotone : Monotone decode) (tokenIds more : List Int) :
    decodeAll decode tokenIds <+: decode (tokenIds ++ more) :=
  (decodeAll_starts_rstrip tokenIds).trans (monotone tokenIds more)

/-- What `append` takes in each of some calls, behind some tokens. -/
def decodings (decode : List Int → Text) (before : List Int) : List (List Int) → List Text
  | [] => []
  | tokenIds :: calls =>
    decodeAll decode (before ++ tokenIds) :: decodings decode (before ++ tokenIds) calls

lemma mem_decodings {before : List Int} {calls : List (List Int)} {decoded : Text}
    (member : decoded ∈ decodings decode before calls) :
    ∃ new more, decoded = decodeAll decode (before ++ new) ∧ new ++ more = calls.flatten := by
  induction calls generalizing before with
  | nil => cases member
  | cons tokenIds calls ih =>
    rw [List.flatten_cons]
    rcases List.mem_cons.mp member with rfl | later
    · exact ⟨tokenIds, calls.flatten, rfl, rfl⟩
    · obtain ⟨new, more, eq, split⟩ := ih later
      refine ⟨tokenIds ++ new, more, ?_, ?_⟩
      · rw [eq, List.append_assoc]
      · rw [List.append_assoc, split]

lemma last_decodings {before : List Int} {calls : List (List Int)} (some : calls ≠ []) :
    decodeAll decode (before ++ calls.flatten) ∈ decodings decode before calls := by
  induction calls generalizing before with
  | nil => exact absurd rfl some
  | cons tokenIds calls ih =>
    rw [decodings, List.flatten_cons, ← List.append_assoc]
    cases calls with
    | nil =>
      rw [List.flatten_nil, List.append_nil]
      exact List.mem_cons_self
    | cons next calls => exact List.mem_cons_of_mem _ (ih nofun)

/-! ## What has been sent -/

variable {st : StreamingDecoder} {content content' : Text}

/-- The decoder has sent what can be shown of a content so far. -/
structure ContentSent (st : StreamingDecoder) (content : Text) : Prop where
  truncated : st.contentTruncated = (firstAt toolCallsStartToken content).isSome
  visibleLen : ∀ p, firstAt toolCallsStartToken content = some p → st.contentVisibleLen = some p
  shown : st.contentEmitted = visible toolCallsStartToken content

lemma truncateForToolCalls_eq (sent : ContentSent st content) (starts : content <+: content') :
    ∃ len, truncateForToolCalls st content' = (visible toolCallsStartToken content',
        { st with
          contentTruncated := (firstAt toolCallsStartToken content').isSome
          contentVisibleLen := len }) ∧
      ∀ p, firstAt toolCallsStartToken content' = some p → len = some p := by
  obtain ⟨truncated, visibleLen, -⟩ := sent
  obtain ⟨tokenIds, emittedText, contentEmitted, reasoningEmitted, flag, len⟩ := st
  dsimp only at truncated visibleLen
  unfold truncateForToolCalls
  cases before : firstAt toolCallsStartToken content with
  | some p =>
    have now := firstAt_append before starts
    obtain rfl : flag = true := by rw [truncated, before, Option.isSome_some]
    obtain rfl := visibleLen p before
    refine ⟨some p, ?_, fun q there => now.symm.trans there⟩
    rw [visible_at now, now]
    rfl
  | none =>
    obtain rfl : flag = false := by rw [truncated, before, Option.isSome_none]
    cases now : firstAt toolCallsStartToken content' with
    | some p =>
      rw [visible_at now]
      exact ⟨some p, rfl, fun q there => there⟩
    | none =>
      refine ⟨len, ?_, nofun⟩
      rw [visible, now]
      rfl

lemma emitContent_spec (sent : ContentSent st content) (starts : content <+: content') :
    ∃ outputs st', emitContent st content' = (outputs, st') ∧ ContentSent st' content' ∧
      st.contentEmitted ++ contents outputs = st'.contentEmitted ∧ reasonings outputs = [] ∧
      st'.reasoningEmitted = st.reasoningEmitted ∧ st'.emittedText = st.emittedText ∧
      st'.tokenIds = st.tokenIds := by
  obtain ⟨len, eq, cut⟩ := truncateForToolCalls_eq sent starts
  have grows : st.contentEmitted <+: visible toolCallsStartToken content' := by
    rw [sent.shown]
    exact visible_prefix starts
  unfold emitContent
  rw [eq]
  dsimp only
  split_ifs with more
  · refine ⟨_, _, rfl, ⟨rfl, cut, rfl⟩, ?_, rfl, rfl, rfl, rfl⟩
    obtain ⟨rest, eq⟩ := grows
    show _ ++ (_ ++ []) = _
    rw [List.append_nil, ← eq, List.drop_left]
  · have same := grows.eq_of_length_le (Nat.le_of_not_lt more)
    exact ⟨_, _, rfl, ⟨rfl, cut, same⟩, List.append_nil _, rfl, rfl, rfl, rfl⟩

lemma emitReasoning_spec {text : Text}
    (starts : st.reasoningEmitted.length < text.length → st.reasoningEmitted <+: text) :
    ∃ outputs, emitReasoning st text = (outputs, { st with
        reasoningEmitted :=
          if st.reasoningEmitted.length < text.length then text else st.reasoningEmitted }) ∧
      contents outputs = [] ∧ st.reasoningEmitted ++ reasonings outputs =
        if st.reasoningEmitted.length < text.length then text else st.reasoningEmitted := by
  unfold emitReasoning
  split_ifs with more
  · refine ⟨_, rfl, rfl, ?_⟩
    obtain ⟨rest, eq⟩ := starts more
    show _ ++ (_ ++ []) = _
    rw [List.append_nil, ← eq, List.drop_left]
  · exact ⟨_, rfl, rfl, List.append_nil _⟩

/-- What has been sent of a completion after the texts up to `st.emittedText`. -/
structure Sent (mode : ThinkingMode) (whole : Text) (offset : Nat) (st : StreamingDecoder)
    (deltas : List Delta) : Prop where
  starts : st.emittedText <+: whole
  content : ContentSent st (st.emittedText.drop offset)
  contents_eq : contents deltas = st.contentEmitted
  reasonings_eq : reasonings deltas = st.reasoningEmitted
  reasoning : st.reasoningEmitted <+: st.emittedText
  chat : mode = .chat → st.reasoningEmitted = []
  inside : st.emittedText.length < offset → st.reasoningEmitted = st.emittedText
  behind : offset ≤ st.emittedText.length →
    offset ≤ st.reasoningEmitted.length + thinkingEndToken.length

/-- How much of the reasoning has been sent when one more text has been decoded. -/
def reasoned (mode : ThinkingMode) (offset : Nat) (st : StreamingDecoder) (decoded : Text) : Nat :=
  if mode = .chat ∨ decoded.length < st.emittedText.length then st.reasoningEmitted.length
  else if decoded.length < offset then decoded.length
  else max st.reasoningEmitted.length (offset - thinkingEndToken.length)

variable {mode : ThinkingMode} {whole decoded : Text} {offset : Nat} {deltas : List Delta}

lemma contents_append (deltas outputs : List Delta) :
    contents (deltas ++ outputs) = contents deltas ++ contents outputs := List.flatMap_append

lemma reasonings_append (deltas outputs : List Delta) :
    reasonings (deltas ++ outputs) = reasonings deltas ++ reasonings outputs :=
  List.flatMap_append

lemma Sent.emit (at' : Offset whole mode offset) (sent : Sent mode whole offset st deltas)
    (starts : decoded <+: whole) :
    let (outputs, st') := emit mode st decoded
    Sent mode whole offset st' (deltas ++ outputs) ∧ st'.tokenIds = st.tokenIds ∧
      st'.emittedText =
        (if decoded.length < st.emittedText.length then st.emittedText else decoded) ∧
      st'.reasoningEmitted.length = reasoned mode offset st decoded := by
  unfold Streaming.emit reasoned
  by_cases short : decoded.length < st.emittedText.length
  · rw [if_pos short, if_pos short, if_pos (Or.inr short)]
    dsimp only
    rw [List.append_nil]
    exact ⟨sent, rfl, rfl, rfl⟩
  rw [if_neg short, if_neg short]
  have more : st.emittedText <+: decoded :=
    List.prefix_of_prefix_length_le sent.starts starts (Nat.le_of_not_lt short)
  cases at' with
  | chat =>
    have sent₁ : ContentSent { st with emittedText := decoded } st.emittedText :=
      ⟨sent.content.truncated, sent.content.visibleLen, sent.content.shown⟩
    obtain ⟨outputs, st', eq, sent', text, none, reasoning, emitted, tokenIds⟩ :=
      emitContent_spec sent₁ more
    rw [if_pos (show ThinkingMode.chat ≠ .thinking by decide), if_pos (Or.inl rfl), eq]
    dsimp only at text reasoning emitted tokenIds ⊢
    have nothing : st'.reasoningEmitted = [] := reasoning.trans (sent.chat rfl)
    refine ⟨⟨?_, ?_, ?_, ?_, ?_, fun _ => nothing, nofun, fun _ => Nat.zero_le _⟩, tokenIds, emitted,
      congrArg List.length reasoning⟩
    · rwa [emitted]
    · rw [emitted]
      exact sent'
    · rw [contents_append, sent.contents_eq, text]
    · rw [reasonings_append, sent.reasonings_eq, none, List.append_nil, reasoning]
    · rw [nothing]
      exact List.nil_prefix
  | @thinking p first =>
    have found := firstAt_of_prefix first starts
    rw [if_neg (by decide), if_neg fun both => both.elim nofun short]
    split_ifs with inside
    · -- the end of the reasoning has not been decoded
      have before := sent.inside (Nat.lt_of_le_of_lt more.length_le inside)
      rw [if_neg (Nat.not_le.mpr inside)] at found
      rw [found]
      dsimp only
      have starts₁ : st.reasoningEmitted <+: decoded := by rwa [before]
      obtain ⟨outputs, eq, none, text⟩ :=
        @emitReasoning_spec { st with emittedText := decoded } decoded fun _ => starts₁
      rw [eq]
      dsimp only at text ⊢
      have all : (if st.reasoningEmitted.length < decoded.length then decoded
          else st.reasoningEmitted) = decoded := by
        split_ifs with longer
        · rfl
        · rw [before] at longer ⊢
          exact more.eq_of_length_le (Nat.le_of_not_lt longer)
      rw [all] at text ⊢
      have nothing : st.emittedText.drop (p + thinkingEndToken.length) = [] :=
        List.drop_eq_nil_of_le (more.length_le.trans (Nat.le_of_lt inside))
      have nothing' : decoded.drop (p + thinkingEndToken.length) = [] :=
        List.drop_eq_nil_of_le (Nat.le_of_lt inside)
      refine ⟨⟨starts, ?_, ?_, ?_, List.prefix_rfl, nofun, fun _ => rfl, ?_⟩, rfl, rfl, rfl⟩
      · have sent' := sent.content
        rw [nothing] at sent'
        dsimp only
        rw [nothing']
        exact ⟨sent'.truncated, sent'.visibleLen, sent'.shown⟩
      · rw [contents_append, sent.contents_eq, none, List.append_nil]
      · rw [reasonings_append, sent.reasonings_eq, text]
      · exact fun le => absurd inside (Nat.not_lt.mpr le)
    · -- the end of the reasoning is there
      have le : p + thinkingEndToken.length ≤ decoded.length := Nat.le_of_not_lt inside
      rw [if_pos le] at found
      rw [found]
      dsimp only
      have length : (decoded.take p).length = p := List.length_take_of_le (by omega)
      have starts₁ : st.reasoningEmitted.length < (decoded.take p).length →
          st.reasoningEmitted <+: decoded.take p := fun lt =>
        List.prefix_of_prefix_length_le (sent.reasoning.trans more) (List.take_prefix ..)
          (Nat.le_of_lt lt)
      obtain ⟨outputs, eq, none, text⟩ :=
        @emitReasoning_spec { st with emittedText := decoded } (decoded.take p) starts₁
      rw [eq]
      dsimp only at text ⊢
      rw [length] at text ⊢
      have taken : (if st.reasoningEmitted.length < p then decoded.take p
          else st.reasoningEmitted).length = max st.reasoningEmitted.length p := by
        split_ifs with lt
        · rw [length, Nat.max_eq_right (Nat.le_of_lt lt)]
        · rw [Nat.max_eq_left (Nat.le_of_not_lt lt)]
      have within : (if st.reasoningEmitted.length < p then decoded.take p
          else st.reasoningEmitted) <+: decoded := by
        split_ifs
        · exact List.take_prefix ..
        · exact sent.reasoning.trans more
      generalize (if st.reasoningEmitted.length < p then decoded.take p
        else st.reasoningEmitted) = reasoning at text taken within ⊢
      have sent₁ : ContentSent
          { st with emittedText := decoded, reasoningEmitted := reasoning }
          (st.emittedText.drop (p + thinkingEndToken.length)) :=
        ⟨sent.content.truncated, sent.content.visibleLen, sent.content.shown⟩
      obtain ⟨outputs', st', eq', sent', text', none', reasoning', emitted, tokenIds⟩ :=
        emitContent_spec sent₁ (more.drop (p + thinkingEndToken.length))
      rw [eq']
      dsimp only at text' reasoning' emitted tokenIds ⊢
      refine ⟨⟨?_, ?_, ?_, ?_, ?_, nofun, ?_, ?_⟩, tokenIds, emitted, ?_⟩
      · rwa [emitted]
      · rwa [emitted]
      · rw [contents_append, contents_append, none, List.nil_append, sent.contents_eq, text']
      · rw [reasonings_append, reasonings_append, none', List.append_nil, sent.reasonings_eq, text,
          reasoning']
      · rwa [reasoning', emitted]
      · rw [emitted]
        exact fun lt => absurd lt inside
      · intro _
        rw [reasoning', taken]
        exact Nat.add_le_add_right (Nat.le_max_right ..) _
      · rw [reasoning', taken, Nat.add_sub_cancel]

/-! ## A run -/

/-- A text ends inside `</think>`. -/
def Splits (offset : Nat) (decoded : Text) : Prop :=
  offset < decoded.length + thinkingEndToken.length ∧ decoded.length < offset

lemma Sent.le_reasoned (sent : Sent mode whole offset st deltas) :
    st.reasoningEmitted.length ≤ reasoned mode offset st decoded := by
  unfold reasoned
  split_ifs with idle inside
  · exact le_rfl
  · have longer := Nat.le_of_not_lt fun short => idle (Or.inr short)
    exact sent.reasoning.length_le.trans longer
  · exact Nat.le_max_left ..

lemma reasoned_le (whole : ¬ Splits offset decoded)
    (le : st.reasoningEmitted.length ≤ offset - thinkingEndToken.length) :
    reasoned mode offset st decoded ≤ offset - thinkingEndToken.length := by
  unfold reasoned
  split_ifs with idle inside
  · exact le
  · have clear := Nat.le_of_not_lt fun lt => whole ⟨lt, inside⟩
    omega
  · exact Nat.max_le.mpr ⟨le, le_rfl⟩

lemma lt_reasoned (at' : Offset whole mode offset) (splits : Splits offset decoded)
    (le : st.emittedText.length ≤ decoded.length) :
    offset - thinkingEndToken.length < reasoned mode offset st decoded := by
  obtain ⟨begun, inside⟩ := splits
  cases at' with
  | chat => exact absurd inside (Nat.not_lt_zero _)
  | thinking =>
    rw [reasoned, if_neg fun idle => idle.elim nofun (Nat.not_lt.mpr le), if_pos inside]
    omega

/-- What a run leaves of the texts that it has decoded. -/
structure Ran (offset : Nat) (st : StreamingDecoder) (texts : List Text) (st' : StreamingDecoder) :
    Prop where
  longest : ∀ decoded ∈ texts, decoded.length ≤ st'.emittedText.length
  grows : st.emittedText.length ≤ st'.emittedText.length
  member : st'.emittedText ∈ st.emittedText :: texts
  reasons : st.reasoningEmitted.length ≤ st'.reasoningEmitted.length
  clean : (∀ decoded ∈ texts, ¬ Splits offset decoded) →
    st.reasoningEmitted.length ≤ offset - thinkingEndToken.length →
    st'.reasoningEmitted.length ≤ offset - thinkingEndToken.length
  split : texts.Pairwise (fun earlier decoded => Splits offset decoded →
      earlier.length ≤ decoded.length) →
    ∀ decoded ∈ texts, Splits offset decoded → st.emittedText.length ≤ decoded.length →
      offset - thinkingEndToken.length < st'.reasoningEmitted.length

lemma Ran.nil (offset : Nat) (st : StreamingDecoder) : Ran offset st [] st :=
  ⟨nofun, le_rfl, List.mem_cons_self, le_rfl, fun _ => id, nofun⟩

lemma Ran.cons {texts : List Text} {st' st'' : StreamingDecoder} (at' : Offset whole mode offset)
    (sent : Sent mode whole offset st deltas) (ran : Ran offset st' texts st'')
    (emitted : st'.emittedText =
      if decoded.length < st.emittedText.length then st.emittedText else decoded)
    (reasons : st'.reasoningEmitted.length = reasoned mode offset st decoded) :
    Ran offset st (decoded :: texts) st'' := by
  have le : st.emittedText.length ≤ st'.emittedText.length ∧
      decoded.length ≤ st'.emittedText.length := by
    rw [emitted]
    split_ifs with short
    · exact ⟨le_rfl, Nat.le_of_lt short⟩
    · exact ⟨Nat.le_of_not_lt short, le_rfl⟩
  refine ⟨?_, le.1.trans ran.grows, ?_, ?_, ?_, ?_⟩
  · exact List.forall_mem_cons.mpr ⟨le.2.trans ran.grows, ran.longest⟩
  · rcases List.mem_cons.mp ran.member with same | later
    · rw [same, emitted]
      split_ifs
      · exact List.mem_cons_self
      · exact List.mem_cons_of_mem _ List.mem_cons_self
    · exact List.mem_cons_of_mem _ (List.mem_cons_of_mem _ later)
  · exact (sent.le_reasoned.trans_eq reasons.symm).trans ran.reasons
  · intro clear le
    obtain ⟨clear, later⟩ := List.forall_mem_cons.mp clear
    exact ran.clean later (reasons.trans_le (reasoned_le clear le))
  · intro ordered text member splits longer
    obtain ⟨first, later⟩ := List.pairwise_cons.mp ordered
    rcases List.mem_cons.mp member with rfl | member
    · have here := lt_reasoned at' splits longer
      rw [← reasons] at here
      exact here.trans_le ran.reasons
    · refine ran.split later text member splits ?_
      rw [emitted]
      split_ifs
      · exact longer
      · exact first text member splits

/-- What a run of `append` has sent. -/
theorem Sent.run {calls : List (List Int)} (at' : Offset whole mode offset)
    (sent : Sent mode whole offset st deltas)
    (starts : ∀ decoded ∈ decodings decode st.tokenIds calls, decoded <+: whole) :
    ∃ deltas' st', calls.foldl (step decode mode) (deltas, st) = (deltas', st') ∧
      Sent mode whole offset st' deltas' ∧ st'.tokenIds = st.tokenIds ++ calls.flatten ∧
      Ran offset st (decodings decode st.tokenIds calls) st' := by
  induction calls generalizing st deltas with
  | nil =>
    refine ⟨deltas, st, rfl, sent, ?_, Ran.nil offset st⟩
    rw [List.flatten_nil, List.append_nil]
  | cons tokenIds calls ih =>
    rw [decodings] at starts
    obtain ⟨first, later⟩ := List.forall_mem_cons.mp starts
    have sent₁ : Sent mode whole offset { st with tokenIds := st.tokenIds ++ tokenIds } deltas :=
      ⟨sent.starts, ⟨sent.content.truncated, sent.content.visibleLen, sent.content.shown⟩,
        sent.contents_eq, sent.reasonings_eq, sent.reasoning, sent.chat, sent.inside, sent.behind⟩
    have emit := sent₁.emit at' first
    rcases eq : Streaming.emit mode { st with tokenIds := st.tokenIds ++ tokenIds }
      (decodeAll decode (st.tokenIds ++ tokenIds)) with ⟨outputs, st'⟩
    rw [eq] at emit
    obtain ⟨sent', all, emitted, reasons⟩ := emit
    have called : step decode mode (deltas, st) tokenIds = (deltas ++ outputs, st') := by
      rw [step, append, eq]
    dsimp only at all
    rw [← all] at later
    obtain ⟨deltas'', st'', run, sent'', all', ran⟩ := ih sent' later
    refine ⟨deltas'', st'', ?_, sent'', ?_, ?_⟩
    · rw [List.foldl_cons, called, run]
    · rw [all', all, List.flatten_cons, List.append_assoc]
    · rw [all] at ran
      exact ran.cons at' sent emitted reasons

end PocketMoE.Streaming
