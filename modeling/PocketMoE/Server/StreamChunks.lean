import Mathlib.Data.List.GetD
import PocketMoE.Engine.TokenizerLossless
import PocketMoE.Server.Chat

/-!
# The chunks of a streamed completion

`handle_stream` (`openai_server.cpp`) decodes all tokens after each one and sends what is new, but
for the bytes of a code point that is not finished (`split_utf8_complete`); what is left at the end
is sent as it is.

`splitUtf8Complete_eq` is what the scan finds in the first bytes of a text. The invariant of the
session is `Sent`: what was sent are whole code points. With the engine to itself the session makes
the tokens that `generate` does (`handleStream_generated`).
-/

namespace PocketMoE.Server
open PocketMoE.Lib PocketMoE.Engine

/-! ## `split_utf8_complete` -/

/-- How many bytes a start byte announces. -/
def expectedBytes (c : Byte) : Nat :=
  if c.1 &&& 0xE0 = 0xC0 then 2
  else if c.1 &&& 0xF0 = 0xE0 then 3
  else if c.1 &&& 0xF8 = 0xF0 then 4
  else 1

/-- The scan for a start byte, over at most `back` bytes before `i`. -/
def splitScan (s : List Byte) : Nat → Nat → List Byte × List Byte
  | 0, _ => (s, [])
  | _ + 1, 0 => (s, [])
  | back + 1, i + 1 =>
    let c := s.getD i 0
    if c.1 &&& 0x80 = 0 then (s, [])
    else if c.1 &&& 0xC0 = 0xC0 then
      let available := s.length - i
      if expectedBytes c ≤ available then (s, []) else (s.take i, s.drop i)
    else splitScan s back i

/-- `split_utf8_complete`. -/
def splitUtf8Complete (s : List Byte) : List Byte × List Byte :=
  if s = [] then ([], []) else splitScan s 4 s.length

lemma byte_masks : ∀ c : Byte,
    (c.1 &&& 0x80 = 0 ↔ c.1 < 0x80) ∧ (c.1 &&& 0xC0 = 0xC0 ↔ 0xC0 ≤ c.1) ∧
      (0xC0 ≤ c.1 → expectedBytes c =
        if c.1 < 0xE0 then 2 else if c.1 < 0xF0 then 3 else if c.1 < 0xF8 then 4 else 1) := by
  decide +kernel

lemma ascii_iff (c : Byte) : c.1 &&& 0x80 = 0 ↔ c.1 < 0x80 := (byte_masks c).1

lemma start_iff (c : Byte) : c.1 &&& 0xC0 = 0xC0 ↔ 0xC0 ≤ c.1 := (byte_masks c).2.1

lemma splitScan_start {front rest : List Byte} {first : Byte} (start : 0xC0 ≤ first.1)
    (continues : ∀ b ∈ rest, IsContinuation b) {k back : Nat} (le : k ≤ rest.length)
    (enough : k < back) :
    splitScan (front ++ first :: rest) back (front.length + 1 + k) =
      if expectedBytes first ≤ rest.length + 1 then (front ++ first :: rest, [])
      else (front, first :: rest) := by
  obtain ⟨back, rfl⟩ : ∃ b, back = b + 1 := ⟨back - 1, by omega⟩
  induction k generalizing back with
  | zero =>
    have here : (front ++ first :: rest).getD front.length 0 = first := by
      rw [List.getD_append_right _ _ _ _ le_rfl, Nat.sub_self]
      rfl
    have available : (front ++ first :: rest).length - front.length = rest.length + 1 := by
      rw [List.length_append, Nat.add_sub_cancel_left, List.length_cons]
    rw [Nat.add_zero, splitScan]
    dsimp only
    rw [here, if_neg (by rw [ascii_iff]; omega), if_pos ((start_iff first).mpr start), available,
      List.take_left, List.drop_left]
  | succ k ih =>
    obtain ⟨back, rfl⟩ : ∃ b, back = b + 1 := ⟨back - 1, by omega⟩
    have inside : k < rest.length := le
    have here : (front ++ first :: rest).getD (front.length + 1 + k) 0 = rest[k] := by
      rw [List.getD_append_right _ _ _ _ (by omega)]
      have index : front.length + 1 + k - front.length = k + 1 := by omega
      rw [index, List.getD_cons_succ, List.getD_eq_getElem _ _ inside]
    obtain ⟨low, high⟩ := continues _ (List.getElem_mem inside)
    rw [← Nat.add_assoc, splitScan]
    dsimp only
    rw [here, if_neg (by rw [ascii_iff]; omega), if_neg (by rw [start_iff]; omega)]
    exact ih inside.le back (by omega)

lemma splitScan_code (front : List Byte) (c : Code) :
    splitScan (front ++ encodeCode c) 4 (front ++ encodeCode c).length =
      (front ++ encodeCode c, []) := by
  obtain ⟨first, rest, eq, continues, kinds⟩ := encodeCode_bytes c
  have whole (start : 0xC0 ≤ first.1) (short : rest.length < 4)
      (len : expectedBytes first = rest.length + 1) :
      splitScan (front ++ first :: rest) 4 (front ++ first :: rest).length =
        (front ++ first :: rest, []) := by
    have length : (front ++ first :: rest).length = front.length + 1 + rest.length := by
      rw [List.length_append, List.length_cons]
      omega
    rw [length, splitScan_start start continues le_rfl short, if_pos len.le]
  rw [eq]
  rcases kinds with ⟨-, -, ascii, rfl⟩ | ⟨-, low, high, len⟩ | ⟨-, low, high, len⟩ |
    ⟨-, low, high, len⟩
  · have here : (front ++ [first]).getD front.length 0 = first := by
      rw [List.getD_append_right _ _ _ _ le_rfl, Nat.sub_self]
      rfl
    rw [List.length_append, List.length_singleton, splitScan]
    dsimp only
    rw [here, if_pos ((ascii_iff first).mpr ascii)]
  · exact whole low (by omega) (by rw [(byte_masks first).2.2 low, if_pos high, len])
  · exact whole (by omega) (by omega)
      (by rw [(byte_masks first).2.2 (by omega), if_neg (by omega), if_pos high, len])
  · exact whole (by omega) (by omega) (by
      rw [(byte_masks first).2.2 (by omega), if_neg (by omega), if_neg (by omega), if_pos high,
        len])

lemma splitScan_unfinished (front : List Byte) {part : List Byte} (unfinished : Unfinished part) :
    splitScan (front ++ part) 4 (front ++ part).length = (front, part) := by
  obtain ⟨c, some, starts, short⟩ := unfinished
  obtain ⟨first, rest, eq, continues, kinds⟩ := encodeCode_bytes c
  obtain ⟨first', some', rfl⟩ := List.exists_cons_of_ne_nil some
  rw [eq] at starts short
  obtain ⟨rfl, inside⟩ := List.cons_prefix_cons.mp starts
  rw [List.length_cons, List.length_cons] at short
  have continues' : ∀ b ∈ some', IsContinuation b := fun b member =>
    continues b (inside.subset member)
  have withheld (start : 0xC0 ≤ first'.1) (few : some'.length < 4)
      (len : expectedBytes first' = rest.length + 1) :
      splitScan (front ++ first' :: some') 4 (front ++ first' :: some').length =
        (front, first' :: some') := by
    have length : (front ++ first' :: some').length = front.length + 1 + some'.length := by
      rw [List.length_append, List.length_cons]
      omega
    rw [length, splitScan_start start continues' le_rfl few, if_neg (by omega)]
  rcases kinds with ⟨-, -, -, rfl⟩ | ⟨-, low, high, len⟩ | ⟨-, low, high, len⟩ |
    ⟨-, low, high, len⟩
  · exact absurd short (by simp)
  · exact withheld low (by omega) (by rw [(byte_masks first').2.2 low, if_pos high, len])
  · exact withheld (by omega) (by omega)
      (by rw [(byte_masks first').2.2 (by omega), if_neg (by omega), if_pos high, len])
  · exact withheld (by omega) (by omega) (by
      rw [(byte_masks first').2.2 (by omega), if_neg (by omega), if_neg (by omega), if_pos high,
        len])

/-- What `split_utf8_complete` makes of the first bytes of a text. -/
theorem splitUtf8Complete_eq (t : Text) {part : List Byte} (kind : part = [] ∨ Unfinished part) :
    splitUtf8Complete (encodeUtf8 t ++ part) = (encodeUtf8 t, part) := by
  unfold splitUtf8Complete
  rcases kind with rfl | unfinished
  · rw [List.append_nil]
    rcases t.eq_nil_or_concat with rfl | ⟨front, c, rfl⟩
    · rfl
    · rw [List.concat_eq_append, encodeUtf8_append, encodeUtf8_cons]
      obtain ⟨first, rest, eq, -⟩ := encodeCode_bytes c
      have some : encodeUtf8 front ++ (encodeCode c ++ encodeUtf8 []) ≠ [] := by simp [eq]
      rw [if_neg some]
      have none : encodeCode c ++ encodeUtf8 [] = encodeCode c := List.append_nil _
      rw [none]
      exact splitScan_code _ c
  · have some : encodeUtf8 t ++ part ≠ [] := by
      obtain ⟨c, some, -⟩ := unfinished
      simp [some]
    rw [if_neg some]
    exact splitScan_unfinished _ unfinished

/-! ## The session -/

/-- What a content provider has sent: the chunks that `emit_delta` sent, and how many bytes of the
decoded tokens they are. -/
structure Sink where
  sentOffset : Nat
  chunks : List (List Byte)

/-- `emit_delta`. -/
def emitDelta (tok : Tokenizer) (generated : List Int) (sink : Sink) : Sink :=
  let full := tok.decodeTokens generated true
  if full.length ≤ sink.sentOffset then sink
  else
    let (complete, _) := splitUtf8Complete (full.drop sink.sentOffset)
    if complete = [] then sink
    else
      { sentOffset := sink.sentOffset + complete.length
        chunks := sink.chunks ++ [complete] }

/-- What a stream has sent in the end: the chunks, the tail that is sent if it is not empty, and the
finish reason. -/
structure Streamed where
  generated : List Int
  chunks : List (List Byte)
  tail : List Byte
  finishReason : String

section

variable {S SP : Type*} (engine : PersistentEngine S Int SP) (r : ChatRequest Int SP)
  (tok : Tokenizer)

/-- The decode loop of `handle_stream`: the tokens, what was sent, and if the end token came. -/
def streamLoop : Nat → S → Int → Nat → List Int → Sink → List Int × Sink × Bool
  | 0, _, _, _, generated, sink => (generated, sink, false)
  | left + 1, s, token, step, generated, sink =>
    let (token', s') := engine.decodeStep s token (r.tokenIds.length + step - 1) r.sp
    if token' = engine.eosId then (generated, sink, true)
    else
      streamLoop left s' token' (step + 1) (generated ++ [token'])
        (emitDelta tok (generated ++ [token']) sink)

/-- The content provider of `handle_stream`. -/
def handleStream (s : S) : Streamed :=
  let (token, s') := engine.prefill (engine.resetSession s) r.tokenIds r.sp
  let hitEos := decide (token = engine.eosId)
  let generated := if hitEos then [] else [token]
  let sink := emitDelta tok generated ⟨0, []⟩
  let (generated, sink, hitEos) :=
    if hitEos then (generated, sink, true)
    else streamLoop engine r tok (r.maxTokens - 1).toNat s' token 1 generated sink
  { generated := generated
    chunks := sink.chunks
    tail := (tok.decodeTokens generated true).drop sink.sentOffset
    finishReason := if hitEos then "stop" else "length" }

variable {engine r tok} {whole : Text} {sink : Sink} {generated : List Int}

lemma streamLoop_generated (left : Nat) (s : S) (token : Int) (step : Nat) (generated : List Int)
    (sink : Sink) :
    (streamLoop engine r tok left s token step generated sink).1 =
      decodeLoop engine r left s token step generated := by
  induction left generalizing s token step generated sink with
  | zero => rfl
  | succ left ih =>
    unfold streamLoop decodeLoop
    dsimp only
    split_ifs
    · rfl
    · exact ih ..

/-- A stream with the engine to itself has the tokens of an uninterrupted run. -/
theorem handleStream_generated (s : S) :
    (handleStream engine r tok s).generated = generate engine r s := by
  unfold handleStream generate afterReset
  dsimp only
  by_cases ended : (engine.prefill (engine.resetSession s) r.tokenIds r.sp).1 = engine.eosId
  · rw [decide_eq_true ended, if_pos rfl, if_pos rfl, if_pos ended]
  · rw [decide_eq_false ended, if_neg Bool.false_ne_true, if_neg Bool.false_ne_true, if_neg ended]
    exact streamLoop_generated ..

/-- What was sent are code points of the text, in whole chunks; and all of it, once all was
decoded. -/
structure Sent (tok : Tokenizer) (whole : Text) (generated : List Int) (sink : Sink) : Prop where
  chunks : ∀ chunk ∈ sink.chunks, ValidUtf8 chunk
  front : ∃ t, t <+: whole ∧ sink.chunks.flatten = encodeUtf8 t ∧
    sink.sentOffset = (encodeUtf8 t).length
  all : tok.decodeTokens generated true = encodeUtf8 whole →
    sink.sentOffset = (encodeUtf8 whole).length

lemma decodeTokens_prefix {ids more : List Int} (starts : ids <+: more) :
    tok.decodeTokens ids true <+: tok.decodeTokens more true := by
  obtain ⟨rest, rfl⟩ := starts
  unfold Tokenizer.decodeTokens
  rw [List.flatMap_append]
  exact List.prefix_append ..

lemma Sent.candidate {before : List Int} (sent : Sent tok whole before sink)
    (starts : tok.decodeTokens generated true <+: encodeUtf8 whole)
    (long : sink.sentOffset ≤ (tok.decodeTokens generated true).length) :
    ∃ t v part, t ++ v <+: whole ∧ sink.chunks.flatten = encodeUtf8 t ∧
      sink.sentOffset = (encodeUtf8 t).length ∧
      splitUtf8Complete ((tok.decodeTokens generated true).drop sink.sentOffset) =
        (encodeUtf8 v, part) ∧
      (tok.decodeTokens generated true = encodeUtf8 whole →
        encodeUtf8 (t ++ v) = encodeUtf8 whole) := by
  obtain ⟨t, ⟨u, rfl⟩, flat, offset⟩ := sent.front
  have sentFirst : encodeUtf8 t <+: encodeUtf8 (t ++ u) := by
    rw [encodeUtf8_append]
    exact List.prefix_append ..
  obtain ⟨fresh, eq⟩ := List.prefix_of_prefix_length_le sentFirst starts (by omega)
  have here : fresh <+: encodeUtf8 u := by
    rw [← eq, encodeUtf8_append, List.prefix_append_right_inj] at starts
    exact starts
  obtain ⟨v, part, ⟨w, rfl⟩, rfl, kind⟩ := prefix_encodeUtf8 here
  have split := splitUtf8Complete_eq v kind
  refine ⟨t, v, part, ⟨w, List.append_assoc ..⟩, flat, offset, ?_, fun same => ?_⟩
  · rw [← eq, offset, List.drop_left, split]
  · -- all bytes are there: the scan finds nothing that is not finished
    have rest : encodeUtf8 v ++ part = encodeUtf8 (v ++ w) := by
      rw [← eq, encodeUtf8_append] at same
      exact List.append_cancel_left same
    have complete := splitUtf8Complete_eq (v ++ w) (Or.inl rfl)
    rw [List.append_nil, ← rest, split] at complete
    rw [encodeUtf8_append, encodeUtf8_append, ← rest, ← (Prod.mk.inj complete).1]

lemma Sent.emitDelta (scalars : ∀ c ∈ whole, IsScalar c) {before : List Int}
    (sent : Sent tok whole before sink)
    (starts : tok.decodeTokens generated true <+: encodeUtf8 whole) :
    Sent tok whole generated (emitDelta tok generated sink) := by
  unfold Server.emitDelta
  dsimp only
  rcases Nat.lt_or_ge sink.sentOffset (tok.decodeTokens generated true).length with more | old
  · obtain ⟨t, v, part, front, flat, offset, split, last⟩ := sent.candidate starts more.le
    have total : (encodeUtf8 (t ++ v)).length = sink.sentOffset + (encodeUtf8 v).length := by
      rw [encodeUtf8_append, List.length_append, offset]
    rw [if_neg (by omega), split]
    dsimp only
    split_ifs with none
    · refine ⟨sent.chunks, sent.front, fun same => ?_⟩
      rw [← last same, total, none]
      rfl
    · refine ⟨?_, ⟨t ++ v, front, ?_, total.symm⟩, fun same => ?_⟩
      · refine List.forall_mem_append.mpr
          ⟨sent.chunks, List.forall_mem_singleton.mpr ⟨v, fun c member => ?_, rfl⟩⟩
        exact scalars c (front.subset (List.mem_append_right _ member))
      · rw [List.flatten_append, flat, List.flatten_singleton, encodeUtf8_append]
      · rw [← last same, total]
  · rw [if_pos old]
    refine ⟨sent.chunks, sent.front, fun same => ?_⟩
    obtain ⟨t, front, -, offset⟩ := sent.front
    have bound : (encodeUtf8 t).length ≤ (encodeUtf8 whole).length := by
      obtain ⟨u, rfl⟩ := front
      rw [encodeUtf8_append, List.length_append]
      exact Nat.le_add_right ..
    rw [same] at old
    omega

lemma Sent.streamLoop (scalars : ∀ c ∈ whole, IsScalar c) (left : Nat) {s : S} {token : Int}
    {step : Nat} (sent : Sent tok whole generated sink)
    (text : tok.decodeTokens (streamLoop engine r tok left s token step generated sink).1 true =
      encodeUtf8 whole) :
    Sent tok whole (Server.streamLoop engine r tok left s token step generated sink).1
      (Server.streamLoop engine r tok left s token step generated sink).2.1 := by
  induction left generalizing s token step generated sink with
  | zero => exact sent
  | succ left ih =>
    unfold Server.streamLoop at text ⊢
    dsimp only at text ⊢
    split_ifs at text ⊢ with ended
    · exact sent
    · refine ih (sent.emitDelta scalars ?_) text
      rw [streamLoop_generated] at text
      rw [← text]
      exact decodeTokens_prefix <| decodeLoop_prefix ..

lemma Sent.nil (tok : Tokenizer) (whole : Text) : Sent tok whole [] ⟨0, []⟩ where
  chunks := nofun
  front := ⟨[], List.nil_prefix, rfl, rfl⟩
  all := fun same => congrArg List.length same

lemma sent_handleStream (engine : PersistentEngine S Int SP) (r : ChatRequest Int SP)
    (scalars : ∀ c ∈ whole, IsScalar c) (s : S)
    (text : tok.decodeTokens (generate engine r s) true = encodeUtf8 whole) :
    ∃ sink, Sent tok whole (generate engine r s) sink ∧
      (handleStream engine r tok s).chunks = sink.chunks ∧
      (handleStream engine r tok s).tail =
        (tok.decodeTokens (generate engine r s) true).drop sink.sentOffset := by
  have tokens : (handleStream engine r tok s).generated = generate engine r s :=
    handleStream_generated s
  rw [← tokens] at text ⊢
  unfold handleStream at text ⊢
  dsimp only at text ⊢
  split_ifs at text ⊢ with ended
  · exact ⟨_, (Sent.nil tok whole).emitDelta scalars List.nil_prefix, rfl, rfl⟩
  · refine ⟨_, Sent.streamLoop scalars _ ((Sent.nil tok whole).emitDelta scalars ?_) text, rfl, rfl⟩
    rw [← text, streamLoop_generated]
    exact decodeTokens_prefix <| decodeLoop_prefix ..

/-- A stream whose bytes are UTF-8: every chunk is, and the chunks and the tail are the text. -/
theorem stream_chunks (engine : PersistentEngine S Int SP) (r : ChatRequest Int SP)
    (tok : Tokenizer) (s : S)
    (valid : ValidUtf8 (tok.decodeTokens (generate engine r s) true)) :
    (∀ chunk ∈ (handleStream engine r tok s).chunks, ValidUtf8 chunk) ∧
      (handleStream engine r tok s).chunks.flatten ++ (handleStream engine r tok s).tail =
        tok.decodeTokens (generate engine r s) true := by
  obtain ⟨whole, scalars, text⟩ := valid
  obtain ⟨sink, sent, chunks, tail⟩ := sent_handleStream engine r scalars s text
  obtain ⟨t, ⟨u, rfl⟩, flat, offset⟩ := sent.front
  rw [chunks, tail, text]
  refine ⟨sent.chunks, ?_⟩
  rw [flat, offset, encodeUtf8_append, List.drop_left]

/-- Two tokens, for the two bytes of `é`. -/
def twoTokens : Tokenizer where
  idToToken := [symbol 0xC3, symbol 0xA9]
  tokenToId := [(symbol 0xC3, 0), (symbol 0xA9, 1)]
  mergeRank := []
  specialTokenIds := [false, false]
  specialTokenIdList := []

/-- An engine that returns one token after the other. -/
def countingEngine : PersistentEngine Int Int Unit where
  maxContext := 16
  eosId := 2
  resetSession _ := 0
  prefill s _ _ := (s, s + 1)
  decodeStep s _ _ _ := (s, s + 1)

lemma twoTokens_text :
    twoTokens.decodeTokens (generate countingEngine ⟨[7], 4, true, ()⟩ 5) true =
      encodeUtf8 (text "é") := by
  have tokens : generate countingEngine ⟨[7], 4, true, ()⟩ 5 = [0, 1] := by decide
  have first : twoTokens.token 0 = [0xC3].flatMap symbol ∧ twoTokens.skipped 0 = false := by
    decide +kernel
  have second : twoTokens.token 1 = [0xA9].flatMap symbol ∧ twoTokens.skipped 1 = false := by
    decide +kernel
  have bytes (b : Byte) : decodeSymbols ([b].flatMap symbol).length ([b].flatMap symbol) = [b] :=
    decode_spelled [b] _ (length_spell [b])
  rw [tokens, Tokenizer.decodeTokens, List.flatMap_cons, List.flatMap_singleton]
  simp only [first, second, bytes]
  decide

/-- The two bytes of a code point come with two tokens. -/
theorem stream_chunks_split :
    (∀ chunk ∈ (handleStream countingEngine ⟨[7], 4, true, ()⟩ twoTokens 5).chunks,
        ValidUtf8 chunk) ∧
      (handleStream countingEngine ⟨[7], 4, true, ()⟩ twoTokens 5).chunks.flatten ++
          (handleStream countingEngine ⟨[7], 4, true, ()⟩ twoTokens 5).tail =
        twoTokens.decodeTokens (generate countingEngine ⟨[7], 4, true, ()⟩ 5) true :=
  stream_chunks countingEngine ⟨[7], 4, true, ()⟩ twoTokens 5
    ⟨text "é", forall_code (by decide), twoTokens_text⟩

/-- Then the tail is empty. -/
theorem stream_tail (s : S) (valid : ValidUtf8 (tok.decodeTokens (generate engine r s) true)) :
    (handleStream engine r tok s).tail = [] := by
  obtain ⟨whole, scalars, text⟩ := valid
  obtain ⟨sink, sent, -, tail⟩ := sent_handleStream engine r scalars s text
  rw [tail, sent.all text, text, List.drop_length]

end

end PocketMoE.Server
