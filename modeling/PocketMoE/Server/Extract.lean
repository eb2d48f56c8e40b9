import Mathlib.Data.Bool.AllAny
import PocketMoE.Lib.JsonGrammar
import PocketMoE.Lib.Search
import PocketMoE.Server.Sidecar

/-!
# The arrays that the server takes from a body

`extract_messages_json` and `extract_tools_json` (`openai_server.cpp`) search the body for the text of a
key and match brackets from the next `[` on. The brackets of an array of the grammar match
(`matchBrackets_array`), so it is found exactly if the first `[` behind the first text of the key begins
it, or one with the same text (`extract_iff`).
-/

namespace PocketMoE.Server
open PocketMoE.Lib JsonGrammar

/-! ## The brackets of a text -/

/-- The scan of brackets goes over the text and is where it was. -/
def Passes (st : Lex) (s : Bytes) : Prop :=
  ∀ depth : Int, 1 ≤ depth → ∀ rest,
    matchBrackets depth st (s ++ rest) = (matchBrackets depth st rest).map (s ++ ·)

/-- Inside a string. -/
def Lex.inside : Lex := ⟨true, false⟩

section
variable {st : Lex} {s t : Bytes}

lemma Passes.nil : Passes st [] := fun depth _ rest => by
  cases matched : matchBrackets depth st rest with
  | none => rw [List.nil_append, matched, Option.map_none]
  | some r => rw [List.nil_append, matched, Option.map_some, List.nil_append]

lemma Passes.append (first : Passes st s) (second : Passes st t) : Passes st (s ++ t) := by
  intro depth pos rest
  rw [List.append_assoc, first depth pos, second depth pos, Option.map_map]
  congr 1
  funext r
  exact (List.append_assoc ..).symm

lemma Passes.cons {c : Char} (first : Passes st [c]) (second : Passes st s) : Passes st (c :: s) :=
  first.append second

lemma Passes.flatten {pieces : List Bytes} (all : ∀ p ∈ pieces, Passes st p) :
    Passes st pieces.flatten := by
  induction pieces with
  | nil => exact .nil
  | cons p pieces ih =>
    rw [List.forall_mem_cons] at all
    rw [List.flatten_cons]
    exact all.1.append (ih all.2)

/-- Neither a quote nor a bracket. -/
def Neutral (c : Char) : Prop := c ≠ '"' ∧ c ≠ '[' ∧ c ≠ '{' ∧ c ≠ ']' ∧ c ≠ '}'

lemma Passes.neutral {c : Char} (neutral : Neutral c) : Passes .start [c] := by
  obtain ⟨quote, open', open'', close, close'⟩ := neutral
  intro depth _ rest
  have step : Lex.start.step c = Lex.start := by
    simp [Lex.step, Lex.start, quote]
  rw [List.singleton_append, matchBrackets, step]
  simp [Lex.start, quote, open', open'', close, close']

lemma Passes.neutrals (all : ∀ c ∈ s, Neutral c) : Passes .start s := by
  induction s with
  | nil => exact .nil
  | cons c s ih =>
    rw [List.forall_mem_cons] at all
    exact .cons (.neutral all.1) (ih all.2)

/-! ## Strings -/

lemma matchBrackets_quiet {depth : Int} {st : Lex} {c : Char} {rest : Bytes}
    (quiet : st.esc = true ∨ st.inStr = true ∨ c = '"') :
    matchBrackets depth st (c :: rest) =
      (matchBrackets depth (st.step c) rest).map (c :: ·) := by
  rw [matchBrackets, if_pos quiet]

lemma Passes.plain {c : Char} (quote : c ≠ '"') (slash : c ≠ '\\') : Passes .inside [c] := by
  intro depth _ rest
  have step : Lex.inside.step c = Lex.inside := by
    simp [Lex.step, Lex.inside, quote, slash]
  rw [List.singleton_append, matchBrackets_quiet (Or.inr (Or.inl rfl)), step]
  rfl

lemma Passes.escaped (e : Char) : Passes .inside ['\\', e] := by
  intro depth _ rest
  have first : Lex.inside.step '\\' = ⟨true, true⟩ := rfl
  have second : Lex.step ⟨true, true⟩ e = Lex.inside := rfl
  rw [List.cons_append, List.singleton_append, matchBrackets_quiet (Or.inr (Or.inl rfl)), first,
    matchBrackets_quiet (Or.inl rfl), second, Option.map_map]
  rfl

lemma hexValue_plain {c : Char} {n : Nat} (hex : hexValue c = some n) : c ≠ '"' ∧ c ≠ '\\' := by
  constructor
  · rintro rfl
    cases hex
  · rintro rfl
    cases hex

lemma Passes.piece {n : Nat} (piece : Piece n s) : Passes .inside s := by
  cases piece with
  | plain plain => exact .plain plain.1 plain.2.1
  | escaped => exact .escaped _
  | unicode a b c d =>
    have digit {x : Char} {n : Nat} (hex : hexValue x = some n) : Passes .inside [x] :=
      .plain (hexValue_plain hex).1 (hexValue_plain hex).2
    exact (Passes.escaped 'u').append ((digit a).cons ((digit b).cons ((digit c).cons (digit d))))

lemma Passes.string {units : List Nat} (string : StringText units s) : Passes .start s := by
  obtain ⟨pieces, all, rfl⟩ := string
  have inner : Passes .inside pieces.flatten := by
    refine .flatten fun p mem => ?_
    induction all with
    | nil => cases mem
    | cons here _ ih =>
      rcases List.mem_cons.mp mem with rfl | later
      · exact .piece here
      · exact ih later
  intro depth pos rest
  have opened : Lex.start.step '"' = Lex.inside := rfl
  have closed : Lex.inside.step '"' = Lex.start := rfl
  rw [List.cons_append, matchBrackets_quiet (Or.inr (Or.inr rfl)), opened, List.append_assoc,
    inner depth pos, List.singleton_append, matchBrackets_quiet (Or.inr (Or.inl rfl)), closed,
    Option.map_map, Option.map_map]
  congr 1
  funext r
  simp only [Function.comp_apply, List.cons_append, List.append_assoc, List.nil_append]

/-! ## Values -/

lemma Passes.bracketed {c d : Char} (pair : c = '[' ∧ d = ']' ∨ c = '{' ∧ d = '}')
    (inner : Passes .start s) : Passes .start (c :: (s ++ [d])) := by
  intro depth pos rest
  have opened : matchBrackets depth .start (c :: (s ++ d :: rest)) =
      (matchBrackets (depth + 1) .start (s ++ d :: rest)).map (c :: ·) := by
    rw [matchBrackets]
    rcases pair with ⟨rfl, rfl⟩ | ⟨rfl, rfl⟩
    · rfl
    · rfl
  have closed : matchBrackets (depth + 1) .start (d :: rest) =
      (matchBrackets depth .start rest).map (d :: ·) := by
    rw [matchBrackets, Int.add_sub_cancel]
    rcases pair with ⟨rfl, rfl⟩ | ⟨rfl, rfl⟩
    · simp [Lex.start, Lex.step, show depth ≠ 0 by omega]
    · simp [Lex.start, Lex.step]
  rw [List.cons_append, List.append_assoc, List.singleton_append, opened,
    inner (depth + 1) (by omega), closed, Option.map_map, Option.map_map]
  congr 1
  funext r
  simp only [Function.comp_apply, List.cons_append, List.append_assoc, List.nil_append]

lemma Passes.blank (blank : Blank s) : Passes .start s := by
  refine .neutrals fun c mem => ?_
  rcases blank c mem with rfl | rfl | rfl | rfl
  all_goals exact ⟨by decide, by decide, by decide, by decide, by decide⟩

lemma Neutral.digit {c : Char} (digit : c.isDigit) : Neutral c := by
  refine ⟨?_, ?_, ?_, ?_, ?_⟩
  all_goals
    rintro rfl
    exact absurd digit (by decide)

lemma numberText_neutral (number : NumberText s) : ∀ c ∈ s, Neutral c := by
  obtain ⟨sign, int, frac, exp, rfl, signed, digits, -, fraction, exponent⟩ := number
  have digits {ds : Bytes} (digits : Digits ds) : ∀ c ∈ ds, Neutral c :=
    fun c mem => .digit (digits.2 c mem)
  have others : ∀ c ∈ "+-.eE".toList, Neutral c := by
    unfold Neutral
    exact List.all_iff_forall_prop.mp (by decide)
  have plus : Neutral '+' := others _ (by decide)
  have minus : Neutral '-' := others _ (by decide)
  simp only [List.forall_mem_append]
  refine ⟨?_, digits ‹_›, ?_, ?_⟩
  · rcases signed with rfl | rfl
    · nofun
    · exact List.forall_mem_singleton.mpr minus
  · rcases fraction with rfl | ⟨ds, fraction, rfl⟩
    · nofun
    · exact List.forall_mem_cons.mpr ⟨others _ (by decide), digits fraction⟩
  · rcases exponent with rfl | ⟨e, sign, ds, letter, signed, exponent, rfl⟩
    · nofun
    · refine List.forall_mem_cons.mpr ⟨?_, List.forall_mem_append.mpr ⟨?_, digits exponent⟩⟩
      · rcases letter with rfl | rfl
        all_goals exact others _ (by decide)
      · rcases signed with rfl | rfl | rfl
        · nofun
        · exact List.forall_mem_singleton.mpr plus
        · exact List.forall_mem_singleton.mpr minus

lemma Passes.text {part : Part} (text : JsonText part s) : Passes .start s := by
  have comma : Passes .start [','] :=
    .neutral ⟨by decide, by decide, by decide, by decide, by decide⟩
  have colon : Passes .start [':'] :=
    .neutral ⟨by decide, by decide, by decide, by decide, by decide⟩
  have letters : ∀ c ∈ "nultrefas".toList, Neutral c := by
    unfold Neutral
    exact List.all_iff_forall_prop.mp (by decide)
  induction text with
  | literal word =>
    refine .neutrals fun c mem => ?_
    have letter : c ∈ "nultrefas".toList := by
      rcases word with rfl | rfl | rfl
      all_goals
        revert c
        exact List.all_iff_forall_prop.mp (by decide)
    exact letters c letter
  | number number => exact .neutrals (numberText_neutral number)
  | string string => exact .string string
  | emptyArray blank => exact .bracketed (Or.inl ⟨rfl, rfl⟩) (.blank blank)
  | array _ ih => exact .bracketed (Or.inl ⟨rfl, rfl⟩) ih
  | emptyObject blank => exact .bracketed (Or.inr ⟨rfl, rfl⟩) (.blank blank)
  | object _ ih => exact .bracketed (Or.inr ⟨rfl, rfl⟩) ih
  | element blank _ blank' ih => exact (Passes.blank blank).append (ih.append (.blank blank'))
  | member blank name blank' _ ih =>
    exact (Passes.blank blank).append
      ((Passes.string name).append ((Passes.blank blank').append (colon.cons ih)))
  | lastElement _ ih => exact ih
  | elements _ _ first rest => exact first.append (comma.cons rest)
  | lastMember _ ih => exact ih
  | members _ _ first rest => exact first.append (comma.cons rest)

end

/-- The brackets of an array match. -/
theorem matchBrackets_array {array : Bytes} (text : JsonText .value array)
    (opens : array.head? = some '[') (rest : Bytes) :
    matchBrackets 0 .start (array ++ rest) = some array := by
  have whole {s : Bytes} (inner : Passes .start s) :
      matchBrackets 0 .start ('[' :: (s ++ [']']) ++ rest) = some ('[' :: (s ++ [']'])) := by
    have opened : matchBrackets 0 .start ('[' :: (s ++ ']' :: rest)) =
        (matchBrackets 1 .start (s ++ ']' :: rest)).map ('[' :: ·) := rfl
    have closed : matchBrackets 1 .start (']' :: rest) = some [']'] := rfl
    rw [List.cons_append, List.append_assoc, List.singleton_append, opened,
      inner 1 (Int.le_refl 1), closed, Option.map_some, Option.map_some]
  cases text with
  | literal word =>
    rcases word with rfl | rfl | rfl
    all_goals exact absurd opens (by decide)
  | number number => exact absurd rfl (numberText_neutral number _ (List.mem_of_head? opens)).2.1
  | string string =>
    obtain ⟨pieces, -, rfl⟩ := string
    cases opens
  | emptyArray blank => exact whole (.blank blank)
  | array inner => exact whole (.text inner)
  | emptyObject => cases opens
  | object => cases opens

/-! ## What is found -/

/-- What a character does to the nesting of brackets. -/
def Lex.weight (st : Lex) (c : Char) : Int :=
  if st.esc = true ∨ st.inStr = true then 0
  else if c = '[' ∨ c = '{' then 1
  else if c = ']' ∨ c = '}' then -1
  else 0

/-- How much deeper brackets are nested at the end of a text, outside strings. -/
def nesting (st : Lex) : Bytes → Int
  | [] => 0
  | c :: rest => st.weight c + nesting (st.step c) rest

/-- A bracket of the text closes its first one. -/
def Closes (s : Bytes) : Prop :=
  ∃ inner rest, s = inner ++ ']' :: rest ∧ inner.foldl Lex.step .start = .start ∧
    nesting .start inner = 1

lemma matchBrackets_cons (depth : Int) (st : Lex) (c : Char) (s : Bytes) :
    matchBrackets depth st (c :: s) =
      if c = ']' ∧ st = .start ∧ depth = 1 then some [c]
      else (matchBrackets (depth + st.weight c) (st.step c) s).map (c :: ·) := by
  obtain ⟨inStr, esc⟩ := st
  rw [matchBrackets]
  cases inStr with
  | true => simp [Lex.weight, Lex.start]
  | false =>
    cases esc with
    | true => simp [Lex.weight, Lex.start]
    | false =>
      by_cases quote : c = '"'
      · subst quote
        simp [Lex.weight]
      · by_cases close : c = ']'
        · subst close
          by_cases last : depth = 1
          · simp [Lex.start, last]
          · have more : depth - 1 ≠ 0 := by omega
            simp [Lex.weight, last, more, ← Int.sub_eq_add_neg]
        · by_cases brace : c = '}'
          · simp [Lex.weight, brace, Int.sub_eq_add_neg]
          · by_cases opening : c = '[' ∨ c = '{'
            · simp [Lex.weight, quote, close, opening]
            · simp [Lex.weight, quote, close, brace, opening]

lemma matchBrackets_none {depth : Int} {st : Lex} {s : Bytes} :
    matchBrackets depth st s = none ↔
      ∀ inner rest, s = inner ++ ']' :: rest → inner.foldl Lex.step st = .start →
        depth + nesting st inner ≠ 1 := by
  induction s generalizing depth st with
  | nil => exact iff_of_true rfl fun inner rest eq => absurd eq (by simp)
  | cons c s ih =>
    rw [matchBrackets_cons]
    split_ifs with here
    · obtain ⟨rfl, rfl, rfl⟩ := here
      exact iff_of_false nofun fun all => all [] s rfl rfl rfl
    · rw [Option.map_eq_none_iff, ih]
      constructor
      · intro all inner rest eq back
        cases inner with
        | nil =>
          rintro last
          obtain ⟨rfl, -⟩ := List.cons.inj eq
          exact here ⟨rfl, back, by rwa [nesting, Int.add_zero] at last⟩
        | cons c' inner =>
          obtain ⟨rfl, tail⟩ := List.cons.inj eq
          rw [nesting, ← Int.add_assoc]
          exact all inner rest tail back
      · intro all inner rest eq back
        have whole := all (c :: inner) rest (by rw [eq, List.cons_append]) back
        rwa [nesting, ← Int.add_assoc] at whole

lemma matchBrackets_closes {s : Bytes} : matchBrackets 0 .start s = none ↔ ¬ Closes s := by
  rw [matchBrackets_none]
  constructor
  · rintro all ⟨inner, rest, eq, back, level⟩
    exact all inner rest eq back (by rw [level]; rfl)
  · intro open' inner rest eq back level
    exact open' ⟨inner, rest, eq, back, by rwa [Int.zero_add] at level⟩

lemma matchBrackets_begins {depth : Int} {st : Lex} {s array : Bytes}
    (found : matchBrackets depth st s = some array) : array <+: s := by
  induction s generalizing depth st array with
  | nil => cases found
  | cons c s ih =>
    rw [matchBrackets_cons] at found
    split_ifs at found with here
    · obtain rfl := Option.some.inj found
      exact List.prefix_append [c] s
    · obtain ⟨array', found', rfl⟩ := Option.map_eq_some_iff.mp found
      exact List.cons_prefix_cons.mpr ⟨rfl, ih found'⟩

/-- The text from the first place of a pattern on. -/
def First (pattern body s : Bytes) : Prop :=
  ∃ p, At pattern body p ∧ (∀ q < p, ¬ At pattern body q) ∧ s = body.drop p

lemma findText_firstAt (pattern body : Bytes) :
    findText pattern body = (firstAt pattern body).map body.drop := by
  induction body with
  | nil =>
    unfold findText firstAt
    cases pattern with
    | nil => rfl
    | cons c pattern => rfl
  | cons c rest ih =>
    unfold findText firstAt
    split_ifs with here
    · rfl
    · rw [ih, Option.map_map]
      rfl

lemma findText_some {pattern body s : Bytes} :
    findText pattern body = some s ↔ First pattern body s := by
  rw [findText_firstAt, Option.map_eq_some_iff]
  constructor
  · rintro ⟨p, found, rfl⟩
    obtain ⟨here, least⟩ := (least_firstAt pattern body).eq_some.mp found
    exact ⟨p, here, least, rfl⟩
  · rintro ⟨p, here, least, rfl⟩
    exact ⟨p, (least_firstAt pattern body).eq_some.mpr ⟨here, least⟩, rfl⟩

/-- The text from the first `[` on that stands behind the first text of a key. -/
def From (key : String) (body s : Bytes) : Prop :=
  ∃ behind, First ('"' :: key.toList ++ ['"']) body behind ∧ First ['['] behind s

lemma From.unique {key : String} {body s s' : Bytes} (here : From key body s)
    (here' : From key body s') : s = s' := by
  obtain ⟨behind, name, bracket⟩ := here
  obtain ⟨behind', name', bracket'⟩ := here'
  obtain rfl := Option.some.inj ((findText_some.mpr name).symm.trans (findText_some.mpr name'))
  exact Option.some.inj ((findText_some.mpr bracket).symm.trans (findText_some.mpr bracket'))

lemma extractArray_from {key fallback : String} {body s : Bytes} (here : From key body s) :
    extractArray key fallback body = (matchBrackets 0 .start s).getD fallback.toList := by
  obtain ⟨behind, name, bracket⟩ := here
  rw [extractArray, findText_some.mpr name]
  dsimp only
  rw [findText_some.mpr bracket]

lemma extractArray_missing {key fallback : String} {body : Bytes} (missing : ∀ s, ¬ From key body s) :
    extractArray key fallback body = fallback.toList := by
  unfold extractArray
  cases name : findText ('"' :: key.toList ++ ['"']) body with
  | none => rfl
  | some behind =>
    dsimp only
    cases bracket : findText ['['] behind with
    | none => rfl
    | some s => exact absurd ⟨behind, findText_some.mp name, findText_some.mp bracket⟩ (missing s)

/-- The array begins at the first `[` behind the first text of the key. -/
def Begins (key : String) (body array : Bytes) : Prop := ∃ rest, From key body (array ++ rest)

lemma extractArray_begins {key : String} {fallback : String} {body array : Bytes}
    (text : JsonText .value array) (opens : array.head? = some '[') (begins : Begins key body array) :
    extractArray key fallback body = array := by
  obtain ⟨rest, here⟩ := begins
  rw [extractArray_from here, matchBrackets_array text opens, Option.getD_some]

/-- An array is found if the first `[` behind the first text of the key begins it, and the fallback if
no bracket closes it. -/
theorem extractArray_iff {key fallback : String} {body array : Bytes} (text : JsonText .value array)
    (opens : array.head? = some '[') :
    extractArray key fallback body = array ↔
      Begins key body array ∨
        array = fallback.toList ∧ ∀ s, From key body s → ¬ Closes s := by
  constructor
  · intro found
    by_cases missing : ∀ s, ¬ From key body s
    · rw [extractArray_missing missing] at found
      exact Or.inr ⟨found.symm, fun s here => absurd here (missing s)⟩
    · obtain ⟨s, here⟩ := not_forall_not.mp missing
      rw [extractArray_from here] at found
      cases matched : matchBrackets 0 .start s with
      | none =>
        rw [matched, Option.getD_none] at found
        refine Or.inr ⟨found.symm, fun s' here' => ?_⟩
        rw [← here.unique here']
        exact matchBrackets_closes.mp matched
      | some array' =>
        rw [matched, Option.getD_some] at found
        obtain ⟨rest, rfl⟩ := matchBrackets_begins matched
        exact Or.inl ⟨rest, found ▸ here⟩
  · rintro (begins | ⟨rfl, unclosed⟩)
    · exact extractArray_begins text opens begins
    · by_cases missing : ∀ s, ¬ From key body s
      · exact extractArray_missing missing
      · obtain ⟨s, here⟩ := not_forall_not.mp missing
        rw [extractArray_from here, matchBrackets_closes.mpr (unclosed s here), Option.getD_none]

/-! ## The arrays of a request -/

/-- The text is an object in which a key has this array. -/
def TopArray (key : String) (array body : Bytes) : Prop :=
  TopValue key.toList array body ∧ array.head? = some '['

lemma TopArray.text {key : String} {array body : Bytes} (top : TopArray key array body) :
    JsonText .value array := by
  obtain ⟨⟨w, before, m, after, w', -, -, member, -, -⟩, -⟩ := top
  obtain ⟨w, k, w', u, u', -, -, -, -, text, -, -⟩ := member
  exact text

/-- The messages and the tools of a body are found. -/
def Extracts (body messages : Bytes) : Prop :=
  extractMessagesJson body = messages ∧
    ∀ tools, TopArray "tools" tools body → extractToolsJson body = tools

/-- A body in which the metadata has messages too. -/
def redirected : Bytes :=
  ("\x7b\"metadata\":\x7b\"messages\":[]\x7d," ++
    "\"messages\":[\x7b\"role\":\"user\",\"content\":\"hi\"\x7d]\x7d").toList

/-- Its messages. -/
def redirectedMessages : Bytes :=
  "[\x7b\"role\":\"user\",\"content\":\"hi\"\x7d]".toList

lemma redirected_top : TopArray "messages" redirectedMessages redirected := by
  have blank : Blank [] := fun c mem => absurd mem List.not_mem_nil
  have plain {name : String} (all : name.toList.all fun c => Plain c) : ∀ c ∈ name.toList, Plain c :=
    List.all_iff_forall_prop.mp all
  have user : ∀ c ∈ "user".toList, Plain c := plain (by decide)
  have hi : ∀ c ∈ "hi".toList, Plain c := plain (by decide)
  have name : ∀ c ∈ "messages".toList, Plain c := plain (by decide)
  have role : MemberText "role".toList _ _ := .plain (plain (by decide)) (.string (.plain user))
  have content : MemberText "content".toList _ _ :=
    .plain (plain (by decide)) (.string (.plain hi))
  have inner : MemberText "messages".toList _ _ := .plain name (.emptyArray blank)
  have metadata : MemberText "metadata".toList _ _ :=
    .plain (plain (by decide)) (.object (.lastMember inner.jsonText))
  have messages := JsonText.array (.lastElement (.element blank
    (.object (.members role.jsonText (.lastMember content.jsonText))) blank))
  refine ⟨⟨[], [_], _, [], [], blank, List.forall_mem_singleton.mpr metadata.jsonText,
    .plain name messages, blank, ?_⟩, rfl⟩
  rfl

/-- The messages of a body and its tools are found if they begin at the first `[` behind the first text
of their key. No messages are also found if there is no such `[`, or if no bracket closes it. -/
theorem extracts_iff {body messages : Bytes} (top : TopArray "messages" messages body) :
    Extracts body messages ↔
      (Begins "messages" body messages ∨
        messages = "[]".toList ∧ ∀ s, From "messages" body s → ¬ Closes s) ∧
      ∀ tools, TopArray "tools" tools body → Begins "tools" body tools := by
  refine and_congr (extractArray_iff top.text top.2) (forall₂_congr fun tools top' => ?_)
  refine (extractArray_iff top'.text top'.2).trans (or_iff_left ?_)
  rintro ⟨rfl, -⟩
  cases top'.2

theorem extracts_iff_redirected : Extracts redirected redirectedMessages ↔
    (Begins "messages" redirected redirectedMessages ∨
      redirectedMessages = "[]".toList ∧ ∀ s, From "messages" redirected s → ¬ Closes s) ∧
    ∀ tools, TopArray "tools" tools redirected → Begins "tools" redirected tools :=
  extracts_iff redirected_top

/-- The array of the metadata is taken instead. -/
theorem extracts_other : ¬ ∀ body messages, TopArray "messages" messages body →
    Extracts body messages := by
  intro all
  have found := (all redirected redirectedMessages redirected_top).1
  have other : extractMessagesJson redirected = "[]".toList := by decide +kernel
  rw [other] at found
  exact absurd found (by decide +kernel)

end PocketMoE.Server
