import Mathlib.Data.List.Chain
import Mathlib.Data.List.GetD
import Mathlib.Data.List.Nodup
import Mathlib.Data.List.TakeWhile
import PocketMoE.Engine.Tokenizer
import PocketMoE.Lib.Except
import PocketMoE.Lib.Utf8

/-!
# When the tokenizer loses nothing

The symbols of the alphabet begin no other symbol, so what is spelled with them is read back
(`decode_spelled`), and merging only groups the bytes (`bpe_groups`). Text is lost where a space stands
before another white space: the space is put in front of a later pre-token, or nowhere
(`pretokens_iff`), and where a piece is not a token, or is one that is passed over (`lossless_iff`).
-/

namespace PocketMoE.Engine
open PocketMoE.Lib

/-! ## Symbols -/

section
variable {a b : Nat} {rest : List Byte}

lemma utf8Codepoint_eq (small : a < 0x800) :
    utf8Codepoint a =
      if a < 0x80 then [byte a] else [byte (0xC0 + a / 64), byte (0x80 + a % 64)] := by
  unfold utf8Codepoint
  have head : 0xC0 ||| a >>> 6 = 0xC0 + a / 64 := by
    rw [Nat.shiftRight_eq_div_pow]
    exact (Nat.two_pow_add_eq_or_of_lt (i := 6) (by omega) 3).symm
  have tail : 0x80 ||| a &&& 0x3F = 0x80 + a % 64 := by
    have mask : a &&& 0x3F = a % 64 := Nat.and_two_pow_sub_one_eq_mod a 6
    rw [mask]
    exact (Nat.two_pow_add_eq_or_of_lt (i := 7) (by omega) 1).symm
  rw [head, tail]
  by_cases short : a < 0x80
  · rw [if_pos (Nat.le_of_lt_succ short), if_pos short]
    rfl
  · rw [if_neg (by omega), if_pos (Nat.le_of_lt_succ small), if_neg short]
    rfl

lemma utf8Codepoint_unique (smallA : a < 0x800) (smallB : b < 0x800)
    (start : utf8Codepoint a <+: utf8Codepoint b ++ rest) : a = b := by
  rw [utf8Codepoint_eq smallA, utf8Codepoint_eq smallB] at start
  obtain ⟨t, eq⟩ := start
  split_ifs at eq with shortA shortB shortB
  all_goals
    simp only [List.cons_append, List.nil_append, List.cons.injEq, Fin.ext_iff, byte_val] at eq
    omega

end

lemma mem_alphabetBytes (b : Byte) : b.1 ∈ alphabetBytes := by
  unfold alphabetBytes otherBytes
  rw [List.mem_append, List.mem_filter, List.mem_range]
  by_cases here : b.1 ∈ printableBytes
  · exact Or.inl here
  · exact Or.inr ⟨b.2, decide_eq_true here⟩

lemma printableBytes_lt {n : Nat} (mem : n ∈ printableBytes) : n < 256 := by
  unfold printableBytes at mem
  simp only [List.mem_append, List.mem_range'_1] at mem
  omega

lemma alphabetCodes_nodup : alphabetCodes.Nodup := by
  unfold alphabetCodes
  refine List.nodup_append'.mpr ⟨?_, ?_, ?_⟩
  · unfold printableBytes
    refine List.nodup_append'.mpr ⟨List.nodup_append'.mpr ⟨List.nodup_range', List.nodup_range', ?_⟩,
      List.nodup_range', ?_⟩
    · intro n first second
      rw [List.mem_range'_1] at first second
      omega
    · intro n first third
      rw [List.mem_append, List.mem_range'_1, List.mem_range'_1] at first
      rw [List.mem_range'_1] at third
      omega
  · exact (List.nodup_range).map fun m n eq => Nat.add_left_cancel eq
  · rw [List.disjoint_left]
    intro n low high
    obtain ⟨m, -, rfl⟩ := List.mem_map.mp high
    have := printableBytes_lt low
    omega

lemma alphabetCodes_lt {n : Nat} (mem : n ∈ alphabetCodes) : n < 0x800 := by
  unfold alphabetCodes at mem
  rcases List.mem_append.mp mem with low | high
  · have := printableBytes_lt low
    omega
  · obtain ⟨m, small, rfl⟩ := List.mem_map.mp high
    have few : otherBytes.length ≤ (List.range 256).length := List.length_filter_le _ _
    rw [List.mem_range] at small
    rw [List.length_range] at few
    omega

lemma length_alphabet : alphabetBytes.length = alphabetCodes.length := by
  unfold alphabetBytes alphabetCodes
  rw [List.length_append, List.length_append, List.length_map, List.length_range]

lemma symbol_eq (b : Byte) : ∃ inside : alphabetBytes.idxOf b.1 < alphabetCodes.length,
    symbol b = utf8Codepoint alphabetCodes[alphabetBytes.idxOf b.1] := by
  have inside := List.idxOf_lt_length_of_mem (mem_alphabetBytes b)
  rw [length_alphabet] at inside
  refine ⟨inside, ?_⟩
  unfold symbol
  rw [List.getD_eq_getElem _ _ inside]

lemma symbol_unique {b c : Byte} {rest : List Byte} (start : symbol b <+: symbol c ++ rest) :
    b = c := by
  obtain ⟨insideB, symbolB⟩ := symbol_eq b
  obtain ⟨insideC, symbolC⟩ := symbol_eq c
  rw [symbolB, symbolC] at start
  have same := utf8Codepoint_unique (alphabetCodes_lt (List.getElem_mem insideB))
    (alphabetCodes_lt (List.getElem_mem insideC)) start
  have place := (alphabetCodes_nodup.getElem_inj_iff).mp same
  exact Fin.ext ((List.idxOf_inj (mem_alphabetBytes b)).mp place)

lemma symbol_ne_nil (b : Byte) : symbol b ≠ [] := by
  obtain ⟨inside, eq⟩ := symbol_eq b
  rw [eq, utf8Codepoint_eq (alphabetCodes_lt (List.getElem_mem inside))]
  split_ifs
  · exact List.cons_ne_nil _ _
  · exact List.cons_ne_nil _ _

lemma symbolAt_symbol (b : Byte) (rest : List Byte) : symbolAt (symbol b ++ rest) = some b := by
  unfold symbolAt
  rw [List.find?_eq_some_iff_append]
  obtain ⟨before, after, split⟩ := List.append_of_mem (List.mem_finRange b)
  refine ⟨decide_eq_true (List.prefix_append _ _), before, after, split, fun c mem => ?_⟩
  have other : c ≠ b := by
    rintro rfl
    have nodup := List.nodup_finRange 256
    rw [split] at nodup
    exact List.disjoint_left.mp (List.nodup_append'.mp nodup).2.2 mem (List.mem_cons_self ..)
  rw [Bool.not_eq_true', decide_eq_false_iff_not]
  exact fun start => other (symbol_unique start)

lemma decodeSymbols_found {fuel : Nat} {s : List Byte} {b : Byte} (found : symbolAt s = some b)
    (some : s ≠ []) :
    decodeSymbols (fuel + 1) s = b :: decodeSymbols fuel (s.drop (symbol b).length) := by
  cases s with
  | nil => exact absurd rfl some
  | cons c rest => rw [decodeSymbols, found, Option.elim_some]

lemma decode_spelled (bytes : List Byte) (fuel : Nat) (enough : bytes.length ≤ fuel) :
    decodeSymbols fuel (bytes.flatMap symbol) = bytes := by
  induction fuel generalizing bytes with
  | zero =>
    rw [List.length_eq_zero_iff.mp (Nat.le_zero.mp enough)]
    rfl
  | succ fuel ih =>
    cases bytes with
    | nil => rw [List.flatMap_nil, decodeSymbols]
    | cons b bytes =>
      rw [List.flatMap_cons, decodeSymbols_found (symbolAt_symbol b _)
        (List.append_ne_nil_of_left_ne_nil (symbol_ne_nil b) _), List.drop_left,
        ih bytes (Nat.le_of_succ_le_succ enough)]

lemma decodeSymbols_ne_nil {fuel : Nat} {s : List Byte} (some : s ≠ []) :
    decodeSymbols (fuel + 1) s ≠ [] := by
  cases s with
  | nil => exact absurd rfl some
  | cons c rest =>
    rw [decodeSymbols]
    cases symbolAt (c :: rest)
    · exact List.cons_ne_nil _ _
    · exact List.cons_ne_nil _ _

/-! ## Pre-tokens -/

/-- The class of a code point: that of its first byte. -/
def codeClass (c : Code) : ByteTokenClass := if c.1 < 0x80 then byteTokenClass (byte c) else .letter

/-- No space stands directly before another white space. -/
def NoLooseSpace (s : Text) : Prop :=
  s.IsChain fun a b => ¬ (codeClass a = .space ∧ codeClass b = .whitespace)

lemma byte_class : ∀ b : Byte,
    (0x80 ≤ b.1 → byteTokenClass b = .letter) ∧ (byteTokenClass b = .space ↔ b = 0x20) ∧
      utf8CharLen b = if b < 0xC0 then 1 else if b < 0xE0 then 2 else if b < 0xF0 then 3
        else if b < 0xF8 then 4 else 1 := by
  decide +kernel

lemma byteTokenClass_high (b : Byte) : 0x80 ≤ b.1 → byteTokenClass b = .letter := (byte_class b).1

lemma space_iff (b : Byte) : byteTokenClass b = .space ↔ b = 0x20 := (byte_class b).2.1

lemma encodeCode_parts (c : Code) : ∃ b cont, encodeCode c = b :: cont ∧
    byteTokenClass b = codeClass c ∧ utf8CharLen b = cont.length + 1 ∧ ∀ d ∈ cont, 0x80 ≤ d.1 := by
  obtain ⟨b, cont, eq, continues, kinds⟩ := encodeCode_bytes c
  have high : ∀ d ∈ cont, 0x80 ≤ d.1 := fun d member => (continues d member).1
  refine ⟨b, cont, eq, ?_, ?_, high⟩
  · unfold codeClass
    rcases kinds with ⟨ascii, rfl, -⟩ | ⟨other, first, -⟩ | ⟨other, first, -⟩ | ⟨other, first, -⟩
    · rw [if_pos ascii]
    · rw [if_neg (by omega), byteTokenClass_high b (by omega)]
    · rw [if_neg (by omega), byteTokenClass_high b (by omega)]
    · rw [if_neg (by omega), byteTokenClass_high b (by omega)]
  · rw [(byte_class b).2.2]
    simp only [Fin.lt_def]
    rcases kinds with ⟨-, -, first, rfl⟩ | ⟨-, low, high, len⟩ | ⟨-, low, high, len⟩ |
      ⟨-, low, high, len⟩
    · rw [if_pos (by change b.1 < 0xC0; omega)]
      rfl
    · rw [if_neg (by change ¬ b.1 < 0xC0; omega), if_pos (by change b.1 < 0xE0; omega), len]
    · rw [if_neg (by change ¬ b.1 < 0xC0; omega), if_neg (by change ¬ b.1 < 0xE0; omega),
        if_pos (by change b.1 < 0xF0; omega), len]
    · rw [if_neg (by change ¬ b.1 < 0xC0; omega), if_neg (by change ¬ b.1 < 0xE0; omega),
        if_neg (by change ¬ b.1 < 0xF0; omega), if_pos (by change b.1 < 0xF8; omega), len]

lemma takeRun_skip (cls : ByteTokenClass) (cont rest : List Byte) :
    takeRun cls cont.length (cont ++ rest) =
      (cont ++ (takeRun cls 0 rest).1, (takeRun cls 0 rest).2) := by
  induction cont with
  | nil => rfl
  | cons c cont ih => rw [List.length_cons, List.cons_append, takeRun, ih, List.cons_append]

lemma takeRun_encode (cls : ByteTokenClass) (s : Text) :
    takeRun cls 0 (encodeUtf8 s) = (encodeUtf8 (s.takeWhile fun c => codeClass c = cls),
      encodeUtf8 (s.dropWhile fun c => codeClass c = cls)) := by
  induction s with
  | nil => rfl
  | cons c s ih =>
    obtain ⟨b, cont, eq, same, len, -⟩ := encodeCode_parts c
    rw [List.takeWhile_cons, List.dropWhile_cons, encodeUtf8_cons, eq, List.cons_append, takeRun]
    by_cases here : codeClass c = cls
    · rw [if_pos (same.trans here), len, Nat.add_sub_cancel, takeRun_skip, ih]
      simp only [here, decide_true, if_true, encodeUtf8_cons, eq, List.cons_append]
    · rw [if_neg (fun other => here (same.symm.trans other))]
      simp only [here, decide_false, Bool.false_eq_true, if_false, encodeUtf8_cons, eq,
        List.cons_append]
      rfl

lemma span_encode {p : Byte → Bool} {q : Code → Bool} (low : ∀ b, 0x80 ≤ b.1 → p b = false)
    (same : ∀ b c, byteTokenClass b = codeClass c → p b = q c) (s : Text) :
    (encodeUtf8 s).takeWhile p = encodeUtf8 (s.takeWhile q) ∧
      (encodeUtf8 s).dropWhile p = encodeUtf8 (s.dropWhile q) := by
  induction s with
  | nil => exact ⟨rfl, rfl⟩
  | cons c s ih =>
    obtain ⟨b, cont, eq, cls, len, -⟩ := encodeCode_parts c
    rw [encodeUtf8_cons, eq, List.cons_append, List.takeWhile_cons, List.dropWhile_cons,
      List.takeWhile_cons, List.dropWhile_cons, same b c cls]
    cases here : q c with
    | false =>
      simp only [Bool.false_eq_true, if_false, encodeUtf8_cons, eq, List.cons_append]
      exact ⟨rfl, trivial⟩
    | true =>
      have short : b.1 < 0x80 := by
        by_contra high
        have other := low b (Nat.not_lt.mp high)
        rw [same b c cls, here] at other
        cases other
      have alone : cont = [] := by
        rw [(byte_class b).2.2, if_pos (by change b.1 < 0xC0; omega)] at len
        exact List.length_eq_zero_iff.mp (Nat.succ.inj len).symm
      subst alone
      simp only [if_true, List.nil_append, encodeUtf8_cons, eq, List.cons_append]
      exact ⟨congrArg (b :: ·) ih.1, ih.2⟩

lemma code_space_iff {c : Code} : codeClass c = .space ↔ c = 0x20 := by
  have bound := c.2
  unfold codeClass
  split_ifs with short
  · rw [space_iff, Fin.ext_iff, Fin.ext_iff, byte_val]
    change c.1 % 256 = 0x20 ↔ c.1 = 0x20
    rw [Nat.mod_eq_of_lt (by omega)]
  · refine iff_of_false nofun ?_
    rintro rfl
    exact short (by decide)

section
variable {s t : Text}

lemma noLooseSpace_append (free : ∀ c ∈ s, codeClass c ≠ .space) :
    NoLooseSpace (s ++ t) ↔ NoLooseSpace t := by
  unfold NoLooseSpace
  rw [List.isChain_append]
  constructor
  · exact fun all => all.2.1
  · intro rest
    refine ⟨?_, rest, ?_⟩
    · exact List.Pairwise.isChain (List.pairwise_of_forall_mem_list fun a mem b _ both =>
        free a mem both.1)
    · intro a mem b _ both
      exact free a (List.mem_of_getLast? mem) both.1

lemma noLooseSpace_spaces (n : Nat) :
    NoLooseSpace (List.replicate n 0x20 ++ 0x20 :: t) ↔ NoLooseSpace (0x20 :: t) := by
  induction n with
  | zero => exact Iff.rfl
  | succ n ih =>
    rw [List.replicate_succ, List.cons_append, NoLooseSpace, List.isChain_cons]
    refine Iff.trans (and_iff_right ?_) ih
    rintro b mem ⟨-, white⟩
    cases n with
    | zero =>
      cases mem
      exact absurd white (by decide)
    | succ n =>
      cases mem
      exact absurd white (by decide)

end

lemma takeWhile_spaces {c : Code} {s : Text} (space : codeClass c = .space) :
    ∃ n, (c :: s).takeWhile (fun c => codeClass c = .space) = List.replicate (n + 1) 0x20 := by
  refine ⟨(s.takeWhile fun c => codeClass c = .space).length, List.eq_replicate_iff.mpr ⟨?_, fun d mem => code_space_iff.mp (of_decide_eq_true
    (List.mem_takeWhile_imp (p := fun c => codeClass c = .space) mem))⟩⟩
  rw [List.takeWhile_cons, if_pos (decide_eq_true space), List.length_cons]

lemma encode_spaces (n : Nat) :
    encodeUtf8 (List.replicate n 0x20) = List.replicate n (0x20 : Byte) := by
  induction n with
  | zero => rfl
  | succ n ih =>
    rw [List.replicate_succ, encodeUtf8_cons, ih]
    rfl

lemma encodeUtf8_ne_nil {c : Code} {s : Text} : encodeUtf8 (c :: s) ≠ [] := by
  obtain ⟨b, cont, eq, -⟩ := encodeCode_parts c
  rw [encodeUtf8_cons, eq]
  exact List.cons_ne_nil _ _

lemma pretokensFrom_nil (fuel : Nat) (pending : List Byte) : pretokensFrom fuel pending [] = [] := by
  cases fuel with
  | zero => rfl
  | succ fuel => rfl

lemma pretokensFrom_spaces {fuel : Nat} {pending : List Byte} {s : Text} {n : Nat} {t : Text}
    (run : (s.takeWhile fun c => codeClass c = .space) = List.replicate (n + 1) 0x20)
    (left : (s.dropWhile fun c => codeClass c = .space) = t) :
    (pretokensFrom (fuel + 1) pending (encodeUtf8 s)).flatten =
      if t = [] then List.replicate (n + 1) 0x20
      else List.replicate n 0x20 ++ (pretokensFrom fuel [0x20] (encodeUtf8 t)).flatten := by
  cases s with
  | nil => cases run
  | cons c s =>
    have first : codeClass c = .space := by
      by_contra other
      rw [List.takeWhile_cons, if_neg (by simpa using other)] at run
      cases run
    obtain ⟨b, cont, eq, same, -⟩ := encodeCode_parts c
    have span := span_encode (p := (· = 0x20)) (q := fun c => codeClass c = .space)
      (fun b high => by rw [decide_eq_false_iff_not, ← space_iff, byteTokenClass_high b high]; nofun)
      (fun b c same => by rw [decide_eq_decide, ← space_iff, same]) (c :: s)
    rw [run, left, encode_spaces, encodeUtf8_cons, eq, List.cons_append] at span
    rw [encodeUtf8_cons, eq, List.cons_append, pretokensFrom, same, first]
    dsimp only
    rw [span.1, span.2, List.length_replicate, Nat.add_sub_cancel]
    cases t with
    | nil =>
      have none : encodeUtf8 [] = [] := rfl
      rw [none, if_pos rfl, if_pos rfl, List.flatten_cons, pretokensFrom_nil, List.flatten_nil,
        List.append_nil]
    | cons d t =>
      rw [if_neg encodeUtf8_ne_nil, if_neg (List.cons_ne_nil _ _)]
      split_ifs with several
      · rw [List.flatten_cons]
      · have none : n = 0 := by omega
        rw [none, List.replicate_zero, List.nil_append]

lemma pretokensFrom_white {fuel : Nat} {pending : List Byte} {c : Code} {s : Text}
    (white : codeClass c = .whitespace) :
    pretokensFrom (fuel + 1) pending (encodeUtf8 (c :: s)) =
      encodeUtf8 ((c :: s).takeWhile fun c => codeClass c = .whitespace) ::
        pretokensFrom fuel pending
          (encodeUtf8 ((c :: s).dropWhile fun c => codeClass c = .whitespace)) := by
  obtain ⟨b, cont, eq, same, -⟩ := encodeCode_parts c
  have span := span_encode (p := fun b => byteTokenClass b = .whitespace)
    (q := fun c => codeClass c = .whitespace) (fun b high => by rw [byteTokenClass_high b high]; rfl)
    (fun b c same => by rw [same]) (c :: s)
  rw [← span.1, ← span.2, encodeUtf8_cons, eq, List.cons_append, pretokensFrom, same, white]

lemma pretokensFrom_word {fuel : Nat} {pending : List Byte} {c : Code} {s : Text}
    (notSpace : codeClass c ≠ .space) (notWhite : codeClass c ≠ .whitespace) :
    pretokensFrom (fuel + 1) pending (encodeUtf8 (c :: s)) =
      (pending ++ encodeUtf8 ((c :: s).takeWhile fun d => codeClass d = codeClass c)) ::
        pretokensFrom fuel []
          (encodeUtf8 ((c :: s).dropWhile fun d => codeClass d = codeClass c)) := by
  obtain ⟨b, cont, eq, same, -⟩ := encodeCode_parts c
  have run := takeRun_encode (codeClass c) (c :: s)
  rw [encodeUtf8_cons, eq, List.cons_append] at run ⊢
  rw [pretokensFrom]
  cases cls : codeClass c with
  | space => exact absurd cls notSpace
  | whitespace => exact absurd cls notWhite
  | _ =>
    rw [same, cls]
    rw [cls] at run
    dsimp only
    rw [run]

lemma dropWhile_head {p : Code → Bool} {s t : Text} {c : Code} (left : s.dropWhile p = c :: t) :
    p c = false := by
  have head := List.head?_dropWhile_not p s
  rw [left] at head
  simpa only [List.head?_cons] using head

lemma length_dropWhile_lt {p : Code → Bool} {s : Text} {c : Code} (first : p c = true) :
    ((c :: s).dropWhile p).length ≤ s.length := by
  rw [List.dropWhile_cons, if_pos first]
  exact (List.dropWhile_sublist p).length_le

lemma pretokensFrom_iff (fuel : Nat) (pending s : Text) (enough : s.length ≤ fuel)
    (carried : pending = [] ∨ pending = [0x20] ∧ ∃ c t, s = c :: t ∧ codeClass c ≠ .space) :
    (pretokensFrom fuel (encodeUtf8 pending) (encodeUtf8 s)).flatten = encodeUtf8 (pending ++ s) ↔
      NoLooseSpace (pending ++ s) := by
  induction fuel generalizing pending s with
  | zero =>
    rw [List.length_eq_zero_iff.mp (Nat.le_zero.mp enough)] at carried ⊢
    rcases carried with rfl | ⟨-, c, t, other, -⟩
    · exact iff_of_true rfl List.isChain_nil
    · cases other
  | succ fuel ih =>
    cases s with
    | nil =>
      rcases carried with rfl | ⟨-, c, t, other, -⟩
      · exact iff_of_true rfl List.isChain_nil
      · cases other
    | cons c s =>
      rw [List.length_cons, Nat.add_le_add_iff_right] at enough
      by_cases space : codeClass c = .space
      · have alone : pending = [] := by
          rcases carried with rfl | ⟨-, d, t, same, other⟩
          · rfl
          · cases same
            exact absurd space other
        subst alone
        rw [List.nil_append]
        have whole := List.takeWhile_append_dropWhile (p := fun c => codeClass c = .space) (l := c :: s)
        have few := length_dropWhile_lt (p := fun c => codeClass c = .space) (s := s)
          (decide_eq_true space)
        obtain ⟨n, run⟩ := takeWhile_spaces (s := s) space
        have split : List.replicate (n + 1) (0x20 : Code) = List.replicate n 0x20 ++ [0x20] :=
          List.replicate_succ'
        cases left : (c :: s).dropWhile fun c => codeClass c = .space with
        | nil =>
          rw [run, left, List.append_nil] at whole
          rw [pretokensFrom_spaces run left, if_pos rfl, ← whole, encode_spaces, split,
            noLooseSpace_spaces]
          exact iff_of_true rfl (List.isChain_singleton _)
        | cons d t =>
          rw [left] at few
          have other := of_decide_eq_false (dropWhile_head left)
          have rest := ih [0x20] (d :: t) (Nat.le_trans few enough) (Or.inr ⟨rfl, d, t, rfl, other⟩)
          rw [run, left, split, List.append_assoc] at whole
          rw [pretokensFrom_spaces run left, if_neg (List.cons_ne_nil _ _), ← whole,
            encodeUtf8_append, encode_spaces, List.append_cancel_left_eq]
          exact rest.trans (noLooseSpace_spaces n).symm
      by_cases white : codeClass c = .whitespace
      · rw [pretokensFrom_white white, List.flatten_cons]
        have few := length_dropWhile_lt (p := fun c => codeClass c = .whitespace) (s := s)
          (decide_eq_true white)
        rcases carried with rfl | ⟨rfl, -⟩
        · have whole := List.takeWhile_append_dropWhile (p := fun c => codeClass c = .whitespace)
            (l := c :: s)
          have free : ∀ d ∈ (c :: s).takeWhile (fun c => codeClass c = .whitespace),
              codeClass d ≠ .space := by
            intro d mem other
            have here := of_decide_eq_true
              (List.mem_takeWhile_imp (p := fun c => codeClass c = .whitespace) mem)
            rw [here] at other
            cases other
          have rest := ih [] _ (Nat.le_trans few enough) (Or.inl rfl)
          generalize (c :: s).takeWhile (fun c => codeClass c = .whitespace) = run at whole free ⊢
          generalize (c :: s).dropWhile (fun c => codeClass c = .whitespace) = left at whole rest ⊢
          rw [List.nil_append, ← whole, encodeUtf8_append, List.append_cancel_left_eq,
            noLooseSpace_append free]
          exact rest
        · refine iff_of_false (fun eq => ?_) fun chain => ?_
          · obtain ⟨b, cont, parts, same, -⟩ := encodeCode_parts c
            rw [List.takeWhile_cons, if_pos (decide_eq_true white), encodeUtf8_cons, parts,
              List.cons_append, List.cons_append, List.cons_append, encodeUtf8_cons] at eq
            have space : byteTokenClass b = .space := (space_iff b).mpr (List.cons.inj eq).1
            rw [same, white] at space
            cases space
          · exact (List.isChain_cons_cons.mp chain).1 ⟨by decide, white⟩
      · rw [pretokensFrom_word space white, List.flatten_cons]
        have few := length_dropWhile_lt (p := fun d => codeClass d = codeClass c) (s := s)
          (decide_eq_true rfl)
        have whole := List.takeWhile_append_dropWhile (p := fun d => codeClass d = codeClass c)
          (l := c :: s)
        have free : ∀ d ∈ (c :: s).takeWhile (fun d => codeClass d = codeClass c),
            codeClass d ≠ .space := by
          intro d mem other
          have here := of_decide_eq_true
            (List.mem_takeWhile_imp (p := fun d => codeClass d = codeClass c) mem)
          exact space (here ▸ other)
        have chain : NoLooseSpace (pending ++ c :: s) ↔ NoLooseSpace (c :: s) := by
          rcases carried with rfl | ⟨rfl, -⟩
          · exact Iff.rfl
          · exact List.isChain_cons_cons.trans (and_iff_right fun both => white both.2)
        have rest := ih [] _ (Nat.le_trans few enough) (Or.inl rfl)
        rw [chain]
        generalize (c :: s).takeWhile (fun d => codeClass d = codeClass c) = run at whole free ⊢
        generalize (c :: s).dropWhile (fun d => codeClass d = codeClass c) = left at whole rest ⊢
        rw [← whole, encodeUtf8_append, encodeUtf8_append, ← List.append_assoc,
          List.append_cancel_left_eq, noLooseSpace_append free]
        exact rest

lemma pretokens_iff (s : Text) :
    (bytelevelPretokens (encodeUtf8 s)).flatten = encodeUtf8 s ↔ NoLooseSpace s := by
  have enough : s.length ≤ (encodeUtf8 s).length := by
    induction s with
    | nil => exact Nat.le_refl _
    | cons c s ih =>
      obtain ⟨b, cont, eq, -⟩ := encodeCode_parts c
      rw [encodeUtf8_cons, eq, List.length_append, List.length_cons, List.length_cons]
      omega
  exact pretokensFrom_iff _ [] s enough (Or.inl rfl)

/-! ## Pieces -/

/-- What some bytes are spelled as. -/
def spell (bytes : List Byte) : List Byte := bytes.flatMap symbol

lemma length_spell (bytes : List Byte) : bytes.length ≤ (spell bytes).length := by
  induction bytes with
  | nil => exact Nat.le_refl _
  | cons b bytes ih =>
    have some := List.length_pos_of_ne_nil (symbol_ne_nil b)
    rw [spell, List.flatMap_cons, List.length_append, List.length_cons, ← spell]
    omega

lemma spell_ne_nil {bytes : List Byte} (some : bytes ≠ []) : spell bytes ≠ [] := by
  have pos := List.length_pos_of_ne_nil some
  have le := length_spell bytes
  exact List.ne_nil_of_length_pos (by omega)

section
variable {tok : Tokenizer}

/-- The pieces of a text. -/
def Tokenizer.pieces (tok : Tokenizer) (text : List Byte) : List (List Byte) :=
  (bytelevelPretokens text).flatMap tok.bpe

lemma bpe_groups (pretoken : List Byte) : ∃ groups : List (List Byte),
    tok.bpe pretoken = groups.map spell ∧ groups.flatten = pretoken ∧ ∀ g ∈ groups, g ≠ [] := by
  have letters : pretoken.map symbol = (pretoken.map fun b => [b]).map (List.flatMap symbol) := by
    rw [List.map_map]
    refine List.map_congr_left fun b _ => ?_
    exact (List.flatMap_singleton symbol b).symm
  have single : ∀ g ∈ pretoken.map fun b => [b], g ≠ [] := by
    intro g mem
    obtain ⟨b, -, rfl⟩ := List.mem_map.mp mem
    exact List.cons_ne_nil _ _
  unfold Tokenizer.bpe
  rw [letters]
  obtain ⟨groups, eq, flat, some⟩ := Bpe.mergeAll_map symbol pretoken.length _ single
  refine ⟨groups, eq, flat.trans ?_, some⟩
  rw [← List.flatMap_def]
  exact List.flatMap_singleton' pretoken

lemma pieces_groups (pretokens : List (List Byte)) : ∃ groups : List (List Byte),
    pretokens.flatMap tok.bpe = groups.map spell ∧ groups.flatten = pretokens.flatten ∧
      ∀ g ∈ groups, g ≠ [] := by
  induction pretokens with
  | nil => exact ⟨[], rfl, rfl, nofun⟩
  | cons pretoken pretokens ih =>
    obtain ⟨first, eq, flat, some⟩ := @bpe_groups tok pretoken
    obtain ⟨rest, eq', flat', some'⟩ := ih
    refine ⟨first ++ rest, ?_, ?_, List.forall_mem_append.mpr ⟨some, some'⟩⟩
    · rw [List.flatMap_cons, eq, eq', List.map_append]
    · rw [List.flatten_append, flat, flat', List.flatten_cons]

lemma encodeSegment_eq (text : List Byte) :
    tok.encodeSegment text = (tok.pieces text).mapM tok.pieceId := by
  unfold Tokenizer.encodeSegment Tokenizer.pieces
  generalize bytelevelPretokens text = pretokens
  induction pretokens with
  | nil => rfl
  | cons pretoken pretokens ih =>
    rw [List.flatMap_cons, List.mapM_append, ← ih, List.mapM_cons]
    simp only [bind_assoc, pure_bind, List.flatten_cons]
    rfl

/-! ## Special tokens -/

/-- No special token stands in a text. -/
def Tokenizer.NoSpecialText (tok : Tokenizer) (text : List Byte) : Prop :=
  ∀ id ∈ tok.specialTokenIdList, 0 ≤ id → ∀ token ∈ tok.idToToken[id.toNat]?, token ≠ [] →
    ¬ token <:+: text

lemma longestSpecialAt_none {text : List Byte} (plain : tok.NoSpecialText text) :
    tok.longestSpecialAt text = none := by
  unfold Tokenizer.longestSpecialAt
  unfold Tokenizer.NoSpecialText at plain
  generalize tok.specialTokenIdList = ids at plain
  induction ids with
  | nil => rfl
  | cons id ids ih =>
    rw [List.forall_mem_cons] at plain
    obtain ⟨first, rest⟩ := plain
    refine (congrArg (List.foldl _ · ids) ?_).trans (ih rest)
    dsimp only
    by_cases negative : id < 0
    · rw [if_pos negative]
    · rw [if_neg negative]
      cases found : tok.idToToken[id.toNat]? with
      | none => rfl
      | some token =>
        refine if_neg fun both => ?_
        exact first (Int.not_lt.mp negative) token found both.1 both.2.1.isInfix

lemma encodeFrom_plain (fuel : Nat) (segment text : List Byte) (enough : text.length ≤ fuel)
    (plain : tok.NoSpecialText text) :
    tok.encodeFrom fuel segment text = tok.encodeSegment (segment ++ text) := by
  induction fuel generalizing segment text with
  | zero =>
    rw [List.length_eq_zero_iff.mp (Nat.le_zero.mp enough), List.append_nil]
    rfl
  | succ fuel ih =>
    cases text with
    | nil =>
      rw [List.append_nil]
      rfl
    | cons c rest =>
      have inner : tok.NoSpecialText rest := fun id mem nonneg token found some inside =>
        plain id mem nonneg token found some (inside.trans (List.suffix_cons c rest).isInfix)
      rw [Tokenizer.encodeFrom, longestSpecialAt_none plain]
      dsimp only
      rw [ih _ _ (Nat.le_of_succ_le_succ enough) inner, List.append_assoc, List.singleton_append]

/-! ## Decoding what was encoded -/

/-- The number of a token names it. -/
def Tokenizer.Named (tok : Tokenizer) : Prop :=
  ∀ piece id, tok.tokenToId.lookup piece = some id →
    0 ≤ id ∧ tok.idToToken[id.toNat]? = some piece

lemma token_ne_nil (id : Int) : tok.token id ≠ [] := by
  unfold Tokenizer.token
  split_ifs
  · decide
  · split
    · decide
    · split_ifs with empty
      · decide
      · exact empty

lemma token_of_named (named : tok.Named) {piece : List Byte} {id : Int} (nonempty : piece ≠ [])
    (found : tok.pieceId piece = .ok id) : tok.token id = piece := by
  have entry : tok.tokenToId.lookup piece = some id := by
    unfold Tokenizer.pieceId at found
    cases entry : tok.tokenToId.lookup piece with
    | none =>
      rw [entry] at found
      cases found
    | some id' =>
      rw [entry, Except.ok.injEq] at found
      rw [found]
  obtain ⟨nonneg, here⟩ := named piece id entry
  unfold Tokenizer.token
  rw [if_neg (Int.not_lt.mpr nonneg), here]
  exact if_neg nonempty

lemma decodeTokens_nil_iff (id : Int) : tok.decodeTokens [id] true = [] ↔ tok.skipped id = true := by
  unfold Tokenizer.decodeTokens
  rw [List.flatMap_singleton, Bool.true_and]
  constructor
  · intro nothing
    by_contra shown
    rw [if_neg shown] at nothing
    obtain ⟨n, length⟩ := Nat.exists_eq_succ_of_ne_zero
      (List.length_pos_of_ne_nil (@token_ne_nil tok id)).ne'
    rw [length] at nothing
    exact decodeSymbols_ne_nil (token_ne_nil id) nothing
  · exact fun skip => if_pos skip

lemma decode_groups {groups : List (List Byte)} {ids : List Int}
    (all : List.Forall₂ (fun g id => g ≠ [] ∧ tok.token id = spell g) groups ids) :
    (tok.decodeTokens ids true).length ≤ groups.flatten.length ∧
      (tok.decodeTokens ids true = groups.flatten ↔ ∀ id ∈ ids, tok.skipped id = false) := by
  induction all with
  | nil => exact ⟨Nat.le_refl _, iff_of_true rfl nofun⟩
  | @cons g id groups ids here _ ih =>
    obtain ⟨some, token⟩ := here
    obtain ⟨le, iff⟩ := ih
    have pos := List.length_pos_of_ne_nil some
    have split : tok.decodeTokens (id :: ids) true =
        (if tok.skipped id then [] else g) ++ tok.decodeTokens ids true := by
      have back : decodeSymbols (spell g).length (spell g) = g := decode_spelled g _ (length_spell g)
      unfold Tokenizer.decodeTokens
      rw [List.flatMap_cons, Bool.true_and, token, back]
    rw [split, List.flatten_cons, List.length_append, List.length_append, List.forall_mem_cons]
    cases skip : tok.skipped id with
    | true =>
      rw [if_pos rfl]
      refine ⟨by rw [List.length_nil]; omega, iff_of_false (fun eq => ?_) nofun⟩
      have lengths := congrArg List.length eq
      rw [List.nil_append, List.length_append] at lengths
      omega
    | false =>
      rw [if_neg Bool.false_ne_true, List.append_cancel_left_eq, iff]
      exact ⟨by omega, (and_iff_right rfl).symm⟩

/-! ## The round trip -/

/-- The pre-tokens are the text, and decoding gives back what was encoded, with and without the
beginning token. -/
structure Tokenizer.Lossless (tok : Tokenizer) (text : List Byte) : Prop where
  pretokens : (bytelevelPretokens text).flatten = text
  round : ∀ addBos, ∃ ids, tok.encodeBasic text addBos = .ok ids ∧ tok.decodeTokens ids true = text

/-- A piece is a token that decoding does not pass over. -/
def Tokenizer.Plain (tok : Tokenizer) (piece : List Byte) : Prop :=
  ∃ id, tok.pieceId piece = .ok id ∧ tok.skipped id = false

lemma encodeBasic_plain {text : List Byte} (plain : tok.NoSpecialText text) (addBos : Bool) :
    tok.encodeBasic text addBos = (do
      let ids ← (tok.pieces text).mapM tok.pieceId
      return (if addBos then [0] else []) ++ ids) := by
  unfold Tokenizer.encodeBasic
  rw [encodeFrom_plain _ [] text (Nat.le_refl _) plain, List.nil_append, encodeSegment_eq]

lemma decode_pieces (named : tok.Named) {text : List Byte}
    (whole : (bytelevelPretokens text).flatten = text) {ids : List Int}
    (numbers : List.Forall₂ (fun piece id => tok.pieceId piece = .ok id) (tok.pieces text) ids) :
    tok.decodeTokens ids true = text ↔ ∀ id ∈ ids, tok.skipped id = false := by
  obtain ⟨groups, eq, flat, nonempty⟩ := @pieces_groups tok (bytelevelPretokens text)
  rw [Tokenizer.pieces, eq, List.forall₂_map_left_iff] at numbers
  have both := (List.forall₂_and_left ..).mpr ⟨nonempty, numbers⟩
  rw [whole] at flat
  rw [← (decode_groups (both.imp fun g id here =>
    ⟨here.1, token_of_named named (spell_ne_nil here.1) here.2⟩)).2, flat]

/-- Nothing is lost exactly if no space stands before other white space, every piece is a token that
is not passed over, and the beginning token is. -/
theorem lossless_iff (tok : Tokenizer) (named : tok.Named) {s : Text}
    (plain : tok.NoSpecialText (encodeUtf8 s)) :
    tok.Lossless (encodeUtf8 s) ↔ NoLooseSpace s ∧
      (∀ pretoken ∈ bytelevelPretokens (encodeUtf8 s), ∀ piece ∈ tok.bpe pretoken,
        tok.Plain piece) ∧ tok.skipped 0 = true := by
  have pieces : (∀ pretoken ∈ bytelevelPretokens (encodeUtf8 s), ∀ piece ∈ tok.bpe pretoken,
      tok.Plain piece) ↔ ∀ piece ∈ tok.pieces (encodeUtf8 s), tok.Plain piece := by
    unfold Tokenizer.pieces
    simp only [List.mem_flatMap]
    exact ⟨fun all piece ⟨p, mem, mem'⟩ => all p mem piece mem',
      fun all p mem piece mem' => all piece ⟨p, mem, mem'⟩⟩
  rw [pieces]
  constructor
  · rintro ⟨whole, round⟩
    obtain ⟨_, encoded, back⟩ := round false
    obtain ⟨_, encoded', back'⟩ := round true
    rw [encodeBasic_plain plain, bind_ok] at encoded encoded'
    obtain ⟨ids, numbers, made⟩ := encoded
    obtain ⟨ids', numbers', made'⟩ := encoded'
    rw [numbers, Except.ok.injEq] at numbers'
    rw [pure_ok] at made made'
    rw [← numbers'] at made'
    rw [made] at back
    rw [made'] at back'
    have shown := (decode_pieces named whole (mapM_ok.mp numbers)).mp back
    refine ⟨(pretokens_iff s).mp whole, fun piece mem => ?_, (decodeTokens_nil_iff 0).mp ?_⟩
    · obtain ⟨id, member, number⟩ := forall₂_mem (mapM_ok.mp numbers) piece mem
      exact ⟨id, number, shown id member⟩
    · have split : tok.decodeTokens [0] true ++ tok.decodeTokens ids true = encodeUtf8 s := by
        rw [← back']
        exact List.flatMap_append.symm
      rw [show tok.decodeTokens ids true = encodeUtf8 s from back] at split
      exact List.append_cancel_right (split.trans (List.nil_append _).symm)
  · rintro ⟨chain, all, bos⟩
    have whole := (pretokens_iff s).mpr chain
    refine ⟨whole, fun addBos => ?_⟩
    obtain ⟨ids, both⟩ := exists_forall₂.mpr all
    have numbers : List.Forall₂ (fun piece id => tok.pieceId piece = .ok id) _ ids :=
      both.imp fun _ _ here => here.1
    have shown : ∀ id ∈ ids, tok.skipped id = false := fun id mem => by
      obtain ⟨_, -, here⟩ := forall₂_mem both.flip id mem
      exact here.2
    have back := (decode_pieces named whole numbers).mpr shown
    refine ⟨(if addBos then [0] else []) ++ ids, ?_, ?_⟩
    · rw [encodeBasic_plain plain, mapM_ok.mpr numbers]
      rfl
    · cases addBos with
      | false => exact back
      | true =>
        have nothing := (@decodeTokens_nil_iff tok 0).mpr bos
        have split : tok.decodeTokens ([0] ++ ids) true =
            tok.decodeTokens [0] true ++ tok.decodeTokens ids true := List.flatMap_append
        exact split.trans ((congrArg (· ++ _) nothing).trans back)

end

/-! ## Tokenizers from GGUF files -/

section
variable {tokens merges : List (List Byte)} {tokenTypes : List Int} {tok : Tokenizer}

lemma fromGguf_tables (made : Tokenizer.fromGguf tokens merges tokenTypes = .ok tok) :
    tok.idToToken = tokens ∧
      tok.tokenToId = (tokens.zipIdx.map fun entry => (entry.1, (entry.2 : Int))).reverse ∧
      tok.specialTokenIdList =
        (((tokenTypes.map fun type => decide (type ≠ 1)).zipIdx.filter Prod.fst).map fun entry =>
          (entry.2 : Int)) := by
  unfold Tokenizer.fromGguf at made
  split_ifs at made
  rw [bind_ok] at made
  obtain ⟨pairs, -, eq⟩ := made
  rw [pure_ok] at eq
  subst eq
  exact ⟨rfl, rfl, rfl⟩

lemma fromGguf_named (made : Tokenizer.fromGguf tokens merges tokenTypes = .ok tok) : tok.Named := by
  obtain ⟨ids, numbers, -⟩ := fromGguf_tables made
  intro piece id found
  rw [numbers] at found
  obtain ⟨before, after, split, -⟩ := List.lookup_eq_some_iff.mp found
  have mem : (piece, id) ∈ tokens.zipIdx.map fun entry => (entry.1, (entry.2 : Int)) := by
    rw [← List.mem_reverse, split]
    exact List.mem_append_right _ (List.mem_cons_self ..)
  obtain ⟨⟨token, place⟩, member, eq⟩ := List.mem_map.mp mem
  cases eq
  rw [ids]
  exact ⟨Int.natCast_nonneg _, List.mem_zipIdx_iff_getElem?.mp member⟩

lemma fromGguf_covers (made : Tokenizer.fromGguf tokens merges tokenTypes = .ok tok)
    {piece : List Byte} (mem : piece ∈ tokens) : ∃ id, tok.pieceId piece = .ok id := by
  obtain ⟨-, numbers, -⟩ := fromGguf_tables made
  unfold Tokenizer.pieceId
  rw [numbers]
  cases found : (tokens.zipIdx.map fun entry => (entry.1, (entry.2 : Int))).reverse.lookup piece with
  | some id => exact ⟨id, rfl⟩
  | none =>
    obtain ⟨place, inside, here⟩ := List.getElem_of_mem mem
    have entry : (piece, (place : Int)) ∈
        (tokens.zipIdx.map fun entry => (entry.1, (entry.2 : Int))).reverse := by
      rw [List.mem_reverse]
      refine List.mem_map.mpr ⟨(piece, place), ?_, rfl⟩
      exact List.mem_zipIdx_iff_getElem?.mpr (List.getElem?_eq_some_iff.mpr ⟨inside, here⟩)
    have other := List.lookup_eq_none_iff.mp found _ entry
    exact absurd other (by simp)

end

/-- One letter beside the beginning token. -/
theorem lossless_iff_letter :
    let tok : Tokenizer := ⟨[ascii "<s>", ascii "a"], [(ascii "a", 1), (ascii "<s>", 0)], [],
      [true, false], [0]⟩
    tok.Lossless (encodeUtf8 (text "a")) ↔ NoLooseSpace (text "a") ∧
      (∀ pretoken ∈ bytelevelPretokens (encodeUtf8 (text "a")), ∀ piece ∈ tok.bpe pretoken,
        tok.Plain piece) ∧ tok.skipped 0 = true := by
  intro tok
  have made : Tokenizer.fromGguf [ascii "<s>", ascii "a"] [] [3, 1] = .ok tok := rfl
  refine lossless_iff tok (fromGguf_named made) fun id mem _ token found _ => ?_
  cases List.mem_singleton.mp mem
  cases Option.some.inj found
  decide

/-- The tokens of all symbols. -/
def byteVocabulary : List (List Byte) := ascii "<s>" :: (List.finRange 256).map symbol

/-- With a vocabulary that covers all symbols, a space is lost before a line break and comes back
behind it. -/
theorem not_lossless :
    ∃ tok, Tokenizer.fromGguf byteVocabulary [] (3 :: List.replicate 256 1) = .ok tok ∧
      (∀ b, ∃ id, tok.pieceId (symbol b) = .ok id) ∧
      tok.NoSpecialText (encodeUtf8 (text " \nA")) ∧
      bytelevelPretokens (encodeUtf8 (text " \nA")) = [ascii "\n", ascii " A"] ∧
      ¬ tok.Lossless (encodeUtf8 (text " \nA")) := by
  have lengths : ¬ byteVocabulary.length ≠ (3 :: List.replicate 256 (1 : Int)).length := by
    rw [byteVocabulary, List.length_cons, List.length_cons, List.length_map, List.length_finRange,
      List.length_replicate]
    decide
  obtain ⟨tok, made⟩ : ∃ tok, Tokenizer.fromGguf byteVocabulary []
      (3 :: List.replicate 256 (1 : Int)) = .ok tok := by
    unfold Tokenizer.fromGguf
    rw [if_neg lengths]
    exact ⟨_, rfl⟩
  have pretokens : bytelevelPretokens (encodeUtf8 (text " \nA")) = [ascii "\n", ascii " A"] := by
    decide
  refine ⟨tok, made, fun b => fromGguf_covers made ?_, ?_, pretokens, fun lossless => ?_⟩
  · exact List.mem_cons_of_mem _ (List.mem_map_of_mem (List.mem_finRange b))
  · obtain ⟨ids, -, special⟩ := fromGguf_tables made
    have first : tok.specialTokenIdList = [0] := special.trans (by decide +kernel)
    intro id mem _ token found _
    rw [first] at mem
    cases List.mem_singleton.mp mem
    rw [ids] at found
    cases Option.some.inj found
    decide
  · have whole := lossless.pretokens
    rw [pretokens] at whole
    exact absurd whole (by decide)

end PocketMoE.Engine
