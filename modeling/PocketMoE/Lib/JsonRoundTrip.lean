import Mathlib.Data.List.TakeWhile
import PocketMoE.Lib.Json

/-!
# The text of a value reads as this value

`loads_dumps`: what `dumps` writes for a value whose objects have no key twice is read as that value.
Of floats it is assumed that the text of one is that of a number and reads as it (`Exact`).

A reader is not told where a value ends, so each lemma is about a text with more behind it (`Reads`):
the end, a comma or a closing bracket (`Follow`). What a value begins with is not white space and
closes nothing (`unopened`).
-/

namespace PocketMoE.Lib.Json

variable {R : Type}

/-! ## Strings -/

lemma unescape_escapes : ∀ e ∈ escapes, e.2 ≠ code 'u' ∧ unescape e.2 = some e.1 :=
  forall_code (by decide +kernel)

lemma mem_escapes {c letter : Code} (found : escapes.lookup c = some letter) :
    (c, letter) ∈ escapes := by
  obtain ⟨before, after, eq, -⟩ := List.lookup_eq_some_iff.mp found
  rw [eq]
  exact List.mem_append_right _ List.mem_cons_self

lemma plain_of_lookup {c : Code} (none : escapes.lookup c = none) :
    c ≠ code '"' ∧ c ≠ code '\\' := by
  constructor
  · rintro rfl
    exact absurd none (by decide)
  · rintro rfl
    exact absurd none (by decide)

lemma hexValue_hexDigit : ∀ n < 16, hexValue (hexDigit n) = some n := by decide

lemma decodeHex4_hex4 (c : Code) (low : c < 0x20) :
    decodeHex4 (hexDigit (c / 4096 % 16)) (hexDigit (c / 256 % 16)) (hexDigit (c / 16 % 16))
      (hexDigit (c % 16)) = some c := by
  have lt : ∀ n, n % 16 < 16 := fun n => Nat.mod_lt n (by decide)
  unfold decodeHex4
  rw [hexValue_hexDigit _ (lt _), hexValue_hexDigit _ (lt _), hexValue_hexDigit _ (lt _),
    hexValue_hexDigit _ (lt _)]
  dsimp only
  have small : c.val < 32 := low
  rw [show 4096 * (c.val / 4096 % 16) + 256 * (c.val / 256 % 16) + 16 * (c.val / 16 % 16) +
    c.val % 16 = c.val by omega]
  exact congrArg some (Fin.ofNat_val_eq_self c)

lemma scanUnits_escape (c : Code) (s : Text) : ∃ escaped : Bool, (escaped → c < 0x20) ∧
    scanUnits (escapeCode c ++ s) =
      (scanUnits s).map fun (units, rest) => ((c, escaped) :: units, rest) := by
  unfold escapeCode
  cases found : escapes.lookup c with
  | some letter =>
    obtain ⟨other, back⟩ := unescape_escapes _ (mem_escapes found)
    refine ⟨false, nofun, ?_⟩
    show scanUnits (code '\\' :: letter :: s) = _
    rw [scanUnits.eq_def]
    dsimp only
    rw [if_neg (by decide), if_pos rfl, if_neg other, back]
  | none =>
    obtain ⟨quote, backslash⟩ := plain_of_lookup found
    dsimp only
    split_ifs with low
    · refine ⟨true, fun _ => low, ?_⟩
      show scanUnits (code '\\' :: code 'u' :: hexDigit (c / 4096 % 16) ::
        hexDigit (c / 256 % 16) :: hexDigit (c / 16 % 16) :: hexDigit (c % 16) :: s) = _
      rw [scanUnits.eq_def]
      dsimp only
      rw [if_neg (by decide), if_pos rfl, if_pos rfl, decodeHex4_hex4 c low]
    · refine ⟨false, nofun, ?_⟩
      show scanUnits (c :: s) = _
      rw [scanUnits.eq_def]
      dsimp only
      rw [if_neg quote, if_neg backslash, if_neg low]

lemma joinSurrogates_eq {units : List (Code × Bool)}
    (low : ∀ unit ∈ units, unit.2 → unit.1 < 0x20) : joinSurrogates units = units.map Prod.fst := by
  induction units with
  | nil => rfl
  | cons unit units ih =>
    have rest := ih fun unit member => low unit (List.mem_cons_of_mem _ member)
    cases units with
    | nil => rfl
    | cons next units =>
      obtain ⟨c, escaped⟩ := unit
      obtain ⟨d, escaped'⟩ := next
      have alone : ¬ (escaped ∧ escaped' ∧ 0xD800 ≤ c ∧ c ≤ 0xDBFF ∧ 0xDC00 ≤ d ∧ d ≤ 0xDFFF) := by
        rintro ⟨yes, -, high, -⟩
        have small : c < 0x20 := low (c, escaped) List.mem_cons_self yes
        exact absurd (Fin.lt_of_le_of_lt high small) (by decide)
      rw [joinSurrogates, if_neg alone, rest]
      rfl

lemma scanString_dumpsStr (s rest : Text) :
    scanString (s.flatMap escapeCode ++ code '"' :: rest) = some (s, rest) := by
  have units : ∃ units : List (Code × Bool), (∀ unit ∈ units, unit.2 → unit.1 < 0x20) ∧
      units.map Prod.fst = s ∧
      scanUnits (s.flatMap escapeCode ++ code '"' :: rest) = some (units, rest) := by
    induction s with
    | nil =>
      refine ⟨[], nofun, rfl, ?_⟩
      rw [List.flatMap_nil, List.nil_append, scanUnits.eq_def]
      exact if_pos rfl
    | cons c s ih =>
      obtain ⟨units, low, codes, read⟩ := ih
      obtain ⟨escaped, here, first⟩ := scanUnits_escape c (s.flatMap escapeCode ++ code '"' :: rest)
      refine ⟨(c, escaped) :: units, List.forall_mem_cons.mpr ⟨here, low⟩, ?_, ?_⟩
      · rw [List.map_cons, codes]
      · rw [List.flatMap_cons, List.append_assoc, first, read]
        rfl
  obtain ⟨units, low, codes, read⟩ := units
  rw [scanString, read, Option.map_some]
  dsimp only
  rw [joinSurrogates_eq low, codes]

/-! ## Numbers -/

/-- What may stand behind a value: the end, a comma or a closing bracket. -/
def Follow (rest : Text) : Prop := ∀ c ∈ rest.head?, c ∈ [code ',', code ']', code '\x7d']

lemma follow_nil : Follow [] := nofun

lemma Follow.cons {c : Code} {rest : Text} (mark : c ∈ [code ',', code ']', code '\x7d']) :
    Follow (c :: rest) := by
  rintro c' ⟨⟩
  exact mark

lemma follow_marks : ∀ c ∈ [code ',', code ']', code '\x7d'], isDigit c = false ∧ c ≠ code '.' ∧
    c ≠ code 'e' ∧ c ≠ code 'E' ∧ c ≠ code '-' ∧ c ≠ code '+' ∧ isWhitespace c = false :=
  forall_code (by decide)

variable {rest : Text}

lemma Follow.digits (follow : Follow rest) (s : Text) :
    (s ++ rest).takeWhile isDigit = s.takeWhile isDigit ∧
      (s ++ rest).dropWhile isDigit = s.dropWhile isDigit ++ rest := by
  induction s with
  | nil =>
    cases rest with
    | nil => exact ⟨rfl, rfl⟩
    | cons c rest =>
      have other := (follow_marks c (follow c rfl)).1
      rw [List.nil_append, List.takeWhile_cons, List.dropWhile_cons, other]
      exact ⟨rfl, rfl⟩
  | cons c s ih =>
    rw [List.cons_append, List.takeWhile_cons, List.dropWhile_cons, List.takeWhile_cons,
      List.dropWhile_cons, ih.1, ih.2]
    cases isDigit c with
    | true => exact ⟨rfl, rfl⟩
    | false => exact ⟨rfl, rfl⟩

lemma scanInteger_append (follow : Follow rest) {s integer left : Text}
    (read : scanInteger s = some (integer, left)) :
    scanInteger (s ++ rest) = some (integer, left ++ rest) := by
  have some : s ≠ [] := by
    rintro rfl
    cases read
  have head : (s ++ rest).head? = s.head? := List.head?_append_of_ne_nil _ some
  have le : (if s.head? = .some (code '-') then [code '-'] else []).length ≤ s.length := by
    have pos := List.length_pos_of_ne_nil some
    split_ifs
    · exact pos
    · exact Nat.zero_le _
  unfold scanInteger at read ⊢
  dsimp only at read ⊢
  rw [head]
  generalize (if s.head? = .some (code '-') then [code '-'] else []) = sign at le read ⊢
  rw [List.drop_append_of_le_length le]
  cases digits : s.drop sign.length with
  | nil =>
    rw [digits] at read
    cases read
  | cons c s' =>
    rw [digits] at read
    dsimp only [List.cons_append] at read ⊢
    rw [(follow.digits s').1, (follow.digits s').2]
    split_ifs at read ⊢ with zero digit
    · cases read
      rfl
    · cases read
      rfl

lemma scanFraction_append (follow : Follow rest) (s : Text) :
    scanFraction (s ++ rest) = ((scanFraction s).1, (scanFraction s).2 ++ rest) := by
  cases s with
  | nil =>
    cases rest with
    | nil => rfl
    | cons c rest =>
      have other := (follow_marks c (follow c rfl)).2.1
      rw [List.nil_append]
      exact if_neg fun point => other point.1
  | cons c s =>
    rw [List.cons_append, scanFraction, scanFraction, (follow.digits s).1, (follow.digits s).2]
    split_ifs
    · rfl
    · rfl

lemma scanExponent_append (follow : Follow rest) (s : Text) :
    scanExponent (s ++ rest) = ((scanExponent s).1, (scanExponent s).2 ++ rest) := by
  cases s with
  | nil =>
    cases rest with
    | nil => rfl
    | cons c rest =>
      obtain ⟨-, -, small, large, -⟩ := follow_marks c (follow c rfl)
      rw [List.nil_append]
      exact if_neg fun letter => letter.1.elim small large
  | cons c s =>
    have sign : ((s ++ rest).take 1).filter (fun c => c = code '-' ∨ c = code '+') =
        (s.take 1).filter (fun c => c = code '-' ∨ c = code '+') := by
      cases s with
      | cons d s => rfl
      | nil =>
        cases rest with
        | nil => rfl
        | cons d rest =>
          obtain ⟨-, -, -, -, minus, plus, -⟩ := follow_marks d (follow d rfl)
          show [d].filter _ = []
          rw [List.filter_singleton, decide_eq_false (not_or.mpr ⟨minus, plus⟩)]
          rfl
    have le : ((s.take 1).filter fun c => c = code '-' ∨ c = code '+').length ≤ s.length :=
      (List.length_filter_le ..).trans (List.length_take_le' ..)
    rw [List.cons_append, scanExponent, scanExponent, sign,
      List.drop_append_of_le_length le, (follow.digits _).1, (follow.digits _).2]
    split_ifs
    · rfl
    · rfl

variable {floats : FloatText R}

lemma scanNumber_append (follow : Follow rest) {s : Text} {v : Json R}
    (read : scanNumber floats s = some (v, [])) : scanNumber floats (s ++ rest) = some (v, rest) := by
  unfold scanNumber at read ⊢
  cases integer : scanInteger s with
  | none =>
    rw [integer] at read
    cases read
  | some split =>
    obtain ⟨integer', left⟩ := split
    rw [integer] at read
    rw [scanInteger_append follow integer]
    dsimp only at read ⊢
    rw [scanFraction_append follow, scanExponent_append follow]
    split_ifs at read ⊢ with plain
    · obtain ⟨rfl, none⟩ := Prod.mk.inj (Option.some.inj read)
      rw [none]
      rfl
    · obtain ⟨rfl, none⟩ := Prod.mk.inj (Option.some.inj read)
      rw [none]
      rfl

lemma isDigit_code {c : Char} (digit : c.isDigit = true) : isDigit (code c) = true := by
  have bounds : 48 ≤ c.toNat ∧ c.toNat ≤ 57 := by
    simpa [Char.isDigit, UInt32.le_iff_toNat_le] using digit
  rw [isDigit, Bool.and_eq_true, decide_eq_true_eq, decide_eq_true_eq]
  exact bounds

lemma head_toDigits {n : Nat} (pos : 0 < n) : (Nat.toDigits 10 n).head? ≠ some '0' := by
  induction n using Nat.strong_induction_on with
  | h n ih =>
    rw [Nat.toDigits_eq_if (by decide)]
    split_ifs with small
    · have digits : ∀ n < 10, 0 < n → [n.digitChar].head? ≠ some '0' := by decide
      exact digits n small pos
    · have ten : 0 < n / 10 := Nat.div_pos (Nat.le_of_not_lt small) (by decide)
      rw [List.head?_append_of_ne_nil _ Nat.toDigits_ne_nil]
      exact ih _ (Nat.div_lt_self pos (by decide)) ten

lemma natOf_toDigits (n : Nat) : natOf ((Nat.toDigits 10 n).map code) = n := by
  have value := Nat.ofDigitChars_ten_toDigits (n := n)
  rw [Nat.ofDigitChars_eq_foldl] at value
  rw [natOf, List.foldl_map]
  exact value

lemma scanInteger_digits {sign digits : Text} (signs : sign = [] ∨ sign = [code '-'])
    (all : ∀ c ∈ digits, isDigit c) (first : digits = [code '0'] ∨
      ∃ c rest, digits = c :: rest ∧ c ≠ code '0') :
    scanInteger (sign ++ digits) = some (sign ++ digits, []) := by
  have positive : ∀ c ∈ digits, c ≠ code '-' := by
    rintro c member rfl
    exact absurd (all _ member) (by decide)
  have same : (if (sign ++ digits).head? = some (code '-') then [code '-'] else []) = sign := by
    rcases signs with rfl | rfl
    · refine if_neg fun minus => ?_
      exact positive _ (List.mem_of_head? minus) rfl
    · exact if_pos rfl
  unfold scanInteger
  dsimp only
  rw [same, List.drop_left]
  obtain rfl | ⟨c, rest, rfl, other⟩ := first
  · exact if_pos rfl
  · have digit := all c List.mem_cons_self
    have more : ∀ c ∈ rest, isDigit c := fun c member => all c (List.mem_cons_of_mem _ member)
    dsimp only
    rw [if_neg other, if_pos digit, List.takeWhile_eq_self_iff.mpr more,
      List.dropWhile_eq_nil_iff.mpr more]

lemma scanNumber_dumpsInt (n : Int) : scanNumber floats (dumpsInt n) = some (.int n, []) := by
  have all : ∀ c ∈ (Nat.toDigits 10 n.natAbs).map code, isDigit c := by
    intro c member
    obtain ⟨d, digit, rfl⟩ := List.mem_map.mp member
    exact isDigit_code (Nat.isDigit_of_mem_toDigits (by decide) (by decide) digit)
  have first : (Nat.toDigits 10 n.natAbs).map code = [code '0'] ∨
      ∃ c rest, (Nat.toDigits 10 n.natAbs).map code = c :: rest ∧ c ≠ code '0' := by
    rcases Nat.eq_zero_or_pos n.natAbs with zero | pos
    · rw [zero]
      exact Or.inl rfl
    · have head := head_toDigits pos
      cases digits : Nat.toDigits 10 n.natAbs with
      | nil => exact absurd digits Nat.toDigits_ne_nil
      | cons d rest =>
        rw [digits] at head
        exact Or.inr ⟨code d, rest.map code, rfl, fun zero =>
          head (congrArg some (code_inj.mp zero))⟩
  have signs : (if n < 0 then [code '-'] else []) = [] ∨
      (if n < 0 then [code '-'] else []) = [code '-'] := by
    split_ifs
    · exact Or.inr rfl
    · exact Or.inl rfl
  have value : intOf (dumpsInt n) = n := by
    unfold dumpsInt intOf
    split_ifs with negative minus minus
    · show -(natOf ((Nat.toDigits 10 n.natAbs).map code) : Int) = n
      rw [natOf_toDigits]
      omega
    · exact absurd rfl minus
    · exact absurd (all _ (List.mem_of_head? minus)) (by decide)
    · rw [List.nil_append, natOf_toDigits]
      omega
  unfold scanNumber
  rw [dumpsInt, scanInteger_digits signs all first, ← dumpsInt]
  show some (Json.int (intOf (dumpsInt n)), _) = _
  rw [value]

/-! ## Values -/

/-- The text of a float is that of a number, and it reads as this float. -/
def Exact (floats : FloatText R) : Prop :=
  ∀ x, scanNumber floats (floats.repr x) = some (.float (.finite x), [])

/-- The words that are values. -/
def words : List Text := [text "null", text "true", text "false", text "NaN", text "Infinity",
  text "-Infinity"]

lemma literals_words : (literals : List (Text × Json R)).map Prod.fst = words := rfl

/-- No value begins so. -/
def unopened : List Code := [0x20, 0x09, 0x0A, 0x0D, code ']', code '\x7d', 0xFEFF]

lemma words_first : ∀ w ∈ words, ∃ c d rest, w = c :: d :: rest ∧ c ∉ unopened ∧
    isDigit c = false ∧ isDigit d = false := by
  intro w listed
  refine ⟨w.headI, w.tail.headI, w.tail.tail, ?_⟩
  revert w
  decide

lemma unopened_other : ∀ c ∈ unopened, c ≠ code '"' ∧ c ≠ code '\x7b' ∧ c ≠ code '[' ∧
    c ≠ code '-' ∧ c ≠ code '0' ∧ isDigit c = false :=
  forall_code (by decide)

lemma literal_none {s : Text} (none : ∀ w ∈ words, ¬ w <+: s) :
    (literals : List (Text × Json R)).find? (fun l => l.1.isPrefixOf s) = .none := by
  refine List.find?_eq_none.mpr fun l member word => ?_
  have listed := List.mem_map_of_mem (f := Prod.fst) member
  rw [literals_words] at listed
  exact none l.1 listed (List.isPrefixOf_iff_prefix.mp word)

lemma scanOnce_unopened {c : Code} (bad : c ∈ unopened) (fuel : Nat) (s : Text) :
    scanOnce floats fuel (c :: s) = none := by
  cases fuel with
  | zero => rfl
  | succ fuel =>
    obtain ⟨quote, brace, bracket, minus, zero, digit⟩ := unopened_other c bad
    have word : ∀ w ∈ words, ¬ w <+: c :: s := by
      intro w listed here
      obtain ⟨d, e, w, rfl, opened, -⟩ := words_first w listed
      rw [List.cons_prefix_cons] at here
      obtain ⟨rfl, -⟩ := here
      exact opened bad
    have integer : scanInteger (c :: s) = none := by
      have sign : (if (c :: s).head? = some (code '-') then [code '-'] else []) = [] :=
        if_neg fun eq => minus (Option.some.inj eq)
      unfold scanInteger
      dsimp only
      rw [sign]
      show (if c = code '0' then _ else if isDigit c then _ else none) = none
      rw [if_neg zero, digit, if_neg Bool.false_ne_true]
    rw [scanOnce, if_neg quote, if_neg brace, if_neg bracket, literal_none word]
    dsimp only
    rw [scanNumber, integer]

lemma scanInteger_first {c : Code} {s : Text} {r : Text × Text}
    (read : scanInteger (c :: s) = some r) :
    isDigit c ∨ c = code '-' ∧ ∃ d s', s = d :: s' ∧ isDigit d := by
  have zero : isDigit (code '0') := by decide
  unfold scanInteger at read
  dsimp only at read
  split_ifs at read with minus
  · obtain rfl := Option.some.inj minus
    refine Or.inr ⟨rfl, ?_⟩
    cases s with
    | nil => cases read
    | cons d s =>
      refine ⟨d, s, rfl, ?_⟩
      replace read : (if d = code '0' then _ else if isDigit d then _ else none) = some r := read
      split_ifs at read with start digit
      · rw [start]
        exact zero
      · exact digit
  · replace read : (if c = code '0' then _ else if isDigit c then _ else none) = some r := read
    split_ifs at read with start digit
    · rw [start]
      exact Or.inl zero
    · exact Or.inl digit

lemma scanOnce_number {s : Text} {r : Json R × Text} (read : scanNumber floats s = some r)
    (fuel : Nat) : scanOnce floats (fuel + 1) s = some r := by
  cases s with
  | nil => cases read
  | cons c s =>
    have first : isDigit c ∨ c = code '-' ∧ ∃ d s', s = d :: s' ∧ isDigit d := by
      unfold scanNumber at read
      cases integer : scanInteger (c :: s) with
      | none =>
        rw [integer] at read
        cases read
      | some split => exact scanInteger_first integer
    have other : ∀ d ∈ [code '"', code '\x7b', code '['], isDigit d = false ∧ d ≠ code '-' :=
      forall_code (by decide)
    have ne : ∀ d ∈ [code '"', code '\x7b', code '['], c ≠ d := by
      rintro d member rfl
      obtain ⟨digit, minus⟩ := other c member
      rcases first with yes | ⟨yes, -⟩
      · rw [digit] at yes
        cases yes
      · exact minus yes
    have word : ∀ w ∈ words, ¬ w <+: c :: s := by
      intro w listed here
      obtain ⟨d, e, w, rfl, -, digit, second⟩ := words_first w listed
      rw [List.cons_prefix_cons] at here
      obtain ⟨rfl, here⟩ := here
      rcases first with yes | ⟨-, e', s, rfl, yes⟩
      · rw [digit] at yes
        cases yes
      · rw [List.cons_prefix_cons] at here
        obtain ⟨rfl, -⟩ := here
        rw [second] at yes
        cases yes
    rw [scanOnce, if_neg (ne _ List.mem_cons_self),
      if_neg (ne _ (List.mem_cons_of_mem _ List.mem_cons_self)),
      if_neg (ne _ (List.mem_cons_of_mem _ (List.mem_cons_of_mem _ List.mem_cons_self))),
      literal_none word]
    exact read

/-- A text that is read as `a` whatever follows. -/
structure Reads {α : Type} (scan : Text → Option (α × Text)) (s : Text) (a : α) : Prop where
  opened : ∃ c s', s = c :: s' ∧ c ∉ unopened
  read : ∀ rest, Follow rest → scan (s ++ rest) = some (a, rest)

lemma Reads.of_scanOnce {fuel : Nat} {s : Text} {v : Json R}
    (read : ∀ rest, Follow rest → scanOnce floats fuel (s ++ rest) = some (v, rest)) :
    Reads (scanOnce floats fuel) s v := by
  refine ⟨?_, read⟩
  have alone := read [] follow_nil
  rw [List.append_nil] at alone
  cases s with
  | nil => cases fuel <;> cases alone
  | cons c s =>
    refine ⟨c, s, rfl, fun bad => ?_⟩
    rw [scanOnce_unopened bad] at alone
    cases alone

lemma whitespace_unopened {c : Code} (space : isWhitespace c = true) : c ∈ unopened := by
  have listed : c ∈ ([0x20, 0x09, 0x0A, 0x0D] : List Code) := of_decide_eq_true space
  exact List.mem_append_left [code ']', code '\x7d', 0xFEFF] listed

lemma Reads.skipWs {α : Type} {scan : Text → Option (α × Text)} {s : Text} {a : α}
    (reads : Reads scan s a) (rest : Text) : skipWs (s ++ rest) = s ++ rest := by
  obtain ⟨c, s, rfl, opened⟩ := reads.opened
  have solid : isWhitespace c = false :=
    Bool.eq_false_iff.mpr fun space => opened (whitespace_unopened space)
  rw [Json.skipWs, List.cons_append, List.dropWhile_cons_of_neg (by rw [solid]; nofun)]

lemma skipWs_mark {c : Code} (solid : isWhitespace c = false) (s : Text) :
    skipWs (c :: s) = c :: s := by
  rw [skipWs, List.dropWhile_cons_of_neg (by rw [solid]; nofun)]

lemma scanList_intercalate {α : Type} {scan : Text → Option (α × Text)} {close : Code}
    (closing : close = code ']' ∨ close = code '\x7d') {texts : List Text} {as : List α}
    (reads : List.Forall₂ (Reads scan) texts as) (some : texts ≠ []) {fuel : Nat}
    (enough : texts.length ≤ fuel) (rest : Text) :
    scanList scan close fuel ((text ", ").intercalate texts ++ close :: rest) =
      .some (as, rest) := by
  have mark : close ∈ [code ',', code ']', code '\x7d'] := by
    rcases closing with rfl | rfl
    · exact List.mem_cons_of_mem _ List.mem_cons_self
    · exact List.mem_cons_of_mem _ (List.mem_cons_of_mem _ List.mem_cons_self)
  have comma : code ',' ≠ close := by
    rcases closing with rfl | rfl
    · decide
    · decide
  induction reads generalizing fuel with
  | nil => exact absurd rfl some
  | @cons s a texts as first more ih =>
    cases fuel with
    | zero => exact absurd enough (Nat.not_succ_le_zero _)
    | succ fuel =>
      rw [scanList]
      cases more with
      | nil =>
        rw [List.intercalate_singleton, first.read _ (.cons mark)]
        dsimp only
        rw [skipWs_mark (follow_marks _ mark).2.2.2.2.2.2]
        exact if_pos rfl
      | @cons s' a' texts as second more =>
        have sep : (text ", ").intercalate (s :: s' :: texts) ++ close :: rest =
            s ++ code ',' :: code ' ' :: ((text ", ").intercalate (s' :: texts) ++ close :: rest) := by
          rw [List.intercalate_cons_cons, List.append_assoc, List.append_assoc]
          rfl
        have start : skipWs (code ' ' :: ((text ", ").intercalate (s' :: texts) ++ close :: rest)) =
            (text ", ").intercalate (s' :: texts) ++ close :: rest := by
          have more : ∃ rest', (text ", ").intercalate (s' :: texts) ++ close :: rest = s' ++ rest' := by
            cases texts with
            | nil => exact ⟨close :: rest, by rw [List.intercalate_singleton]⟩
            | cons s'' texts =>
              rw [List.intercalate_cons_cons, List.append_assoc, List.append_assoc]
              exact ⟨_, rfl⟩
          obtain ⟨rest', eq⟩ := more
          rw [eq, skipWs, List.dropWhile_cons_of_pos (by decide)]
          exact second.skipWs rest'
        rw [sep, first.read _ (.cons List.mem_cons_self)]
        dsimp only
        rw [skipWs_mark (by decide)]
        dsimp only
        rw [if_neg comma, if_pos rfl, start, ih nofun (Nat.le_of_succ_le_succ enough)]
        rfl

lemma dict_entries {pairs : List (Text × Json R)} (nodup : (pairs.map Prod.fst).Nodup) :
    (dict pairs).entries = pairs := by
  have fold : ∀ (pairs : List (Text × Json R)) (d : OrderedDict Text (Json R)),
      ((d.entries ++ pairs).map Prod.fst).Nodup →
      (pairs.foldl (fun members pair => members.insert pair.1 pair.2) d).entries =
        d.entries ++ pairs := by
    intro pairs
    induction pairs with
    | nil => exact fun d _ => (List.append_nil _).symm
    | cons pair pairs ih =>
      intro d nodup
      have new : pair.1 ∉ d.entries.map Prod.fst := by
        rw [List.map_append, List.map_cons] at nodup
        exact fun old => (List.nodup_append.mp nodup).2.2 _ old _ List.mem_cons_self rfl
      have entries : (d.insert pair.1 pair.2).entries = d.entries ++ [pair] := if_neg new
      rw [List.foldl_cons, ih, entries, List.append_assoc]
      · rfl
      · rwa [entries, List.append_assoc]
  exact fold pairs .empty nodup

lemma length_le_intercalate {sep s : Text} {texts : List Text} (member : s ∈ texts) :
    s.length ≤ (sep.intercalate texts).length := by
  induction texts with
  | nil => cases member
  | cons t texts ih =>
    cases texts with
    | nil =>
      rw [List.mem_singleton.mp member, List.intercalate_singleton]
    | cons t' texts =>
      rw [List.intercalate_cons_cons, List.length_append, List.length_append]
      rcases List.mem_cons.mp member with rfl | later
      · omega
      · have le := ih later
        omega

lemma length_le_intercalate_succ {sep : Text} (some : sep ≠ []) (texts : List Text) :
    texts.length ≤ (sep.intercalate texts).length + 1 := by
  induction texts with
  | nil => exact Nat.zero_le _
  | cons t texts ih =>
    cases texts with
    | nil => exact Nat.le_add_left 1 _
    | cons t' texts =>
      have pos := List.length_pos_of_ne_nil some
      rw [List.intercalate_cons_cons, List.length_append, List.length_append, List.length_cons]
      omega

lemma scanList_brackets {α : Type} {scan : Text → Option (α × Text)} {close : Code}
    (closing : close = code ']' ∨ close = code '\x7d') {texts : List Text} {as : List α}
    (reads : List.Forall₂ (Reads scan) texts as) (some : texts ≠ []) (rest : Text) :
    let s := (text ", ").intercalate texts ++ close :: rest
    (skipWs s).head? ≠ .some close ∧ scanList scan close s.length (skipWs s) = .some (as, rest) := by
  intro s
  have start : ∃ c s', s = c :: s' ∧ c ∉ unopened := by
    cases reads with
    | nil => exact absurd rfl some
    | @cons s₁ a texts as first more =>
      obtain ⟨c, s₁, rfl, opened⟩ := first.opened
      cases texts with
      | nil => exact ⟨c, _, by unfold s; rw [List.intercalate_singleton]; rfl, opened⟩
      | cons s₂ texts => exact ⟨c, _, by unfold s; rw [List.intercalate_cons_cons]; rfl, opened⟩
  obtain ⟨c, s', eq, opened⟩ := start
  have solid : isWhitespace c = false :=
    Bool.eq_false_iff.mpr fun space => opened (whitespace_unopened space)
  have same : skipWs s = s := by
    rw [eq, skipWs_mark solid]
  have enough : texts.length ≤ s.length := by
    have le := length_le_intercalate_succ (show text ", " ≠ [] by decide) texts
    unfold s
    rw [List.length_append, List.length_cons]
    omega
  refine ⟨?_, ?_⟩
  · rw [same, eq]
    rintro ⟨⟩
    rcases closing with rfl | rfl
    · exact opened (by decide)
    · exact opened (by decide)
  · rw [same]
    exact scanList_intercalate closing reads some enough rest

lemma Reads.member {scan : Text → Option (Json R × Text)} {s : Text} {v : Json R}
    (reads : Reads scan s v) (key : Text) :
    Reads (scanMember scan) (dumpsStr key ++ (text ": " ++ s)) (key, v) := by
  refine ⟨⟨code '"', _, rfl, by decide⟩, fun rest follow => ?_⟩
  have split : dumpsStr key ++ (text ": " ++ s) ++ rest =
      code '"' :: (key.flatMap escapeCode ++ code '"' :: code ':' :: code ' ' :: (s ++ rest)) := by
    rw [dumpsStr, List.cons_append, List.cons_append, List.append_assoc, List.append_assoc]
    rfl
  have value : Json.skipWs (code ' ' :: (s ++ rest)) = s ++ rest := by
    rw [Json.skipWs, List.dropWhile_cons_of_pos (by decide)]
    exact reads.skipWs rest
  rw [split, scanMember, if_pos rfl, scanString_dumpsStr]
  dsimp only
  rw [skipWs_mark (by decide)]
  dsimp only
  rw [if_pos rfl, value, reads.read rest follow]
  rfl

mutual

lemma scanOnce_dumps (exact : Exact floats) : ∀ (v : Json R) (fuel : Nat),
    (dumps floats v).length ≤ fuel + 1 → Distinct v →
    Reads (scanOnce floats (fuel + 1)) (dumps floats v) v
  | .null, fuel, _, _ => .of_scanOnce fun rest _ => by rfl
  | .bool true, fuel, _, _ => .of_scanOnce fun rest _ => by rfl
  | .bool false, fuel, _, _ => .of_scanOnce fun rest _ => by rfl
  | .int n, fuel, _, _ => .of_scanOnce fun rest follow => by
    rw [dumps]
    exact scanOnce_number (scanNumber_append follow (scanNumber_dumpsInt n)) fuel
  | .float .nan, fuel, _, _ => .of_scanOnce fun rest _ => by rfl
  | .float .infinity, fuel, _, _ => .of_scanOnce fun rest _ => by rfl
  | .float .negInfinity, fuel, _, _ => .of_scanOnce fun rest _ => by rfl
  | .float (.finite x), fuel, _, _ => .of_scanOnce fun rest follow => by
    rw [dumps, dumpsFloat]
    exact scanOnce_number (scanNumber_append follow (exact x)) fuel
  | .str s, fuel, _, _ => .of_scanOnce fun rest _ => by
    rw [dumps, dumpsStr, List.cons_append, List.append_assoc, scanOnce, if_pos rfl]
    exact congrArg (Option.map _) (scanString_dumpsStr s rest)
  | .arr [], fuel, _, _ => .of_scanOnce fun rest _ => by rfl
  | .arr (v :: items), fuel, enough, distinct => .of_scanOnce fun rest _ => by
    have split : dumps floats (.arr (v :: items)) ++ rest = code '[' ::
        ((text ", ").intercalate (dumpsItems floats (v :: items)) ++ code ']' :: rest) := by
      rw [dumps, List.append_assoc, List.append_assoc]
      rfl
    have length : ((text ", ").intercalate (dumpsItems floats (v :: items))).length + 1 ≤ fuel := by
      have whole := congrArg List.length split
      simp only [List.length_append, List.length_cons] at whole
      omega
    obtain ⟨fuel, rfl⟩ := Nat.exists_eq_add_of_le' (Nat.le_trans (Nat.le_add_left 1 _) length)
    have reads := scanItems_dumps exact (v :: items) fuel (fun s member => by
      have le : s.length ≤ ((text ", ").intercalate _).length := length_le_intercalate member
      omega) distinct
    obtain ⟨opened, read⟩ := scanList_brackets (Or.inl rfl) reads nofun rest
    rw [split, scanOnce, if_neg (by decide), if_neg (by decide), if_pos rfl,
      if_neg opened, read]
    rfl
  | .obj [], fuel, _, _ => .of_scanOnce fun rest _ => by rfl
  | .obj (pair :: members), fuel, enough, distinct => .of_scanOnce fun rest _ => by
    have split : dumps floats (.obj (pair :: members)) ++ rest = code '\x7b' ::
        ((text ", ").intercalate (dumpsMembers floats (pair :: members)) ++ code '\x7d' :: rest) := by
      rw [dumps, List.append_assoc, List.append_assoc]
      rfl
    have length :
        ((text ", ").intercalate (dumpsMembers floats (pair :: members))).length + 1 ≤ fuel := by
      have whole := congrArg List.length split
      simp only [List.length_append, List.length_cons] at whole
      omega
    obtain ⟨fuel, rfl⟩ := Nat.exists_eq_add_of_le' (Nat.le_trans (Nat.le_add_left 1 _) length)
    have reads := scanMembers_dumps exact (pair :: members) fuel (fun s member => by
      have le : s.length ≤ ((text ", ").intercalate _).length := length_le_intercalate member
      omega) distinct.2
    obtain ⟨opened, read⟩ := scanList_brackets (Or.inr rfl) reads nofun rest
    rw [split, scanOnce, if_neg (by decide), if_pos rfl, if_neg opened, read]
    exact congrArg (fun members => some (Json.obj members, rest)) (dict_entries distinct.1)

lemma scanItems_dumps (exact : Exact floats) : ∀ (items : List (Json R)) (fuel : Nat),
    (∀ s ∈ dumpsItems floats items, s.length ≤ fuel + 1) → DistinctItems items →
    List.Forall₂ (Reads (scanOnce floats (fuel + 1))) (dumpsItems floats items) items
  | [], _, _, _ => .nil
  | v :: items, fuel, enough, distinct =>
    .cons (scanOnce_dumps exact v fuel (enough _ List.mem_cons_self) distinct.1)
      (scanItems_dumps exact items fuel (fun s member => enough s (List.mem_cons_of_mem _ member))
        distinct.2)

lemma scanMembers_dumps (exact : Exact floats) : ∀ (members : List (Text × Json R)) (fuel : Nat),
    (∀ s ∈ dumpsMembers floats members, s.length ≤ fuel + 1) → DistinctMembers members →
    List.Forall₂ (Reads (scanMember (scanOnce floats (fuel + 1)))) (dumpsMembers floats members)
      members
  | [], _, _, _ => .nil
  | (key, v) :: members, fuel, enough, distinct =>
    .cons
      ((scanOnce_dumps exact v fuel (by
        have le := enough _ List.mem_cons_self
        rw [List.length_append, List.length_append] at le
        omega) distinct.1).member key)
      (scanMembers_dumps exact members fuel (fun s member => enough s (List.mem_cons_of_mem _ member))
        distinct.2)

end

/-- The text of a value reads as this value. -/
theorem loads_dumps (exact : Exact floats) {v : Json R} (distinct : Distinct v) :
    loads floats (dumps floats v) = some v := by
  have reads := scanOnce_dumps exact v (dumps floats v).length (Nat.le_succ _) distinct
  obtain ⟨c, s, eq, opened⟩ := reads.opened
  have mark : (dumps floats v).head? ≠ some 0xFEFF := by
    rw [eq]
    rintro ⟨⟩
    exact opened (by decide)
  have length : (dumps floats v).length = s.length + 1 := congrArg List.length eq
  have whole := (scanOnce_dumps exact v s.length length.le distinct).read [] follow_nil
  rw [List.append_nil] at whole
  have start := reads.skipWs []
  rw [List.append_nil] at start
  rw [loads, if_neg mark, start, length, whole]
  rfl

end PocketMoE.Lib.Json
