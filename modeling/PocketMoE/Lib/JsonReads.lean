import PocketMoE.Lib.JsonRoundTrip

/-!
# What the reader returns

A value that was read has no key twice in an object (`loads_distinct`). The text of a value holds a mark only if one of its strings or keys does (`clear_dumps`).
-/

namespace PocketMoE.Lib.Json

variable {R : Type} {floats : FloatText R}

/-! ## What is read -/

lemma distinctItems_iff {items : List (Json R)} :
    DistinctItems items ↔ ∀ v ∈ items, Distinct v := by
  induction items with
  | nil => exact iff_of_true trivial nofun
  | cons v items ih => rw [DistinctItems, List.forall_mem_cons, ih]

lemma distinctMembers_iff {members : List (Text × Json R)} :
    DistinctMembers members ↔ ∀ pair ∈ members, Distinct pair.2 := by
  induction members with
  | nil => exact iff_of_true trivial nofun
  | cons pair members ih => rw [DistinctMembers, List.forall_mem_cons, ih]

lemma mem_of_mem_dict {pairs : List (Text × Json R)} {pair : Text × Json R}
    (member : pair ∈ (dict pairs).entries) : pair ∈ pairs := by
  have fold : ∀ (pairs : List (Text × Json R)) (d : OrderedDict Text (Json R)),
      pair ∈ (pairs.foldl (fun members pair => members.insert pair.1 pair.2) d).entries →
      pair ∈ d.entries ∨ pair ∈ pairs := by
    intro pairs
    induction pairs with
    | nil => exact fun d => Or.inl
    | cons next pairs ih =>
      intro d member
      rcases ih _ member with old | later
      · rcases OrderedDict.mem_insert.mp old with here | ⟨-, before⟩
        · exact Or.inr (List.mem_cons.mpr (Or.inl here))
        · exact Or.inl before
      · exact Or.inr (List.mem_cons_of_mem _ later)
  rcases fold pairs .empty member with none | some
  · cases none
  · exact some

lemma scanList_forall {α : Type} {scan : Text → Option (α × Text)} {P : α → Prop}
    (each : ∀ s a rest, scan s = some (a, rest) → P a) {close : Code} {fuel : Nat} {s rest : Text}
    {as : List α} (read : scanList scan close fuel s = some (as, rest)) : ∀ a ∈ as, P a := by
  induction fuel generalizing s as with
  | zero => cases read
  | succ fuel ih =>
    rw [scanList] at read
    cases first : scan s with
    | none =>
      rw [first] at read
      cases read
    | some split =>
      obtain ⟨a, s'⟩ := split
      rw [first] at read
      dsimp only at read
      cases next : skipWs s' with
      | nil =>
        rw [next] at read
        cases read
      | cons c s'' =>
        rw [next] at read
        dsimp only at read
        split_ifs at read with closed comma
        · cases read
          exact List.forall_mem_singleton.mpr (each _ _ _ first)
        · obtain ⟨⟨as, left⟩, more, eq⟩ := Option.map_eq_some_iff.mp read
          cases eq
          exact List.forall_mem_cons.mpr ⟨each _ _ _ first, ih more⟩

lemma scanMember_value {scan : Text → Option (Json R × Text)} {P : Json R → Prop}
    (each : ∀ s v rest, scan s = some (v, rest) → P v) {s rest : Text} {pair : Text × Json R}
    (read : scanMember scan s = some (pair, rest)) : P pair.2 := by
  cases s with
  | nil => cases read
  | cons c s =>
    rw [scanMember] at read
    split_ifs at read
    cases key : scanString s with
    | none =>
      rw [key] at read
      cases read
    | some split =>
      rw [key] at read
      dsimp only at read
      cases next : skipWs split.2 with
      | nil =>
        rw [next] at read
        cases read
      | cons d s' =>
        rw [next] at read
        dsimp only at read
        split_ifs at read
        obtain ⟨⟨v, left⟩, value, eq⟩ := Option.map_eq_some_iff.mp read
        cases eq
        exact each _ _ _ value

lemma scanNumber_distinct {s rest : Text} {v : Json R}
    (read : scanNumber floats s = some (v, rest)) : Distinct v := by
  unfold scanNumber at read
  cases integer : scanInteger s with
  | none =>
    rw [integer] at read
    cases read
  | some split =>
    rw [integer] at read
    dsimp only at read
    split_ifs at read
    · cases read
      trivial
    · cases read
      trivial

lemma scanOnce_distinct {fuel : Nat} {s rest : Text} {v : Json R}
    (read : scanOnce floats fuel s = some (v, rest)) : Distinct v := by
  induction fuel generalizing s rest v with
  | zero => cases read
  | succ fuel ih =>
    cases s with
    | nil => cases read
    | cons c s =>
      rw [scanOnce] at read
      split_ifs at read with quote brace empty bracket empty
      · obtain ⟨split, -, eq⟩ := Option.map_eq_some_iff.mp read
        cases eq
        trivial
      · cases read
        exact ⟨List.nodup_nil, trivial⟩
      · obtain ⟨⟨pairs, left⟩, more, eq⟩ := Option.map_eq_some_iff.mp read
        cases eq
        have values := scanList_forall (P := fun pair => Distinct pair.2)
          (fun _ _ _ => scanMember_value fun _ _ _ => ih) more
        exact ⟨(dict pairs).nodup,
          distinctMembers_iff.mpr fun pair member => values pair (mem_of_mem_dict member)⟩
      · cases read
        trivial
      · obtain ⟨⟨items, left⟩, more, eq⟩ := Option.map_eq_some_iff.mp read
        cases eq
        exact distinctItems_iff.mpr (scanList_forall (fun _ _ _ => ih) more)
      · cases word : (literals : List (Text × Json R)).find? fun l => l.1.isPrefixOf (c :: s) with
        | none =>
          rw [word] at read
          exact scanNumber_distinct read
        | some found =>
          rw [word] at read
          cases read
          have listed := List.mem_of_find?_eq_some word
          have plain : ∀ l ∈ (literals : List (Text × Json R)), Distinct l.2 := by
            simp only [literals, List.forall_mem_cons]
            exact ⟨trivial, trivial, trivial, trivial, trivial, trivial, nofun⟩
          exact plain found listed

/-- No object in a value that was read has a key twice. -/
theorem loads_distinct {s : Text} {v : Json R} (read : loads floats s = some v) : Distinct v := by
  unfold loads at read
  split_ifs at read
  cases scanned : scanOnce floats s.length (skipWs s) with
  | none =>
    rw [scanned] at read
    cases read
  | some split =>
    rw [scanned] at read
    dsimp only at read
    split_ifs at read
    cases read
    exact scanOnce_distinct scanned

/-! ## Marks -/

/-- What stands between strings. -/
def punctuation : List Code :=
  [code '"', code '\\', code '[', code ']', code '\x7b', code '\x7d', code ',', code ':', code ' ']

/-- A text that is written in strings only: it begins outside of ASCII and has no punctuation. -/
structure Mark (m : Text) : Prop where
  plain : ∀ q ∈ punctuation, q ∉ m
  first : ∃ c rest, m = c :: rest ∧ 0x80 ≤ c

mutual

/-- No string and no key has the mark. -/
def Clear (m : Text) : Json R → Prop
  | .str s => ¬ m <:+: s
  | .arr items => ClearItems m items
  | .obj members => ClearMembers m members
  | _ => True

/-- No string in the items has the mark. -/
def ClearItems (m : Text) : List (Json R) → Prop
  | [] => True
  | v :: items => Clear m v ∧ ClearItems m items

/-- No string and no key in the members has the mark. -/
def ClearMembers (m : Text) : List (Text × Json R) → Prop
  | [] => True
  | (key, v) :: members => ¬ m <:+: key ∧ Clear m v ∧ ClearMembers m members

end

lemma clearMembers_iff {m : Text} {members : List (Text × Json R)} :
    ClearMembers m members ↔ ∀ member ∈ members, ¬ m <:+: member.1 ∧ Clear m member.2 := by
  induction members with
  | nil => exact iff_of_true trivial nofun
  | cons member members ih => rw [ClearMembers, ih, List.forall_mem_cons, and_assoc]

/-- Digits, signs and letters. -/
def Ascii (s : Text) : Prop := ∀ c ∈ s, c < 0x80

lemma ascii_digits (s : Text) : Ascii (s.takeWhile isDigit) := by
  intro c member
  have digit := List.mem_takeWhile_imp member
  rw [isDigit, Bool.and_eq_true, decide_eq_true_eq, decide_eq_true_eq] at digit
  exact Fin.lt_of_le_of_lt digit.2 (by decide)

lemma ascii_words : ∀ w ∈ words, Ascii w := by
  have all : ∀ w ∈ words, w.all (· < 0x80) = true := by decide
  exact fun w listed => forall_code (all w listed)

lemma Ascii.append {s t : Text} (left : Ascii s) (right : Ascii t) : Ascii (s ++ t) :=
  List.forall_mem_append.mpr ⟨left, right⟩

lemma Ascii.cons {c : Code} {s : Text} (here : c < 0x80) (rest : Ascii s) : Ascii (c :: s) :=
  List.forall_mem_cons.mpr ⟨here, rest⟩

lemma scanInteger_split {s integer left : Text} (read : scanInteger s = some (integer, left)) :
    s = integer ++ left ∧ Ascii integer := by
  have sign : ∃ sign, (if s.head? = some (code '-') then [code '-'] else []) = sign ∧
      s = sign ++ s.drop sign.length ∧ Ascii sign := by
    refine ⟨_, rfl, ?_⟩
    split_ifs with minus
    · cases s with
      | nil => cases minus
      | cons c s =>
        cases minus
        exact ⟨rfl, .cons (by decide) nofun⟩
    · exact ⟨rfl, nofun⟩
  obtain ⟨sign, eq, whole, ascii⟩ := sign
  unfold scanInteger at read
  dsimp only at read
  rw [eq] at read
  cases drop : s.drop sign.length with
  | nil =>
    rw [drop] at read
    cases read
  | cons c s' =>
    rw [drop] at read whole
    dsimp only at read
    split_ifs at read with zero digit
    · cases read
      refine ⟨by rw [whole, List.append_assoc]; rfl, ascii.append (.cons ?_ nofun)⟩
      rw [zero]
      decide
    · cases read
      have digits : Ascii ((c :: s').takeWhile isDigit) := ascii_digits _
      rw [List.takeWhile_cons_of_pos digit] at digits
      refine ⟨?_, ascii.append digits⟩
      rw [whole, List.append_assoc, List.cons_append, List.takeWhile_append_dropWhile]

lemma scanFraction_split (s : Text) :
    s = (scanFraction s).1 ++ (scanFraction s).2 ∧ Ascii (scanFraction s).1 := by
  cases s with
  | nil => exact ⟨rfl, List.forall_mem_nil _⟩
  | cons c s =>
    rw [scanFraction]
    split_ifs with point
    · refine ⟨?_, .cons ?_ (ascii_digits s)⟩
      · rw [List.cons_append, List.takeWhile_append_dropWhile]
      · rw [point.1]
        decide
    · exact ⟨rfl, List.forall_mem_nil _⟩

lemma scanExponent_split (s : Text) :
    s = (scanExponent s).1 ++ (scanExponent s).2 ∧ Ascii (scanExponent s).1 := by
  cases s with
  | nil => exact ⟨rfl, List.forall_mem_nil _⟩
  | cons c s =>
    have sign : ∃ sign, ((s.take 1).filter fun c => c = code '-' ∨ c = code '+') = sign ∧
        s = sign ++ s.drop sign.length ∧ Ascii sign := by
      refine ⟨_, rfl, ?_⟩
      cases s with
      | nil => exact ⟨rfl, List.forall_mem_nil _⟩
      | cons d s =>
        by_cases here : d = code '-' ∨ d = code '+'
        · have one : (((d :: s).take 1).filter fun c => c = code '-' ∨ c = code '+') = [d] := by
            rw [List.take_succ_cons, List.take_zero, List.filter_singleton, decide_eq_true here]
            rfl
          rw [one]
          refine ⟨rfl, .cons ?_ (List.forall_mem_nil _)⟩
          rcases here with rfl | rfl
          · decide
          · decide
        · have none : (((d :: s).take 1).filter fun c => c = code '-' ∨ c = code '+') = [] := by
            rw [List.take_succ_cons, List.take_zero, List.filter_singleton, decide_eq_false here]
            rfl
          rw [none]
          exact ⟨rfl, List.forall_mem_nil _⟩
    obtain ⟨sign, eq, whole, ascii⟩ := sign
    rw [scanExponent, eq]
    split_ifs with letter
    · refine ⟨?_, .cons ?_ (ascii.append (ascii_digits _))⟩
      · rw [List.cons_append, List.append_assoc, List.takeWhile_append_dropWhile, ← whole]
      · rcases letter.1 with rfl | rfl
        · decide
        · decide
    · exact ⟨rfl, List.forall_mem_nil _⟩

lemma scanNumber_ascii {s : Text} {v : Json R} (read : scanNumber floats s = some (v, [])) :
    Ascii s := by
  unfold scanNumber at read
  cases integer : scanInteger s with
  | none =>
    rw [integer] at read
    cases read
  | some split =>
    obtain ⟨whole, ascii⟩ := scanInteger_split integer
    obtain ⟨whole', ascii'⟩ := scanFraction_split split.2
    obtain ⟨whole'', ascii''⟩ := scanExponent_split (scanFraction split.2).2
    have none : (scanExponent (scanFraction split.2).2).2 = [] := by
      rw [integer] at read
      dsimp only at read
      split_ifs at read
      · exact (Prod.mk.inj (Option.some.inj read)).2
      · exact (Prod.mk.inj (Option.some.inj read)).2
    rw [none, List.append_nil] at whole''
    rw [whole, whole', whole'']
    exact ascii.append (ascii'.append ascii'')

variable {m : Text}

lemma Mark.ascii (mark : Mark m) {s : Text} (ascii : Ascii s) : ¬ m <:+: s := by
  obtain ⟨c, rest, rfl, high⟩ := mark.first
  intro within
  exact absurd (ascii c (within.subset List.mem_cons_self)) (Fin.not_lt.mpr high)

lemma Mark.of_append (mark : Mark m) {s t : Text} (ascii : Ascii s) (within : m <:+: s ++ t) :
    m <:+: t := by
  obtain ⟨c, rest, rfl, high⟩ := mark.first
  induction s with
  | nil => exact within
  | cons d s ih =>
    obtain ⟨low, ascii⟩ := List.forall_mem_cons.mp ascii
    rw [List.cons_append, List.infix_cons_iff, List.cons_prefix_cons] at within
    rcases within with ⟨rfl, -⟩ | later
    · exact absurd low (Fin.not_lt.mpr high)
    · exact ih ascii later

lemma escapeCode_cases (c : Code) :
    escapeCode c = [c] ∨ ∃ e, escapeCode c = code '\\' :: e ∧ Ascii e := by
  have letters : ∀ e ∈ escapes, e.2 < 0x80 := forall_code (by decide +kernel)
  have digits : ∀ n < 16, hexDigit n < 0x80 := by decide
  have digit : ∀ n, hexDigit (n % 16) < 0x80 := fun n => digits _ (Nat.mod_lt n (by decide))
  unfold escapeCode
  cases found : escapes.lookup c with
  | some letter =>
    exact Or.inr ⟨_, rfl, .cons (letters _ (mem_escapes found)) nofun⟩
  | none =>
    dsimp only
    split_ifs
    · refine Or.inr ⟨_, rfl, .cons (by decide) ?_⟩
      exact .cons (digit _) (.cons (digit _) (.cons (digit _) (.cons (digit _) nofun)))
    · exact Or.inl rfl

lemma prefix_of_escape {p s : Text} (plain : code '\\' ∉ p) (start : p <+: s.flatMap escapeCode) :
    p <+: s := by
  induction s generalizing p with
  | nil => exact start
  | cons c s ih =>
    cases p with
    | nil => exact List.nil_prefix
    | cons x p =>
      rw [List.flatMap_cons] at start
      rcases escapeCode_cases c with eq | ⟨e, eq, -⟩
      · rw [eq, List.singleton_append, List.cons_prefix_cons] at start
        obtain ⟨rfl, start⟩ := start
        exact List.cons_prefix_cons.mpr ⟨rfl, ih (fun member => plain (.tail _ member)) start⟩
      · rw [eq, List.cons_append, List.cons_prefix_cons] at start
        exact absurd (start.1 ▸ List.mem_cons_self) plain

lemma Mark.escape (mark : Mark m) {s : Text} (within : m <:+: s.flatMap escapeCode) :
    m <:+: s := by
  have plain : code '\\' ∉ m := mark.plain _ (by decide)
  induction s with
  | nil => exact within
  | cons c s ih =>
    rw [List.flatMap_cons] at within
    rw [List.infix_cons_iff]
    rcases escapeCode_cases c with eq | ⟨e, eq, ascii⟩
    · rw [eq, List.singleton_append, List.infix_cons_iff] at within
      rcases within with start | later
      · refine Or.inl (prefix_of_escape plain ?_)
        rwa [List.flatMap_cons, eq]
      · exact Or.inr (ih later)
    · rw [eq] at within
      exact Or.inr (ih (mark.of_append (.cons (by decide) ascii) within))

lemma Mark.not_nil (mark : Mark m) : ¬ m <:+: [] := by
  obtain ⟨c, rest, rfl, -⟩ := mark.first
  intro within
  cases List.infix_nil.mp within

lemma Mark.not_infix (mark : Mark m) {q : Code} (listed : q ∈ punctuation) {s t : Text}
    (left : ¬ m <:+: s) (right : ¬ m <:+: t) : ¬ m <:+: s ++ q :: t :=
  not_infix_separator (mark.plain q listed) left right

lemma Mark.dumpsStr (mark : Mark m) {s : Text} (clear : ¬ m <:+: s) : ¬ m <:+: dumpsStr s := by
  have inner : ¬ m <:+: s.flatMap escapeCode := fun within => clear (mark.escape within)
  have quote : code '"' ∈ punctuation := by decide
  exact mark.not_infix (s := []) quote mark.not_nil (mark.not_infix quote inner mark.not_nil)

lemma Mark.intercalate (mark : Mark m) {texts : List Text} (clear : ∀ s ∈ texts, ¬ m <:+: s) :
    ¬ m <:+: (text ", ").intercalate texts := by
  have comma : code ',' ∈ punctuation := by decide
  have space : code ' ' ∈ punctuation := by decide
  induction texts with
  | nil => exact mark.not_nil
  | cons s texts ih =>
    obtain ⟨here, later⟩ := List.forall_mem_cons.mp clear
    cases texts with
    | nil => rwa [List.intercalate_singleton]
    | cons s' texts =>
      rw [List.intercalate_cons_cons, List.append_assoc]
      exact mark.not_infix comma here (mark.not_infix (s := []) space mark.not_nil (ih later))

mutual

lemma clear_dumps (mark : Mark m) (exact : Exact floats) : ∀ v : Json R, Clear m v →
    ¬ m <:+: dumps floats v
  | .null, _ => mark.ascii (ascii_words (text "null") (by decide))
  | .bool true, _ => mark.ascii (ascii_words (text "true") (by decide))
  | .bool false, _ => mark.ascii (ascii_words (text "false") (by decide))
  | .int n, _ =>
    have read : scanNumber floats (dumpsInt n) = some (.int n, []) := scanNumber_dumpsInt n
    mark.ascii (scanNumber_ascii read)
  | .float .nan, _ => mark.ascii (ascii_words (text "NaN") (by decide))
  | .float .infinity, _ => mark.ascii (ascii_words (text "Infinity") (by decide))
  | .float .negInfinity, _ => mark.ascii (ascii_words (text "-Infinity") (by decide))
  | .float (.finite x), _ => mark.ascii (scanNumber_ascii (exact x))
  | .str _, clear => mark.dumpsStr clear
  | .arr items, clear => by
    have items := mark.intercalate (clear_dumpsItems mark exact items clear)
    rw [dumps]
    exact mark.not_infix (s := []) (by decide) mark.not_nil
      (mark.not_infix (by decide) items mark.not_nil)
  | .obj members, clear => by
    have members := mark.intercalate (clear_dumpsMembers mark exact members clear)
    rw [dumps]
    exact mark.not_infix (s := []) (by decide) mark.not_nil
      (mark.not_infix (by decide) members mark.not_nil)

lemma clear_dumpsItems (mark : Mark m) (exact : Exact floats) : ∀ items : List (Json R),
    ClearItems m items → ∀ s ∈ dumpsItems floats items, ¬ m <:+: s
  | [], _ => nofun
  | v :: items, clear => List.forall_mem_cons.mpr
      ⟨clear_dumps mark exact v clear.1, clear_dumpsItems mark exact items clear.2⟩

lemma clear_dumpsMembers (mark : Mark m) (exact : Exact floats) :
    ∀ members : List (Text × Json R), ClearMembers m members →
    ∀ s ∈ dumpsMembers floats members, ¬ m <:+: s
  | [], _ => nofun
  | (key, v) :: members, clear => by
    have value := mark.not_infix (q := code ' ') (s := []) (by decide) mark.not_nil
      (clear_dumps mark exact v clear.2.1)
    exact List.forall_mem_cons.mpr
      ⟨mark.not_infix (q := code ':') (by decide) (mark.dumpsStr clear.1) value,
        clear_dumpsMembers mark exact members clear.2.2⟩

end

end PocketMoE.Lib.Json
