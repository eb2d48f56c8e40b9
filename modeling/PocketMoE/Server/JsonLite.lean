import Mathlib.Tactic.Lemma

/-!
# The JSON reader of the C++ server

Model of `json_lite.cpp`: a recursive descent parser over a position in the text. A text is its list
of bytes, each written as the character with that code; the rest of the list stands for the position.

The recursion is bounded by `fuel`; `parseJson` gives it twice the length of the text, and every call
in the source that goes deeper or round a loop has read a character since the last one but one, so it
does not run out (`not_cutOff`).
-/

namespace PocketMoE.Server

/-- A string of bytes. -/
abbrev Bytes := List Char

/-- `JsonValue`. A number is the text that `strtod` reads; an object lists its keys in the order of
their first occurrence. -/
inductive JsonValue where
  | null
  | bool (b : Bool)
  | number (text : Bytes)
  | string (s : Bytes)
  | array (items : List JsonValue)
  | object (members : List (Bytes × JsonValue))

namespace JsonLite

/-- `error`: what was left of the text when it was thrown, and the message. `cutOff` is not the
source's: the recursion has no fuel left. -/
inductive ParseError where
  | error (left : Bytes) (msg : String)
  | cutOff

/-- A step of the parser: its value and what it leaves of the text. -/
abbrev Parse (α : Type) := Except ParseError (α × Bytes)

/-- `std::isspace` in the C locale. -/
def isspace (c : Char) : Bool :=
  c == ' ' || c == '\t' || c == '\n' || c == '\x0b' || c == '\x0c' || c == '\r'

/-- `skip_ws`. -/
def skipWs (s : Bytes) : Bytes := s.dropWhile isspace

/-- `consume`: what is left after a character, if it is the next one. -/
def consume (c : Char) : Bytes → Option Bytes
  | [] => none
  | d :: rest => if d = c then some rest else none

/-- `expect`. -/
def expect (c : Char) (s : Bytes) : Except ParseError Bytes :=
  match consume c s with
  | some rest => .ok rest
  | none => .error (.error s ("expected " ++ String.singleton c))

/-! ## Numbers -/

/-- The length of an exponent: a letter, a sign if there is one, and digits. -/
def exponentLength (letter : Char) : Bytes → Nat
  | [] => 0
  | e :: rest =>
    if e.toLower = letter then
      let sign := match rest with
        | s :: _ => if s = '+' ∨ s = '-' then 1 else 0
        | [] => 0
      let digits := ((rest.drop sign).takeWhile Char.isDigit).length
      if digits = 0 then 0 else 1 + sign + digits
    else 0

/-- The length of digits with at most one point among them; 0 without a digit. -/
def mantissaLength (digit : Char → Bool) (s : Bytes) : Nat :=
  let whole := (s.takeWhile digit).length
  match s.drop whole with
  | '.' :: fraction =>
    let digits := (fraction.takeWhile digit).length
    if whole + digits = 0 then 0 else whole + 1 + digits
  | _ => whole

/-- A hexadecimal digit. -/
def isHexDigit (c : Char) : Bool :=
  c.isDigit || ('a' ≤ c.toLower && c.toLower ≤ 'f')

/-- The length of a decimal number. -/
def decimalLength (s : Bytes) : Nat :=
  let mantissa := mantissaLength Char.isDigit s
  if mantissa = 0 then 0 else mantissa + exponentLength 'e' (s.drop mantissa)

/-- The length of a word, in any case. -/
def wordLength (word : String) (s : Bytes) : Nat :=
  if (s.take word.length).map Char.toLower = word.toList then word.length else 0

/-- What `strtod` reads after the sign: a hexadecimal or decimal number, an infinity or a NaN. -/
def unsignedLength (s : Bytes) : Nat :=
  let hex := if wordLength "0x" s = 0 then 0 else mantissaLength isHexDigit (s.drop 2)
  if hex ≠ 0 then 2 + hex + exponentLength 'p' (s.drop (2 + hex))
  else if decimalLength s ≠ 0 then decimalLength s
  else if wordLength "infinity" s ≠ 0 then wordLength "infinity" s
  else if wordLength "inf" s ≠ 0 then wordLength "inf" s
  else if wordLength "nan" s ≠ 0 then
    match s.drop 3 with
    | '(' :: rest =>
      let name := (rest.takeWhile fun c => c.isAlphanum || c == '_').length
      if (rest.drop name).head? = some ')' then 3 + 1 + name + 1 else 3
    | _ => 3
  else 0

/-- `strtod`: how many characters it reads. A number starts here with a digit or a minus sign. -/
def strtodLength : Bytes → Nat
  | '-' :: rest => if unsignedLength rest = 0 then 0 else 1 + unsignedLength rest
  | s => unsignedLength s

/-- `parse_number`. -/
def parseNumber (s : Bytes) : Parse JsonValue :=
  let length := strtodLength s
  if length = 0 then .error (.error s "bad number") else .ok (.number (s.take length), s.drop length)

/-! ## Strings and literals -/

/-- What an escaped character stands for. -/
def escaped : Char → Option Char
  | '"' => some '"'
  | '\\' => some '\\'
  | '/' => some '/'
  | 'b' => some '\x08'
  | 'f' => some '\x0c'
  | 'n' => some '\n'
  | 'r' => some '\r'
  | 't' => some '\t'
  | _ => none

/-- The loop of `parse_string`, after the opening quote. A Unicode escape is read as a question mark;
`skip` characters of it are still to be passed over. -/
def stringRest : Nat → Bytes → Parse Bytes
  | _ + 1, [] => .error (.error [] "bad unicode escape")
  | skip + 1, _ :: rest => stringRest skip rest
  | 0, [] => .error (.error [] "unterminated string")
  | 0, '"' :: rest => .ok ([], rest)
  | 0, ['\\'] => .error (.error [] "bad escape")
  | 0, '\\' :: 'u' :: rest =>
    if rest.length < 4 then .error (.error rest "bad unicode escape")
    else
      match stringRest 4 rest with
      | .ok (s, left) => .ok ('?' :: s, left)
      | .error e => .error e
  | 0, '\\' :: e :: rest =>
    match escaped e with
    | none => .error (.error rest "unsupported escape")
    | some c =>
      match stringRest 0 rest with
      | .ok (s, left) => .ok (c :: s, left)
      | .error e => .error e
  | 0, c :: rest =>
    match stringRest 0 rest with
    | .ok (s, left) => .ok (c :: s, left)
    | .error e => .error e

/-- `parse_string`. -/
def parseString (s : Bytes) : Parse Bytes :=
  match expect '"' s with
  | .error e => .error e
  | .ok rest => stringRest 0 rest

/-- `parse_literal`. -/
def parseLiteral (literal : String) (value : JsonValue) (s : Bytes) : Parse JsonValue :=
  if s.take literal.length = literal.toList then .ok (value, s.drop literal.length)
  else .error (.error s "bad literal")

/-! ## Values -/

/-- `std::map::emplace`: a key that is there keeps its value. -/
def emplace (members : List (Bytes × JsonValue)) (key : Bytes) (value : JsonValue) :
    List (Bytes × JsonValue) :=
  if members.any fun m => m.1 == key then members else members ++ [(key, value)]

mutual

/-- `parse_value`. -/
def parseValue : Nat → Bytes → Parse JsonValue
  | 0, _ => .error .cutOff
  | fuel + 1, s =>
    let s := skipWs s
    match s with
    | [] => .error (.error [] "unexpected end")
    | '{' :: rest =>
      match consume '}' (skipWs rest) with
      | some left => .ok (.object [], left)
      | none =>
        match parseMembers fuel [] rest with
        | .ok (members, left) => .ok (.object members, left)
        | .error e => .error e
    | '[' :: rest =>
      match consume ']' (skipWs rest) with
      | some left => .ok (.array [], left)
      | none =>
        match parseElements fuel rest with
        | .ok (items, left) => .ok (.array items, left)
        | .error e => .error e
    | '"' :: _ =>
      match parseString s with
      | .ok (text, left) => .ok (.string text, left)
      | .error e => .error e
    | 't' :: _ => parseLiteral "true" (.bool true) s
    | 'f' :: _ => parseLiteral "false" (.bool false) s
    | 'n' :: _ => parseLiteral "null" .null s
    | c :: _ =>
      if c = '-' ∨ c.isDigit then parseNumber s else .error (.error s "unexpected character")

/-- The loop of `parse_object`. -/
def parseMembers : Nat → List (Bytes × JsonValue) → Bytes → Parse (List (Bytes × JsonValue))
  | 0, _, _ => .error .cutOff
  | fuel + 1, members, s =>
    match parseString (skipWs s) with
    | .error e => .error e
    | .ok (key, s) =>
      match expect ':' (skipWs s) with
      | .error e => .error e
      | .ok s =>
        match parseValue fuel s with
        | .error e => .error e
        | .ok (value, s) =>
          let members := emplace members key value
          match consume '}' (skipWs s) with
          | some left => .ok (members, left)
          | none =>
            match expect ',' (skipWs s) with
            | .error e => .error e
            | .ok s => parseMembers fuel members s

/-- The loop of `parse_array`. -/
def parseElements : Nat → Bytes → Parse (List JsonValue)
  | 0, _ => .error .cutOff
  | fuel + 1, s =>
    match parseValue fuel s with
    | .error e => .error e
    | .ok (value, s) =>
      match consume ']' (skipWs s) with
      | some left => .ok ([value], left)
      | none =>
        match expect ',' (skipWs s) with
        | .error e => .error e
        | .ok s =>
          match parseElements fuel s with
          | .ok (items, left) => .ok (value :: items, left)
          | .error e => .error e

end

/-! ## The fuel suffices -/

/-- A step that leaves no more than it was given, and does not throw `cutOff`. -/
def Steady {α : Type} (n : Nat) : Parse α → Prop
  | .ok (_, left) => left.length ≤ n
  | .error e => e ≠ .cutOff

lemma length_skipWs (s : Bytes) : (skipWs s).length ≤ s.length :=
  (List.dropWhile_sublist _).length_le

lemma length_consume {c : Char} {s left : Bytes} (eq : consume c s = some left) :
    left.length < s.length := by
  cases s with
  | nil => cases eq
  | cons d rest =>
    simp only [consume, Option.ite_none_right_eq_some] at eq
    rw [← Option.some.inj eq.2, List.length_cons]
    exact Nat.lt_succ_self _

lemma length_expect {c : Char} {s left : Bytes} (eq : expect c s = .ok left) :
    left.length < s.length := by
  unfold expect at eq
  cases consumed : consume c s with
  | none => simp [consumed] at eq
  | some rest =>
    rw [consumed] at eq
    exact Except.ok.inj eq ▸ length_consume consumed

lemma expect_not_cutOff {c : Char} {s : Bytes} : expect c s ≠ .error .cutOff := by
  unfold expect
  cases consume c s <;> simp

lemma Steady.mono {α : Type} {n m : Nat} {step : Parse α} (steady : Steady n step) (le : n ≤ m) :
    Steady m step := by
  cases step with
  | error e => exact steady
  | ok r => exact Nat.le_trans steady le

lemma Steady.of_error {α : Type} {n : Nat} {step : Parse α} {e : ParseError} (steady : Steady n step)
    (eq : step = .error e) : e ≠ .cutOff := by
  rw [eq] at steady
  exact steady

lemma stringRest_steady (skip : Nat) (s : Bytes) : Steady s.length (stringRest skip s) := by
  fun_induction stringRest skip s with
  | case2 skip c rest ih => exact ih.mono (Nat.le_succ _)
  | case4 rest => exact Nat.le_succ _
  | case7 rest long t left eq ih =>
    rw [eq] at ih
    exact ih.mono (m := rest.length + 2) (by omega)
  | case8 rest long e eq ih =>
    rw [eq] at ih
    exact ih
  | case10 e rest notU c is t left eq ih =>
    rw [eq] at ih
    exact ih.mono (m := rest.length + 2) (by omega)
  | case11 e rest notU c is err eq ih =>
    rw [eq] at ih
    exact ih
  | case12 c rest _ _ _ _ t left eq ih =>
    rw [eq] at ih
    exact ih.mono (m := rest.length + 1) (by omega)
  | case13 c rest _ _ _ _ err eq ih =>
    rw [eq] at ih
    exact ih
  | _ => simp [Steady]

lemma parseString_steady (s : Bytes) : Steady s.length (parseString s) := by
  unfold parseString
  cases opened : expect '"' s with
  | error e => exact fun cut => expect_not_cutOff (cut ▸ opened)
  | ok rest => exact (stringRest_steady 0 rest).mono (Nat.le_of_lt (length_expect opened))

lemma parseNumber_steady (s : Bytes) : Steady s.length (parseNumber s) := by
  unfold parseNumber
  dsimp only
  split
  · simp [Steady]
  · exact (List.drop_sublist _ _).length_le

lemma parseLiteral_steady (literal : String) (value : JsonValue) (s : Bytes) :
    Steady s.length (parseLiteral literal value s) := by
  unfold parseLiteral
  split
  · exact (List.drop_sublist _ _).length_le
  · simp [Steady]

lemma closed_le {c : Char} {s left : Bytes} (eq : consume c (skipWs s) = some left) :
    left.length < s.length :=
  Nat.lt_of_lt_of_le (length_consume eq) (length_skipWs s)

lemma steady (fuel : Nat) :
    (∀ s : Bytes, 2 * s.length + 1 ≤ fuel → Steady s.length (parseValue fuel s)) ∧
    (∀ ms (s : Bytes), 2 * s.length + 1 ≤ fuel → Steady s.length (parseMembers fuel ms s)) ∧
    (∀ s : Bytes, 2 * s.length + 2 ≤ fuel → Steady s.length (parseElements fuel s)) := by
  induction fuel with
  | zero => exact ⟨by omega, by omega, by omega⟩
  | succ fuel ih =>
    obtain ⟨value, members, elements⟩ := ih
    refine ⟨fun s enough => ?_, fun ms s enough => ?_, fun s enough => ?_⟩
    · rw [parseValue]
      have small := length_skipWs s
      generalize skipWs s = t at small
      refine Steady.mono ?_ small
      split
      · simp [Steady]
      · rename_i rest
        rw [List.length_cons] at small ⊢
        cases closed : consume '}' (skipWs rest) with
        | some left => exact Nat.le_succ_of_le (Nat.le_of_lt (closed_le closed))
        | none =>
          have inner := members [] rest (by omega)
          cases parsed : parseMembers fuel [] rest with
          | error e => exact inner.of_error parsed
          | ok r =>
            rw [parsed] at inner
            exact Nat.le_succ_of_le inner
      · rename_i rest
        rw [List.length_cons] at small ⊢
        cases closed : consume ']' (skipWs rest) with
        | some left => exact Nat.le_succ_of_le (Nat.le_of_lt (closed_le closed))
        | none =>
          have inner := elements rest (by omega)
          cases parsed : parseElements fuel rest with
          | error e => exact inner.of_error parsed
          | ok r =>
            rw [parsed] at inner
            exact Nat.le_succ_of_le inner
      · rename_i rest
        have text := parseString_steady ('"' :: rest)
        cases parsed : parseString ('"' :: rest) with
        | error e => exact text.of_error parsed
        | ok r =>
          rw [parsed] at text
          exact text
      · exact parseLiteral_steady ..
      · exact parseLiteral_steady ..
      · exact parseLiteral_steady ..
      · split
        · exact parseNumber_steady _
        · simp [Steady]
    · rw [parseMembers]
      have key := (parseString_steady (skipWs s)).mono (length_skipWs s)
      cases named : parseString (skipWs s) with
      | error e => exact key.of_error named
      | ok r =>
        obtain ⟨name, s₁⟩ := r
        rw [named] at key
        have key : s₁.length ≤ s.length := key
        have blank₁ := length_skipWs s₁
        dsimp only
        cases colon : expect ':' (skipWs s₁) with
        | error e => exact fun cut => expect_not_cutOff (cut ▸ colon)
        | ok s₂ =>
          have less := length_expect colon
          have inner := value s₂ (by omega)
          dsimp only
          cases parsed : parseValue fuel s₂ with
          | error e => exact inner.of_error parsed
          | ok r =>
            obtain ⟨v, s₃⟩ := r
            rw [parsed] at inner
            have inner : s₃.length ≤ s₂.length := inner
            have blank₃ := length_skipWs s₃
            dsimp only
            cases closed : consume '}' (skipWs s₃) with
            | some left =>
              have := closed_le closed
              exact (by omega : left.length ≤ s.length)
            | none =>
              dsimp only
              cases comma : expect ',' (skipWs s₃) with
              | error e => exact fun cut => expect_not_cutOff (cut ▸ comma)
              | ok s₄ =>
                have less₄ := length_expect comma
                exact (members _ s₄ (by omega)).mono (by omega)
    · rw [parseElements]
      have inner := value s (by omega)
      cases parsed : parseValue fuel s with
      | error e => exact inner.of_error parsed
      | ok r =>
        obtain ⟨v, s₁⟩ := r
        rw [parsed] at inner
        have inner : s₁.length ≤ s.length := inner
        have blank := length_skipWs s₁
        dsimp only
        cases closed : consume ']' (skipWs s₁) with
        | some left =>
          have := closed_le closed
          exact (by omega : left.length ≤ s.length)
        | none =>
          dsimp only
          cases comma : expect ',' (skipWs s₁) with
          | error e => exact fun cut => expect_not_cutOff (cut ▸ comma)
          | ok s₂ =>
            have less := length_expect comma
            have more := elements s₂ (by omega)
            dsimp only
            cases rest : parseElements fuel s₂ with
            | error e => exact more.of_error rest
            | ok r =>
              rw [rest] at more
              have more : r.2.length ≤ s₂.length := more
              exact (by omega : r.2.length ≤ s.length)

/-- The parser is not cut off. -/
theorem not_cutOff (s : Bytes) : parseValue (2 * s.length + 2) s ≠ .error .cutOff := by
  have := (steady (2 * s.length + 2)).1 s (by omega)
  intro cut
  rw [cut] at this
  exact this rfl

end JsonLite

open JsonLite in
/-- `parse_json`. -/
def parseJson (text : Bytes) : Except String JsonValue :=
  let message := fun
    | .error left msg => "JSON parse error at " ++ toString (text.length - left.length) ++ ": " ++ msg
    | .cutOff => ""
  let s := skipWs text
  match parseValue (2 * s.length + 2) s with
  | .error e => .error (message e)
  | .ok (value, left) =>
    if skipWs left = [] then .ok value
    else .error (message (.error (skipWs left) "trailing characters"))

/-- `object_get`. -/
def objectGet (members : List (Bytes × JsonValue)) (key : String) : Option JsonValue :=
  (members.find? fun m => m.1 == key.toList).map Prod.snd

/-- `get_string` of the server. -/
def getString (members : List (Bytes × JsonValue)) (key : String) (fallback : Bytes) : Bytes :=
  match objectGet members key with
  | some (.string s) => s
  | _ => fallback

/-- `get_bool` of the server. -/
def getBool (members : List (Bytes × JsonValue)) (key : String) (fallback : Bool) : Bool :=
  match objectGet members key with
  | some (.bool b) => b
  | _ => fallback

end PocketMoE.Server
