import Mathlib.Data.Bool.AllAny
import PocketMoE.Lib.JsonRoundTrip
import PocketMoE.Lib.Utf8
import PocketMoE.Server.Sidecar
import PocketMoE.Server.Strtod

/-!
# What the JSON reader makes of Python's texts

The helper prints its replies with `json.dumps` and `ensure_ascii=False`, in UTF-8. The bytes of a string
are escaped as `json_escape` does it (`utf8_dumpsStr`), and the reader of the server gets them back up to
the control characters that have no escape of one letter: it reads a question mark for each of them
(`stringRest_escaped`). Of a value it makes the same value with these strings (`parseValue_dumps`).
-/

namespace PocketMoE.Server
open PocketMoE.Lib JsonLite

/-! ## Strings -/

/-- The bytes of a text. -/
def utf8 (s : Text) : Bytes := (encodeUtf8 s).map fun b => Char.ofNat b.1

/-- A character that is escaped with four digits. -/
def Numbered (c : Char) : Prop := c.toNat < 0x20 ∧ c ∉ ['\x08', '\x0c', '\n', '\r', '\t']

instance (c : Char) : Decidable (Numbered c) := inferInstanceAs (Decidable (_ ∧ _))

/-- What is read for a character. -/
def readChar (c : Char) : Char := if Numbered c then '?' else c

lemma stringRest_escapeChar (c : Char) {rest s left : Bytes} (read : stringRest 0 rest = .ok (s, left)) :
    stringRest 0 (escapeChar c ++ rest) = .ok (readChar c :: s, left) := by
  unfold escapeChar
  split
  case h_8 quote slash b f n r t =>
    split_ifs with low
    · have numbered : Numbered c := ⟨low, by simpa using ⟨b, f, n, r, t⟩⟩
      simp [readChar, numbered, stringRest, read]
    · have other : ¬ Numbered c := fun numbered => low numbered.1
      rw [readChar, if_neg other, List.singleton_append, stringRest, read]
      · exact quote
      · exact fun eq => absurd eq slash
      · exact fun _ eq => absurd eq slash
      · exact fun _ _ eq => absurd eq slash
  all_goals simp [readChar, Numbered, stringRest, escaped, read]

lemma stringRest_escaped (s rest : Bytes) :
    stringRest 0 (jsonEscape s ++ '"' :: rest) = .ok (s.map readChar, rest) := by
  induction s with
  | nil => rfl
  | cons c s ih =>
    rw [jsonEscape, List.flatMap_cons, List.append_assoc]
    exact stringRest_escapeChar c ih

/-! ## The strings of Python -/

lemma toNat_byte (b : Byte) : (Char.ofNat b.1).toNat = b.1 := by
  have valid : b.1.isValidChar := Or.inl (Nat.lt_trans b.2 (by decide))
  rw [Char.ofNat, dif_pos valid]
  rfl

lemma utf8_append (s t : Text) : utf8 (s ++ t) = utf8 s ++ utf8 t := by
  rw [utf8, encodeUtf8, List.flatMap_append, List.map_append]
  rfl

lemma utf8_cons (c : Code) (s : Text) : utf8 (c :: s) = utf8 [c] ++ utf8 s := utf8_append [c] s

lemma escapeChar_plain {c : Char} (high : 0x80 ≤ c.toNat) : escapeChar c = [c] := by
  unfold escapeChar
  split
  case h_8 => exact if_neg (by omega)
  all_goals exact absurd high (by decide)

lemma encodeCode_high {c : Code} (high : 0x80 ≤ c.1) {b : Byte} (mem : b ∈ encodeCode c) :
    0x80 ≤ b.1 := by
  have top := c.2
  unfold encodeCode at mem
  split_ifs at mem with one two three
  · omega
  all_goals
    simp only [List.mem_cons, List.not_mem_nil, or_false] at mem
    rcases mem with rfl | rfl | rfl | rfl
  all_goals
    rw [byte_val]
    omega

lemma escapeCode_high {c : Code} (high : 0x80 ≤ c.1) : Json.escapeCode c = [c] := by
  have letters : ∀ e ∈ Json.escapes, e.1 < 0x80 := forall_code (by decide +kernel)
  have bound : ¬ c < 0x80 := Nat.not_lt_of_le high
  unfold Json.escapeCode
  cases found : Json.escapes.lookup c with
  | some letter => exact absurd (letters _ (Json.mem_escapes found)) bound
  | none => exact if_neg fun low => bound (Nat.lt_trans low (by decide))

lemma utf8_escapeCode (c : Code) : utf8 (Json.escapeCode c) = jsonEscape (utf8 [c]) := by
  have low : ∀ c : Fin 0x80, utf8 (Json.escapeCode (c.castLE (by decide))) =
      jsonEscape (utf8 [c.castLE (by decide)]) := by decide +kernel
  by_cases high : 0x80 ≤ c.1
  · have plain : ∀ d ∈ utf8 [c], escapeChar d = [d] := by
      intro d mem
      obtain ⟨b, (inside : b ∈ [c].flatMap encodeCode), rfl⟩ := List.mem_map.mp mem
      rw [List.flatMap_singleton] at inside
      have high := encodeCode_high high inside
      refine escapeChar_plain ?_
      rwa [toNat_byte]
    rw [escapeCode_high high, jsonEscape, List.flatMap_congr plain, List.flatMap_singleton']
  · exact low ⟨c.1, Nat.lt_of_not_le high⟩

lemma utf8_dumpsStr (s : Text) :
    utf8 (Json.dumpsStr s) = '"' :: (jsonEscape (utf8 s) ++ ['"']) := by
  have quote : utf8 [code '"'] = ['"'] := by decide
  have inner : utf8 (s.flatMap Json.escapeCode) = jsonEscape (utf8 s) := by
    induction s with
    | nil => rfl
    | cons c s ih =>
      rw [List.flatMap_cons, utf8_append, ih, utf8_escapeCode, utf8_cons c s, jsonEscape, jsonEscape,
        jsonEscape, List.flatMap_append]
  rw [Json.dumpsStr, utf8_cons, utf8_append, quote, inner]
  rfl

lemma parseString_escaped (s rest : Bytes) :
    parseString ('"' :: (jsonEscape s ++ '"' :: rest)) = .ok (s.map readChar, rest) := by
  rw [parseString, expect, consume, if_pos rfl]
  exact stringRest_escaped s rest

/-! ## The texts of values -/

lemma utf8_ascii {s : List Char} (ascii : ∀ c ∈ s, c.toNat < 0x80) : utf8 (s.map code) = s := by
  induction s with
  | nil => rfl
  | cons c s ih =>
    rw [List.forall_mem_cons] at ascii
    have here : utf8 [code c] = [c] := by
      have small : (code c).1 < 0x80 := ascii.1
      have same : (byte (code c).1).1 = c.toNat := Nat.mod_eq_of_lt (Nat.lt_trans small (by decide))
      rw [utf8, encodeUtf8, List.flatMap_singleton, encodeCode, if_pos small, List.map_singleton, same,
        Char.ofNat_toNat]
    rw [List.map_cons, utf8_cons, here, ih ascii.2]
    rfl

lemma utf8_dumpsInt (n : Int) : utf8 (Json.dumpsInt n) = intText n := by
  have digit : ∀ c ∈ "0123456789".toList, c.toNat < 0x80 :=
    List.all_iff_forall_prop.mp (by decide)
  have ascii : ∀ c ∈ intText n, c.toNat < 0x80 := by
    refine List.forall_mem_append.mpr ⟨?_, fun c mem => digit c (digit_mem (digits_natAbs n c mem))⟩
    split_ifs
    · exact List.forall_mem_singleton.mpr (by decide)
    · nofun
  rw [← utf8_ascii ascii, intText, List.map_append, Json.dumpsInt]
  split_ifs
  · rfl
  · rfl

variable {R : Type}

mutual

/-- No value in it is a float. -/
def Floatless : Json R → Prop
  | .float _ => False
  | .arr items => FloatlessItems items
  | .obj members => FloatlessMembers members
  | _ => True

/-- The items have no floats. -/
def FloatlessItems : List (Json R) → Prop
  | [] => True
  | v :: items => Floatless v ∧ FloatlessItems items

/-- The members have no floats. -/
def FloatlessMembers : List (Text × Json R) → Prop
  | [] => True
  | (_, v) :: members => Floatless v ∧ FloatlessMembers members

end

variable (floats : FloatText R)

mutual

/-- What the reader makes of a value. -/
def lite : Json R → JsonValue
  | .null => .null
  | .bool b => .bool b
  | .int n => .number (intText n)
  | .float x => .number (utf8 (Json.dumpsFloat floats x))
  | .str s => .string ((utf8 s).map readChar)
  | .arr items => .array (liteItems items)
  | .obj members => .object (liteMembers [] members)

/-- What it makes of items. -/
def liteItems : List (Json R) → List JsonValue
  | [] => []
  | v :: items => lite v :: liteItems items

/-- What it makes of members, behind those that it has. -/
def liteMembers (read : List (Bytes × JsonValue)) : List (Text × Json R) → List (Bytes × JsonValue)
  | [] => read
  | (key, v) :: members => liteMembers (emplace read ((utf8 key).map readChar) (lite v)) members

end

/-! ## Steps of the parser -/

section
variable {fuel : Nat} {s s' rest : Bytes} {v : JsonValue} {c : Char}

lemma skipWs_solid (solid : isspace c = false) : skipWs (c :: s) = c :: s :=
  List.dropWhile_cons_of_neg (by rw [solid]; exact Bool.false_ne_true)

lemma parseValue_blank : parseValue fuel (' ' :: s) = parseValue fuel s := by
  cases fuel with
  | zero => rw [parseValue, parseValue]
  | succ fuel =>
    have blank : skipWs (' ' :: s) = skipWs s := List.dropWhile_cons_of_pos rfl
    rw [parseValue, parseValue, blank]

lemma parseElements_last (value : parseValue fuel s = .ok (v, ']' :: rest)) :
    parseElements (fuel + 1) s = .ok ([v], rest) := by
  rw [parseElements, value]
  rfl

lemma parseElements_more {items : List JsonValue} (value : parseValue fuel s = .ok (v, ',' :: s'))
    (more : parseElements fuel s' = .ok (items, rest)) :
    parseElements (fuel + 1) s = .ok (v :: items, rest) := by
  rw [parseElements, value]
  have close : consume ']' (skipWs (',' :: s')) = none := rfl
  have comma : expect ',' (skipWs (',' :: s')) = .ok s' := rfl
  dsimp only
  rw [close, comma]
  dsimp only
  rw [more]

lemma parseElements_blank : parseElements fuel (' ' :: s) = parseElements fuel s := by
  cases fuel with
  | zero => rw [parseElements, parseElements]
  | succ fuel => rw [parseElements, parseElements, parseValue_blank]

lemma parseMembers_blank {ms : List (Bytes × JsonValue)} :
    parseMembers fuel ms (' ' :: s) = parseMembers fuel ms s := by
  cases fuel with
  | zero => rw [parseMembers, parseMembers]
  | succ fuel =>
    have blank : skipWs (' ' :: s) = skipWs s := List.dropWhile_cons_of_pos rfl
    rw [parseMembers, parseMembers, blank]

/-- A member, up to its value. -/
def memberStart (key : Bytes) : Bytes := '"' :: (jsonEscape key ++ ['"', ':', ' '])

lemma memberStart_length (key : Bytes) :
    (memberStart key).length = (jsonEscape key).length + 4 := by
  rw [memberStart, List.length_cons, List.length_append]
  rfl

lemma parseMembers_value {ms : List (Bytes × JsonValue)} {key : Bytes}
    (value : parseValue fuel s = .ok (v, s')) :
    parseMembers (fuel + 1) ms (memberStart key ++ s) =
      match consume '\x7d' (skipWs s') with
      | some left => .ok (emplace ms (key.map readChar) v, left)
      | none =>
        match expect ',' (skipWs s') with
        | .error e => .error e
        | .ok s => parseMembers fuel (emplace ms (key.map readChar) v) s := by
  have split : memberStart key ++ s = '"' :: (jsonEscape key ++ '"' :: ':' :: ' ' :: s) := by
    rw [memberStart, List.cons_append, List.append_assoc]
    rfl
  have colon : expect ':' (skipWs (':' :: ' ' :: s)) = .ok (' ' :: s) := rfl
  rw [split, parseMembers, skipWs_solid rfl, parseString_escaped]
  dsimp only
  rw [colon]
  dsimp only
  have read : parseValue fuel (' ' :: s) = .ok (v, s') := parseValue_blank.trans value
  exact read ▸ rfl

lemma parseMembers_last {ms : List (Bytes × JsonValue)} {key : Bytes}
    (value : parseValue fuel s = .ok (v, '\x7d' :: rest)) :
    parseMembers (fuel + 1) ms (memberStart key ++ s) =
      .ok (emplace ms (key.map readChar) v, rest) :=
  parseMembers_value value

lemma parseMembers_more {ms : List (Bytes × JsonValue)} {key : Bytes}
    (value : parseValue fuel s = .ok (v, ',' :: s')) :
    parseMembers (fuel + 1) ms (memberStart key ++ s) =
      parseMembers fuel (emplace ms (key.map readChar) v) s' :=
  parseMembers_value value

lemma parseValue_array {items : List JsonValue} (solid : isspace c = false) (open' : c ≠ ']')
    (inner : parseElements fuel (c :: s) = .ok (items, rest)) :
    parseValue (fuel + 1) ('[' :: c :: s) = .ok (.array items, rest) := by
  have closed : consume ']' (skipWs (c :: s)) = none := by
    rw [skipWs_solid solid, consume, if_neg open']
  have bracket : skipWs ('[' :: c :: s) = '[' :: c :: s := skipWs_solid (by decide)
  simp only [parseValue, bracket, closed, inner]

lemma parseValue_object {ms : List (Bytes × JsonValue)}
    (inner : parseMembers fuel [] ('"' :: s) = .ok (ms, rest)) :
    parseValue (fuel + 1) ('\x7b' :: '"' :: s) = .ok (.object ms, rest) := by
  have brace : skipWs ('\x7b' :: '"' :: s) = '\x7b' :: '"' :: s := skipWs_solid (by decide)
  have closed : consume '\x7d' (skipWs ('"' :: s)) = none := by
    rw [skipWs_solid (by decide), consume, if_neg (by decide)]
  simp only [parseValue, brace, closed, inner]

lemma parseNumber_int (n : Int) (stops : Stops rest) :
    parseNumber (intText n ++ rest) = .ok (.number (intText n), rest) := by
  have length := strtodLength_intText n stops
  have long : (intText n).length ≠ 0 := by
    rw [intText, List.length_append]
    have := List.length_pos_of_ne_nil (@Nat.toDigits_ne_nil n.natAbs 10)
    omega
  unfold parseNumber
  rw [length]
  simp [long]

lemma intText_head (n : Int) : ∃ c s, intText n = c :: s ∧ (c = '-' ∨ c.isDigit) := by
  unfold intText
  split_ifs
  · exact ⟨_, _, rfl, Or.inl rfl⟩
  · cases digits : Nat.toDigits 10 n.natAbs with
    | nil => exact absurd digits Nat.toDigits_ne_nil
    | cons c ds => exact ⟨c, ds, rfl, Or.inr (digits_natAbs n c (digits ▸ List.mem_cons_self))⟩

lemma number_head (number : c = '-' ∨ c.isDigit) :
    isspace c = false ∧ c ∉ ['\x7b', '[', ']', '"', 't', 'f', 'n'] := by
  have digits : ∀ c ∈ "0123456789".toList,
      isspace c = false ∧ c ∉ ['\x7b', '[', ']', '"', 't', 'f', 'n'] :=
    List.all_iff_forall_prop.mp (by decide)
  rcases number with rfl | digit
  · decide
  · exact digits c (digit_mem digit)

lemma parseValue_int (n : Int) (stops : Stops rest) :
    parseValue (fuel + 1) (intText n ++ rest) = .ok (.number (intText n), rest) := by
  have read := parseNumber_int n stops
  obtain ⟨c, s, eq, number⟩ := intText_head n
  obtain ⟨solid, other⟩ := number_head number
  simp only [List.mem_cons, List.not_mem_nil, or_false, not_or] at other
  rw [eq, List.cons_append] at read ⊢
  rw [parseValue, skipWs_solid solid]
  obtain ⟨brace, bracket, -, quote, t, f, n⟩ := other
  split
  · cases ‹_›
  all_goals rename_i eq; obtain ⟨rfl, rfl⟩ := List.cons.inj eq
  · exact absurd rfl brace
  · exact absurd rfl bracket
  · exact absurd rfl quote
  · exact absurd rfl t
  · exact absurd rfl f
  · exact absurd rfl n
  · rw [if_pos number, read]

end

/-! ## Values -/

variable {floats}

/-- Items or members with what separates them. -/
def joined (texts : List Text) : Bytes := utf8 ((text ", ").intercalate texts)

lemma joined_cons {t t' : Text} {texts : List Text} :
    joined (t :: t' :: texts) = utf8 t ++ ',' :: ' ' :: joined (t' :: texts) := by
  have comma : utf8 (text ", ") = [',', ' '] := by decide
  rw [joined, List.intercalate_cons_cons, utf8_append, utf8_append, comma,
    List.append_assoc]
  rfl

lemma joined_singleton {t : Text} : joined [t] = utf8 t := by
  rw [joined, List.intercalate_singleton]

lemma utf8_member (key t : Text) :
    utf8 (Json.dumpsStr key ++ (text ": " ++ t)) = memberStart (utf8 key) ++ utf8 t := by
  have colon : utf8 (text ": ") = [':', ' '] := by decide
  rw [utf8_append, utf8_append, utf8_dumpsStr, colon, memberStart]
  simp only [List.cons_append, List.append_assoc, List.nil_append]

lemma utf8_arr (items : List (Json R)) :
    utf8 (Json.dumps floats (.arr items)) = '[' :: (joined (Json.dumpsItems floats items) ++ [']']) := by
  have open' : utf8 (text "[") = ['['] := by decide
  have close : utf8 (text "]") = [']'] := by decide
  rw [Json.dumps, utf8_append, utf8_append, open', close]
  rfl

lemma utf8_obj (members : List (Text × Json R)) : utf8 (Json.dumps floats (.obj members)) =
    '\x7b' :: (joined (Json.dumpsMembers floats members) ++ ['\x7d']) := by
  have open' : utf8 (text "\x7b") = ['\x7b'] := by decide
  have close : utf8 (text "\x7d") = ['\x7d'] := by decide
  rw [Json.dumps, utf8_append, utf8_append, open', close]
  rfl

lemma dumps_head (v : Json R) (floatless : Floatless v) :
    ∃ c s, utf8 (Json.dumps floats v) = c :: s ∧ isspace c = false ∧ c ≠ ']' := by
  cases v with
  | null => exact ⟨'n', _, rfl, rfl, by decide⟩
  | bool b =>
    cases b with
    | false => exact ⟨'f', _, rfl, rfl, by decide⟩
    | true => exact ⟨'t', _, rfl, rfl, by decide⟩
  | int n =>
    obtain ⟨c, s, eq, number⟩ := intText_head n
    obtain ⟨solid, other⟩ := number_head number
    have bracket : c ≠ ']' := by
      rintro rfl
      exact other (by decide)
    refine ⟨c, s, ?_, solid, bracket⟩
    rw [Json.dumps, utf8_dumpsInt, eq]
  | float x => exact absurd floatless id
  | str s => exact ⟨'"', _, utf8_dumpsStr s, rfl, by decide⟩
  | arr items => exact ⟨'[', _, utf8_arr items, rfl, by decide⟩
  | obj members => exact ⟨'\x7b', _, utf8_obj members, rfl, by decide⟩

lemma joined_items (v : Json R) (items : List (Json R)) (floatless : Floatless v) :
    ∃ c s, joined (Json.dumpsItems floats (v :: items)) = c :: s ∧ isspace c = false ∧ c ≠ ']' := by
  have head : ∃ c s, utf8 (Json.dumps floats v) = c :: s ∧ isspace c = false ∧ c ≠ ']' :=
    dumps_head v floatless
  obtain ⟨c, s, eq, ends⟩ := head
  cases items with
  | nil =>
    rw [Json.dumpsItems, Json.dumpsItems, joined_singleton]
    exact ⟨c, s, eq, ends⟩
  | cons w items =>
    rw [Json.dumpsItems, Json.dumpsItems, joined_cons, eq]
    exact ⟨c, _, rfl, ends⟩

lemma joined_members (m : Text × Json R) (members : List (Text × Json R)) :
    ∃ s, joined (Json.dumpsMembers floats (m :: members)) = '"' :: s := by
  obtain ⟨key, v⟩ := m
  cases members with
  | nil =>
    rw [Json.dumpsMembers, Json.dumpsMembers, joined_singleton, utf8_member]
    exact ⟨_, rfl⟩
  | cons m members =>
    obtain ⟨key', w⟩ := m
    rw [Json.dumpsMembers, Json.dumpsMembers, joined_cons, utf8_member]
    exact ⟨_, rfl⟩

lemma stops_comma {s : Bytes} : Stops (',' :: s) := fun _ eq => Or.inl (Option.some.inj eq).symm
lemma stops_bracket {s : Bytes} : Stops (']' :: s) :=
  fun _ eq => Or.inr (Or.inl (Option.some.inj eq).symm)
lemma stops_brace {s : Bytes} : Stops ('\x7d' :: s) :=
  fun _ eq => Or.inr (Or.inr (Option.some.inj eq).symm)

lemma parseLiteral_append (word : String) (v : JsonValue) (rest : Bytes) :
    parseLiteral word v (word.toList ++ rest) = .ok (v, rest) := by
  have length : word.toList.length = word.length := String.length_toList
  rw [parseLiteral, ← length, List.take_left, List.drop_left, if_pos rfl]

mutual

lemma parseValue_dumps : ∀ v : Json R, Floatless v → ∀ fuel (rest : Bytes), Stops rest →
    2 * (utf8 (Json.dumps floats v) ++ rest).length < fuel →
    parseValue fuel (utf8 (Json.dumps floats v) ++ rest) = .ok (lite floats v, rest)
  | .null, _, fuel + 1, rest, _, _ => by
    rw [parseValue]
    exact parseLiteral_append "null" .null rest
  | .bool true, _, fuel + 1, rest, _, _ => by
    rw [parseValue]
    exact parseLiteral_append "true" (.bool true) rest
  | .bool false, _, fuel + 1, rest, _, _ => by
    rw [parseValue]
    exact parseLiteral_append "false" (.bool false) rest
  | .int n, _, fuel + 1, rest, stops, _ => by
    rw [Json.dumps, utf8_dumpsInt]
    exact parseValue_int n stops
  | .float _, floatless, _, _, _, _ => absurd floatless id
  | .str s, _, fuel + 1, rest, _, _ => by
    have split : utf8 (Json.dumps floats (.str s)) ++ rest =
        '"' :: (jsonEscape (utf8 s) ++ '"' :: rest) := by
      rw [Json.dumps, utf8_dumpsStr, List.cons_append, List.append_assoc]
      rfl
    have quote : parseValue (fuel + 1) ('"' :: (jsonEscape (utf8 s) ++ '"' :: rest)) =
        match parseString ('"' :: (jsonEscape (utf8 s) ++ '"' :: rest)) with
        | .ok (text, left) => .ok (.string text, left)
        | .error e => .error e := by
      rw [parseValue]
      rfl
    rw [split, quote, parseString_escaped]
    rfl
  | .arr [], _, fuel + 1, rest, _, _ => by
    rw [parseValue]
    rfl
  | .arr (v :: items), floatless, fuel + 1, rest, _, enough => by
    have split : utf8 (Json.dumps floats (.arr (v :: items))) ++ rest =
        '[' :: (joined (Json.dumpsItems floats (v :: items)) ++ ']' :: rest) := by
      rw [utf8_arr, List.cons_append, List.append_assoc]
      rfl
    have head : ∃ c s, joined (Json.dumpsItems floats (v :: items)) = c :: s ∧
        isspace c = false ∧ c ≠ ']' := joined_items v items floatless.1
    obtain ⟨c, s, start, solid, close⟩ := head
    rw [split, List.length_cons] at enough
    rw [split]
    have inner := parseElements_dumps v items floatless fuel rest (by omega)
    rw [start, List.cons_append] at inner ⊢
    exact parseValue_array solid close inner
  | .obj [], _, fuel + 1, rest, _, _ => by
    rw [parseValue]
    rfl
  | .obj (m :: members), floatless, fuel + 1, rest, _, enough => by
    have split : utf8 (Json.dumps floats (.obj (m :: members))) ++ rest =
        '\x7b' :: (joined (Json.dumpsMembers floats (m :: members)) ++ '\x7d' :: rest) := by
      rw [utf8_obj, List.cons_append, List.append_assoc]
      rfl
    have head : ∃ s, joined (Json.dumpsMembers floats (m :: members)) = '"' :: s :=
      joined_members m members
    obtain ⟨s, start⟩ := head
    rw [split, List.length_cons] at enough
    rw [split]
    have inner := parseMembers_dumps m members floatless [] fuel rest (by omega)
    rw [start, List.cons_append] at inner ⊢
    exact parseValue_object inner

lemma parseElements_dumps : ∀ (v : Json R) (items : List (Json R)), FloatlessItems (v :: items) →
    ∀ fuel (rest : Bytes),
    2 * (joined (Json.dumpsItems floats (v :: items)) ++ ']' :: rest).length + 1 < fuel →
    parseElements fuel (joined (Json.dumpsItems floats (v :: items)) ++ ']' :: rest) =
      .ok (liteItems floats (v :: items), rest)
  | v, [], floatless, fuel + 1, rest, enough => by
    rw [Json.dumpsItems, Json.dumpsItems, joined_singleton] at enough ⊢
    exact parseElements_last (parseValue_dumps v floatless.1 fuel _ stops_bracket (by omega))
  | v, w :: items, floatless, fuel + 1, rest, enough => by
    rw [Json.dumpsItems, Json.dumpsItems, joined_cons, ← Json.dumpsItems, List.append_assoc] at enough ⊢
    rw [List.cons_append, List.cons_append] at enough ⊢
    refine parseElements_more (parseValue_dumps v floatless.1 fuel _ stops_comma (by omega)) ?_
    rw [parseElements_blank]
    refine parseElements_dumps w items floatless.2 fuel rest ?_
    simp only [List.length_append, List.length_cons] at enough ⊢
    omega

lemma parseMembers_dumps : ∀ (m : Text × Json R) (members : List (Text × Json R)),
    FloatlessMembers (m :: members) → ∀ (ms : List (Bytes × JsonValue)) fuel (rest : Bytes),
    2 * (joined (Json.dumpsMembers floats (m :: members)) ++ '\x7d' :: rest).length < fuel →
    parseMembers fuel ms (joined (Json.dumpsMembers floats (m :: members)) ++ '\x7d' :: rest) =
      .ok (liteMembers floats ms (m :: members), rest)
  | (key, v), [], floatless, ms, fuel + 1, rest, enough => by
    rw [Json.dumpsMembers, Json.dumpsMembers, joined_singleton, utf8_member, List.append_assoc]
      at enough ⊢
    refine parseMembers_last (parseValue_dumps v floatless.1 fuel _ stops_brace ?_)
    rw [List.length_append, memberStart_length] at enough
    omega
  | (key, v), m :: members, floatless, ms, fuel + 1, rest, enough => by
    have split : joined (Json.dumpsMembers floats ((key, v) :: m :: members)) ++ '\x7d' :: rest =
        memberStart (utf8 key) ++ (utf8 (Json.dumps floats v) ++ ',' :: ' ' ::
          (joined (Json.dumpsMembers floats (m :: members)) ++ '\x7d' :: rest)) := by
      obtain ⟨key', w⟩ := m
      rw [Json.dumpsMembers, Json.dumpsMembers, joined_cons, utf8_member, List.append_assoc,
        List.append_assoc]
      rfl
    rw [split] at enough ⊢
    rw [List.length_append, memberStart_length] at enough
    refine (parseMembers_more (parseValue_dumps v floatless.1 fuel _ stops_comma (by omega))).trans ?_
    rw [parseMembers_blank]
    refine parseMembers_dumps m members floatless.2 _ fuel rest ?_
    simp only [List.length_append, List.length_cons] at enough ⊢
    omega

end

/-- The reader makes of the text of a value what `lite` says. -/
theorem parseJson_dumps (v : Json R) (floatless : Floatless v) :
    parseJson (utf8 (Json.dumps floats v)) = .ok (lite floats v) := by
  have head : ∃ c s, utf8 (Json.dumps floats v) = c :: s ∧ isspace c = false ∧ c ≠ ']' :=
    dumps_head v floatless
  obtain ⟨c, s, eq, solid, -⟩ := head
  have solid : skipWs (utf8 (Json.dumps floats v)) = utf8 (Json.dumps floats v) := by
    rw [eq, skipWs_solid solid]
  have read : parseValue (2 * (utf8 (Json.dumps floats v)).length + 2)
      (utf8 (Json.dumps floats v) ++ []) = .ok (lite floats v, []) :=
    parseValue_dumps v floatless _ [] nofun (by rw [List.append_nil]; omega)
  rw [List.append_nil] at read
  unfold parseJson
  dsimp only
  rw [solid, read]
  rfl

/-! ## Lines -/

lemma not_mem_joined {texts : List Text} (all : ∀ t ∈ texts, '\n' ∉ utf8 t) : '\n' ∉ joined texts := by
  induction texts with
  | nil => exact List.not_mem_nil
  | cons t texts ih =>
    rw [List.forall_mem_cons] at all
    cases texts with
    | nil =>
      rw [joined_singleton]
      exact all.1
    | cons t' texts =>
      rw [joined_cons]
      simpa using ⟨all.1, ih all.2⟩

lemma not_mem_dumpsStr (s : Text) : '\n' ∉ utf8 (Json.dumpsStr s) := by
  rw [utf8_dumpsStr]
  simpa using not_mem_jsonEscape (utf8 s)

lemma not_mem_intText (n : Int) : '\n' ∉ intText n := by
  have digit : ∀ c ∈ "0123456789".toList, c ≠ '\n' :=
    List.all_iff_forall_prop.mp (by decide)
  rw [intText, List.mem_append]
  rintro (sign | mem)
  · split_ifs at sign
    · exact absurd sign (by decide)
    · cases sign
  · exact digit _ (digit_mem (digits_natAbs n _ mem)) rfl

mutual

lemma not_mem_dumps : ∀ v : Json R, Floatless v → '\n' ∉ utf8 (Json.dumps floats v)
  | .null, _ => by
    rw [Json.dumps]
    decide
  | .bool true, _ => by
    rw [Json.dumps]
    decide
  | .bool false, _ => by
    rw [Json.dumps]
    decide
  | .int n, _ => by
    rw [Json.dumps, utf8_dumpsInt]
    exact not_mem_intText n
  | .float _, floatless => absurd floatless id
  | .str s, _ => by
    rw [Json.dumps]
    exact not_mem_dumpsStr s
  | .arr items, floatless => by
    rw [utf8_arr]
    simpa using not_mem_joined (not_mem_dumpsItems items floatless)
  | .obj members, floatless => by
    rw [utf8_obj]
    simpa using not_mem_joined (not_mem_dumpsMembers members floatless)

lemma not_mem_dumpsItems : ∀ items : List (Json R), FloatlessItems items →
    ∀ t ∈ Json.dumpsItems floats items, '\n' ∉ utf8 t
  | [], _ => nofun
  | v :: items, floatless => List.forall_mem_cons.mpr
      ⟨not_mem_dumps v floatless.1, not_mem_dumpsItems items floatless.2⟩

lemma not_mem_dumpsMembers : ∀ members : List (Text × Json R), FloatlessMembers members →
    ∀ t ∈ Json.dumpsMembers floats members, '\n' ∉ utf8 t
  | [], _ => nofun
  | (key, v) :: members, floatless => by
    refine List.forall_mem_cons.mpr ⟨?_, not_mem_dumpsMembers members floatless.2⟩
    rw [utf8_member, memberStart]
    simpa using ⟨not_mem_jsonEscape (utf8 key), not_mem_dumps v floatless.1⟩

end

end PocketMoE.Server
