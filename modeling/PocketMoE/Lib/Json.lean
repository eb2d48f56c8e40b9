import PocketMoE.Lib.OrderedDict
import PocketMoE.Lib.Text

/-!
# JSON

Values, their texts (`json.dumps` with `ensure_ascii=False`) and the reader (`json.loads`), as the
`json` module of Python has them. An object is its members in the order of the dictionary, which
`json.loads` builds of the pairs it reads. Python's floats are a parameter (`FloatText`).

A dictionary has a key once (`Distinct`); a list of members may not.
-/

namespace PocketMoE.Lib

/-- A `float`: `R` are the finite ones. -/
inductive PyFloat (R : Type) where
  | nan
  | infinity
  | negInfinity
  | finite (x : R)
deriving DecidableEq

/-- A value. -/
inductive Json (R : Type) where
  | null
  | bool (b : Bool)
  | int (n : Int)
  | float (x : PyFloat R)
  | str (s : Text)
  | arr (items : List (Json R))
  | obj (members : List (Text × Json R))

/-- `float.__repr__` of a finite float, and `float` of the text of a number. -/
structure FloatText (R : Type) where
  repr : R → Text
  ofText : Text → PyFloat R

namespace Json

variable {R : Type}

/-! ## The text of a value -/

/-- The code points with an escape of one letter. -/
def escapes : List (Code × Code) :=
  [(code '"', code '"'), (code '\\', code '\\'), (code '\n', code 'n'), (code '\r', code 'r'),
    (code '\t', code 't'), (0x0C, code 'f'), (0x08, code 'b')]

/-- A digit of `{:x}`. -/
def hexDigit (n : Nat) : Code := code (Nat.digitChar n)

/-- `{0:04x}`. -/
def hex4 (n : Nat) : Text :=
  [hexDigit (n / 4096 % 16), hexDigit (n / 256 % 16), hexDigit (n / 16 % 16), hexDigit (n % 16)]

/-- `ESCAPE_DCT`, for the code points that `ESCAPE` finds. -/
def escapeCode (c : Code) : Text :=
  match escapes.lookup c with
  | some letter => [code '\\', letter]
  | none => if c < 0x20 then code '\\' :: code 'u' :: hex4 c else [c]

/-- `py_encode_basestring`. -/
def dumpsStr (s : Text) : Text := code '"' :: (s.flatMap escapeCode ++ [code '"'])

/-- `int.__repr__`. -/
def dumpsInt (n : Int) : Text :=
  (if n < 0 then [code '-'] else []) ++ (Nat.toDigits 10 n.natAbs).map code

/-- `floatstr`. -/
def dumpsFloat (floats : FloatText R) : PyFloat R → Text
  | .nan => text "NaN"
  | .infinity => text "Infinity"
  | .negInfinity => text "-Infinity"
  | .finite x => floats.repr x

mutual

/-- `json.dumps`. -/
def dumps (floats : FloatText R) : Json R → Text
  | .null => text "null"
  | .bool true => text "true"
  | .bool false => text "false"
  | .int n => dumpsInt n
  | .float x => dumpsFloat floats x
  | .str s => dumpsStr s
  | .arr items => text "[" ++ ((text ", ").intercalate (dumpsItems floats items) ++ text "]")
  | .obj members => text "\x7b" ++ ((text ", ").intercalate (dumpsMembers floats members) ++ text "\x7d")

/-- The texts of the items. -/
def dumpsItems (floats : FloatText R) : List (Json R) → List Text
  | [] => []
  | v :: items => dumps floats v :: dumpsItems floats items

/-- The texts of the members. -/
def dumpsMembers (floats : FloatText R) : List (Text × Json R) → List Text
  | [] => []
  | (key, v) :: members =>
    (dumpsStr key ++ (text ": " ++ dumps floats v)) :: dumpsMembers floats members

end

/-! ## The reader -/

/-- `WHITESPACE`. -/
def isWhitespace (c : Code) : Bool := c ∈ ([0x20, 0x09, 0x0A, 0x0D] : List Code)

/-- Go on behind white space. -/
def skipWs (s : Text) : Text := s.dropWhile isWhitespace

/-- `BACKSLASH`: the code point of an escape of one letter. -/
def unescape (letter : Code) : Option Code :=
  ((escapes ++ [(code '/', code '/')]).find? fun e => e.2 = letter).map Prod.fst

/-- The value of a hexadecimal digit. -/
def hexValue (c : Code) : Option Nat :=
  if 0x30 ≤ c ∧ c ≤ 0x39 then some (c - 0x30)
  else if 0x61 ≤ c ∧ c ≤ 0x66 then some (c - 0x57)
  else if 0x41 ≤ c ∧ c ≤ 0x46 then some (c - 0x37)
  else none

/-- `_decode_uXXXX`. -/
def decodeHex4 (a b c d : Code) : Option Code :=
  match hexValue a, hexValue b, hexValue c, hexValue d with
  | some a, some b, some c, some d => some (Fin.ofNat _ (4096 * a + 256 * b + 16 * c + d))
  | _, _, _, _ => none

/-- What a string is written with up to its closing quote: code points, and whether one of them is
written `\uXXXX`. -/
def scanUnits : Text → Option (List (Code × Bool) × Text)
  | [] => none
  | c :: s =>
    if c = code '"' then some ([], s)
    else if c = code '\\' then
      match s with
      | [] => none
      | e :: s =>
        if e = code 'u' then
          match s with
          | h₁ :: h₂ :: h₃ :: h₄ :: s =>
            match decodeHex4 h₁ h₂ h₃ h₄ with
            | some u => (scanUnits s).map fun (units, rest) => ((u, true) :: units, rest)
            | none => none
          | _ => none
        else
          match unescape e with
          | some u => (scanUnits s).map fun (units, rest) => ((u, false) :: units, rest)
          | none => none
    else if c < 0x20 then none
    else (scanUnits s).map fun (units, rest) => ((c, false) :: units, rest)

/-- Two escapes `\uXXXX` that are the halves of a surrogate pair are one code point. -/
def joinSurrogates : List (Code × Bool) → Text
  | [] => []
  | [(c, _)] => [c]
  | (c, escaped) :: (d, escaped') :: units =>
    if escaped ∧ escaped' ∧ 0xD800 ≤ c ∧ c ≤ 0xDBFF ∧ 0xDC00 ≤ d ∧ d ≤ 0xDFFF then
      Fin.ofNat _ (0x10000 + (c - 0xD800) * 0x400 + (d - 0xDC00)) :: joinSurrogates units
    else c :: joinSurrogates ((d, escaped') :: units)

/-- `scanstring`, behind the opening quote. -/
def scanString (s : Text) : Option (Text × Text) :=
  (scanUnits s).map fun (units, rest) => (joinSurrogates units, rest)

/-- `[0-9]`. -/
def isDigit (c : Code) : Bool := 0x30 ≤ c && c ≤ 0x39

/-- `-?(?:0|[1-9][0-9]*)` of `NUMBER_RE`. -/
def scanInteger (s : Text) : Option (Text × Text) :=
  let sign := if s.head? = some (code '-') then [code '-'] else []
  match s.drop sign.length with
  | [] => none
  | c :: rest =>
    if c = code '0' then some (sign ++ [c], rest)
    else if isDigit c then some (sign ++ c :: rest.takeWhile isDigit, rest.dropWhile isDigit)
    else none

/-- `(\.[0-9]+)?` of `NUMBER_RE`. -/
def scanFraction (s : Text) : Text × Text :=
  match s with
  | [] => ([], [])
  | c :: rest =>
    if c = code '.' ∧ rest.takeWhile isDigit ≠ [] then
      (c :: rest.takeWhile isDigit, rest.dropWhile isDigit)
    else ([], s)

/-- `([eE][-+]?[0-9]+)?` of `NUMBER_RE`. -/
def scanExponent (s : Text) : Text × Text :=
  match s with
  | [] => ([], [])
  | c :: rest =>
    let sign := (rest.take 1).filter fun c => c = code '-' ∨ c = code '+'
    let digits := rest.drop sign.length
    if (c = code 'e' ∨ c = code 'E') ∧ digits.takeWhile isDigit ≠ [] then
      (c :: (sign ++ digits.takeWhile isDigit), digits.dropWhile isDigit)
    else ([], s)

/-- `int` of digits. -/
def natOf (digits : Text) : Nat := digits.foldl (fun n (c : Code) => 10 * n + (c.val - 0x30)) 0

/-- `int` of the text of an integer. -/
def intOf (s : Text) : Int :=
  if s.head? = some (code '-') then -(natOf s.tail : Int) else natOf s

/-- `_match_number`. -/
def scanNumber (floats : FloatText R) (s : Text) : Option (Json R × Text) :=
  match scanInteger s with
  | none => none
  | some (integer, s) =>
    let (fraction, s) := scanFraction s
    let (exponent, s) := scanExponent s
    if fraction = [] ∧ exponent = [] then some (.int (intOf integer), s)
    else some (.float (floats.ofText (integer ++ fraction ++ exponent)), s)

/-- The words and their values. -/
def literals : List (Text × Json R) :=
  [(text "null", .null), (text "true", .bool true), (text "false", .bool false),
    (text "NaN", .float .nan), (text "Infinity", .float .infinity),
    (text "-Infinity", .float .negInfinity)]

/-- Elements with commas between them, up to the closing mark. `fuel` bounds the loop; each round
reads a code point. -/
def scanList {α : Type} (scanElement : Text → Option (α × Text)) (close : Code) :
    (fuel : Nat) → Text → Option (List α × Text)
  | 0, _ => none
  | fuel + 1, s =>
    match scanElement s with
    | none => none
    | some (a, s) =>
      match skipWs s with
      | [] => none
      | c :: s =>
        if c = close then some ([a], s)
        else if c = code ',' then
          (scanList scanElement close fuel (skipWs s)).map fun (as, s) => (a :: as, s)
        else none

/-- A key, a colon and a value. -/
def scanMember (scanValue : Text → Option (Json R × Text)) :
    Text → Option ((Text × Json R) × Text)
  | [] => none
  | c :: s =>
    if c = code '"' then
      match scanString s with
      | none => none
      | some (key, s) =>
        match skipWs s with
        | [] => none
        | c :: s =>
          if c = code ':' then (scanValue (skipWs s)).map fun (v, s) => ((key, v), s) else none
    else none

/-- `dict` of pairs. -/
def dict (pairs : List (Text × Json R)) : OrderedDict Text (Json R) :=
  pairs.foldl (fun members pair => members.insert pair.1 pair.2) .empty

/-- `scan_once`. `fuel` bounds how deep it goes; each level reads a bracket. -/
def scanOnce (floats : FloatText R) : (fuel : Nat) → Text → Option (Json R × Text)
  | 0, _ => none
  | _ + 1, [] => none
  | fuel + 1, c :: s =>
    if c = code '"' then (scanString s).map fun (value, s) => (.str value, s)
    else if c = code '\x7b' then
      if (skipWs s).head? = some (code '\x7d') then some (.obj [], (skipWs s).tail)
      else (scanList (scanMember (scanOnce floats fuel)) (code '\x7d') s.length (skipWs s)).map
        fun (pairs, s) => (.obj (dict pairs).entries, s)
    else if c = code '[' then
      if (skipWs s).head? = some (code ']') then some (.arr [], (skipWs s).tail)
      else (scanList (scanOnce floats fuel) (code ']') s.length (skipWs s)).map
        fun (items, s) => (.arr items, s)
    else
      match literals.find? fun l => l.1.isPrefixOf (c :: s) with
      | some (word, value) => some (value, (c :: s).drop word.length)
      | none => scanNumber floats (c :: s)

/-- `json.loads`; no value where it raises an error. -/
def loads (floats : FloatText R) (s : Text) : Option (Json R) :=
  if s.head? = some 0xFEFF then none
  else
    match scanOnce floats s.length (skipWs s) with
    | some (value, rest) => if skipWs rest = [] then some value else none
    | none => none

/-! ## Well-formed values -/

mutual

/-- No object has a key twice. -/
def Distinct : Json R → Prop
  | .arr items => DistinctItems items
  | .obj members => (members.map Prod.fst).Nodup ∧ DistinctMembers members
  | _ => True

/-- No object in the items has a key twice. -/
def DistinctItems : List (Json R) → Prop
  | [] => True
  | v :: items => Distinct v ∧ DistinctItems items

/-- No object in the members has a key twice. -/
def DistinctMembers : List (Text × Json R) → Prop
  | [] => True
  | (_, v) :: members => Distinct v ∧ DistinctMembers members

end

end Json

end PocketMoE.Lib
