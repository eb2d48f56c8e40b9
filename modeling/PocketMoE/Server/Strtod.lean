import Mathlib.Data.Bool.AllAny
import Mathlib.Tactic.IntervalCases
import PocketMoE.Lib.Double
import PocketMoE.Server.JsonLite

/-!
# The numbers of the JSON reader

`parse_number` (`json_lite.cpp`) takes the text that `strtod` reads and its value. The model keeps the
text (`JsonValue.number`); `strtod` gives its value: a sign and a decimal or hexadecimal number, an
infinity or a NaN, rounded to the nearest number of 64 bits.
-/

namespace PocketMoE.Server
open PocketMoE.Lib

namespace JsonLite

/-- The value of a digit, up to 15. -/
def digitValue (c : Char) : Nat :=
  if c.isDigit then c.toNat - '0'.toNat else c.toLower.toNat - 'a'.toNat + 10

/-- The number that digits are written for. -/
def digitsValue (base : Nat) (digits : Bytes) : Nat :=
  digits.foldl (fun n c => n * base + digitValue c) 0

/-- The digits at the beginning of a text without their point, as a number, and how many of them follow
the point. -/
def mantissaValue (base : Nat) (digit : Char → Bool) (s : Bytes) : Nat × Nat :=
  let whole := s.takeWhile digit
  match s.drop whole.length with
  | '.' :: rest =>
    let fraction := rest.takeWhile digit
    (digitsValue base (whole ++ fraction), fraction.length)
  | _ => (digitsValue base whole, 0)

/-- The exponent at the beginning of a text; 0 if there is none. -/
def exponentValue (letter : Char) (s : Bytes) : Int :=
  if exponentLength letter s = 0 then 0
  else
    match s.drop 1 with
    | '-' :: rest => -(digitsValue 10 (rest.takeWhile Char.isDigit) : Int)
    | '+' :: rest => digitsValue 10 (rest.takeWhile Char.isDigit)
    | rest => digitsValue 10 (rest.takeWhile Char.isDigit)

/-- The nearest number to n times a power of the base. -/
def scaled (n base : Nat) (exponent : Int) : Double :=
  if 0 ≤ exponent then .ofRatio (n * base ^ exponent.toNat) 1
  else .ofRatio n (base ^ (-exponent).toNat)

/-- The value of what `strtod` reads after the sign. -/
def unsignedValue (s : Bytes) : Double :=
  let hex := if wordLength "0x" s = 0 then 0 else mantissaLength isHexDigit (s.drop 2)
  let (n, places) := if hex ≠ 0 then mantissaValue 16 isHexDigit (s.drop 2)
    else mantissaValue 10 Char.isDigit s
  if hex ≠ 0 then scaled n 2 (exponentValue 'p' (s.drop (2 + hex)) - 4 * places)
  else if decimalLength s ≠ 0 then
    scaled n 10 (exponentValue 'e' (s.drop (mantissaLength Char.isDigit s)) - places)
  else if wordLength "inf" s ≠ 0 then .infinite false
  else .nan

end JsonLite

open JsonLite in
/-- The value of `strtod`, for a text that it reads. -/
def strtod : Bytes → Double
  | '-' :: rest => (unsignedValue rest).neg
  | s => unsignedValue s

namespace JsonLite

/-! ## Integers -/

/-- The text goes on with what may follow a number that is printed, or ends. -/
def Stops (s : Bytes) : Prop := ∀ c ∈ s.head?, c = ',' ∨ c = ']' ∨ c = '\x7d'

section
variable {ds rest : Bytes} {c : Char}

lemma digit_mem (digit : c.isDigit) : c ∈ "0123456789".toList := by
  have bounds : 48 ≤ c.toNat ∧ c.toNat ≤ 57 := by
    simpa [Char.isDigit, Char.le_def, UInt32.le_iff_toNat_le] using digit
  obtain ⟨low, high⟩ := bounds
  rw [← Char.ofNat_toNat c]
  generalize c.toNat = n at low high
  interval_cases n
  all_goals decide

lemma takeWhile_digits (all : ∀ c ∈ ds, c.isDigit) (stops : Stops rest) :
    (ds ++ rest).takeWhile Char.isDigit = ds := by
  rw [List.takeWhile_append_of_pos all]
  cases rest with
  | nil => exact List.append_nil ds
  | cons c rest =>
    have other : ¬ c.isDigit := by
      rcases stops c rfl with rfl | rfl | rfl
      all_goals decide
    rw [List.takeWhile_cons_of_neg other, List.append_nil]

lemma exponentLength_stops (stops : Stops rest) : exponentLength 'e' rest = 0 := by
  cases rest with
  | nil => rfl
  | cons c rest =>
    have other : c.toLower ≠ 'e' := by
      rcases stops c rfl with rfl | rfl | rfl
      all_goals decide
    exact if_neg other

lemma mantissaLength_digits (all : ∀ c ∈ ds, c.isDigit) (stops : Stops rest) :
    mantissaLength Char.isDigit (ds ++ rest) = ds.length := by
  unfold mantissaLength
  dsimp only
  rw [takeWhile_digits all stops, List.drop_left]
  split
  · rcases stops '.' rfl with eq | eq | eq
    all_goals cases eq
  · rfl

lemma wordLength_digits (some' : ds ≠ []) (all : ∀ c ∈ ds, c.isDigit) (stops : Stops rest) :
    wordLength "0x" (ds ++ rest) = 0 := by
  have second : ∀ c, c.isDigit ∨ c = ',' ∨ c = ']' ∨ c = '\x7d' → c.toLower ≠ 'x' := by
    rintro c (digit | rfl | rfl | rfl)
    · have digits : ∀ c ∈ "0123456789".toList, c.toLower ≠ 'x' :=
        List.all_iff_forall_prop.mp (by decide)
      exact digits c (digit_mem digit)
    all_goals decide
  refine if_neg fun eq => ?_
  have eq : ((ds ++ rest).take 2).map Char.toLower = ['0', 'x'] := eq
  obtain ⟨d, ds, rfl⟩ := List.exists_cons_of_ne_nil some'
  rw [List.forall_mem_cons] at all
  cases ds with
  | nil =>
    cases rest with
    | nil => exact absurd (congrArg List.length eq) (by simp)
    | cons c rest => exact second c (Or.inr (stops c rfl)) (by simpa using (List.cons.inj eq).2)
  | cons c ds =>
    exact second c (Or.inl (all.2 c List.mem_cons_self)) (by simpa using (List.cons.inj eq).2)

lemma unsignedLength_digits (some' : ds ≠ []) (all : ∀ c ∈ ds, c.isDigit) (stops : Stops rest) :
    unsignedLength (ds ++ rest) = ds.length := by
  have long : ds.length ≠ 0 := fun eq => some' (List.length_eq_zero_iff.mp eq)
  have decimal : decimalLength (ds ++ rest) = ds.length := by
    rw [decimalLength, mantissaLength_digits all stops, if_neg long, List.drop_left,
      exponentLength_stops stops, Nat.add_zero]
  unfold unsignedLength
  rw [wordLength_digits some' all stops, decimal]
  simp [long]

lemma unsignedValue_digits (some' : ds ≠ []) (all : ∀ c ∈ ds, c.isDigit) :
    unsignedValue ds = .ofRatio (digitsValue 10 ds) 1 := by
  have stops : Stops [] := nofun
  have word := wordLength_digits some' all stops
  have mantissa := mantissaLength_digits all stops
  have exponent := exponentLength_stops stops
  have whole := takeWhile_digits all stops
  rw [List.append_nil] at word mantissa whole
  have long : ds.length ≠ 0 := fun eq => some' (List.length_eq_zero_iff.mp eq)
  have decimal : decimalLength ds = ds.length := by
    rw [decimalLength, mantissa, if_neg long, List.drop_length, exponent, Nat.add_zero]
  have value : mantissaValue 10 Char.isDigit ds = (digitsValue 10 ds, 0) := by
    unfold mantissaValue
    rw [whole]
    dsimp only
    rw [List.drop_length]
  unfold unsignedValue
  rw [word, value, decimal, mantissa]
  simp [long, exponentValue, exponent, scaled]

end

/-- The digits of an integer, behind its sign. -/
def intText (n : Int) : Bytes := (if n < 0 then ['-'] else []) ++ Nat.toDigits 10 n.natAbs

lemma digitsValue_toDigits (n : Nat) : digitsValue 10 (Nat.toDigits 10 n) = n := by
  have digit : ∀ c ∈ "0123456789".toList, digitValue c = c.toNat - '0'.toNat :=
    List.all_iff_forall_prop.mp (by decide)
  have same : ∀ ds : Bytes, (∀ c ∈ ds, c.isDigit) → ∀ m,
      ds.foldl (fun n c => n * 10 + digitValue c) m =
        ds.foldl (fun n c => 10 * n + (c.toNat - '0'.toNat)) m := by
    intro ds
    induction ds with
    | nil => exact fun _ _ => rfl
    | cons c ds ih =>
      intro all m
      rw [List.forall_mem_cons] at all
      rw [List.foldl_cons, List.foldl_cons, ih all.2, digit c (digit_mem all.1), Nat.mul_comm]
  have value := Nat.ofDigitChars_ten_toDigits (n := n)
  rw [Nat.ofDigitChars_eq_foldl] at value
  rw [digitsValue, same _ fun c => Nat.isDigit_of_mem_toDigits (by decide) (by decide)]
  exact value

section
variable (n : Int)

lemma digits_natAbs : ∀ c ∈ Nat.toDigits 10 n.natAbs, c.isDigit :=
  fun _ => Nat.isDigit_of_mem_toDigits (by decide) (by decide)

lemma toDigits_ne_minus {rest left : Bytes} : Nat.toDigits 10 n.natAbs ++ rest ≠ '-' :: left := by
  intro eq
  cases digits : Nat.toDigits 10 n.natAbs with
  | nil => exact Nat.toDigits_ne_nil digits
  | cons c ds =>
    rw [digits] at eq
    have digit := digits_natAbs n c (digits ▸ List.mem_cons_self)
    rw [(List.cons.inj eq).1] at digit
    exact absurd digit (by decide)

lemma strtodLength_intText {rest : Bytes} (stops : Stops rest) :
    strtodLength (intText n ++ rest) = (intText n).length := by
  have length := unsignedLength_digits Nat.toDigits_ne_nil (digits_natAbs n) stops
  have long : (Nat.toDigits 10 n.natAbs).length ≠ 0 :=
    fun eq => Nat.toDigits_ne_nil (List.length_eq_zero_iff.mp eq)
  unfold intText
  split_ifs with negative
  · rw [List.singleton_append, List.cons_append, strtodLength, length, if_neg long,
      List.length_cons, Nat.add_comm]
  · rw [List.nil_append]
    unfold strtodLength
    split
    · exact absurd ‹_› (toDigits_ne_minus n)
    · exact length

lemma strtod_intText : strtod (intText n) = .ofInt n := by
  have value := unsignedValue_digits Nat.toDigits_ne_nil (digits_natAbs n)
  rw [digitsValue_toDigits] at value
  unfold intText Double.ofInt
  split_ifs with negative
  · rw [List.singleton_append, strtod, value]
  · rw [List.nil_append]
    unfold strtod
    split
    · rename_i left eq
      rw [← List.append_nil (Nat.toDigits 10 n.natAbs)] at eq
      exact absurd eq (toDigits_ne_minus n)
    · exact value

end

end JsonLite

example : strtod "-2.5e1".toList = .finite (-25 * Double.one) := by decide +kernel
example : strtod "18446744073709551615".toList = .finite (2 ^ 64 * Double.one) := by decide +kernel

end PocketMoE.Server
