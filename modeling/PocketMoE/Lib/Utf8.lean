import PocketMoE.Lib.Bytes
import PocketMoE.Lib.Text

/-!
# UTF-8

`encodeUtf8` writes code points as bytes. `decodeUtf8` is
`bytes.decode("utf-8", errors="replace")`: it reads the bytes one by one and keeps what it has of an
unfinished code point (`Pending`); where the next byte does not fit, it gives U+FFFD and begins anew
with that byte.

The first bytes of a text are code points and a part of the next one (`prefix_encodeUtf8`). What was
encoded is decoded (`decode_encode`), and bytes that are decoded to ASCII are the ASCII bytes
(`decode_ascii`).
-/

namespace PocketMoE.Lib

/-- Not a surrogate. -/
def IsScalar (c : Code) : Prop := c.1 < 0xD800 ∨ 0xE000 ≤ c.1

instance (c : Code) : Decidable (IsScalar c) := inferInstanceAs (Decidable (_ ∨ _))

/-- A number as a byte. -/
def byte (n : Nat) : Byte := Fin.ofNat 256 n

/-- The bytes of a code point. -/
def encodeCode (c : Code) : List Byte :=
  if c.1 < 0x80 then [byte c]
  else if c.1 < 0x800 then [byte (0xC0 + c / 64), byte (0x80 + c % 64)]
  else if c.1 < 0x10000 then
    [byte (0xE0 + c / 4096), byte (0x80 + c / 64 % 64), byte (0x80 + c % 64)]
  else
    [byte (0xF0 + c / 262144), byte (0x80 + c / 4096 % 64), byte (0x80 + c / 64 % 64),
      byte (0x80 + c % 64)]

/-- `str.encode("utf-8")`. -/
def encodeUtf8 (s : Text) : List Byte := s.flatMap encodeCode

/-- The bytes are UTF-8. -/
def ValidUtf8 (bytes : List Byte) : Prop := ∃ s : Text, (∀ c ∈ s, IsScalar c) ∧ bytes = encodeUtf8 s

/-- An unfinished code point: the number so far, the bounds of the next byte and how many bytes
follow that one. -/
structure Pending where
  number : Nat
  low : Nat
  high : Nat
  left : Nat
deriving DecidableEq

/-- U+FFFD. -/
def replacement : Code := 0xFFFD

/-- A byte that begins a code point. -/
def startCode (b : Byte) : Text × Option Pending :=
  if b.1 < 0x80 then ([Fin.castLE (by decide) b], none)
  else if b.1 < 0xC2 then ([replacement], none)
  else if b.1 < 0xE0 then ([], some ⟨b - 0xC0, 0x80, 0xBF, 0⟩)
  else if b.1 = 0xE0 then ([], some ⟨0, 0xA0, 0xBF, 1⟩)
  else if b.1 = 0xED then ([], some ⟨0xD, 0x80, 0x9F, 1⟩)
  else if b.1 < 0xF0 then ([], some ⟨b - 0xE0, 0x80, 0xBF, 1⟩)
  else if b.1 = 0xF0 then ([], some ⟨0, 0x90, 0xBF, 2⟩)
  else if b.1 < 0xF4 then ([], some ⟨b - 0xF0, 0x80, 0xBF, 2⟩)
  else if b.1 = 0xF4 then ([], some ⟨4, 0x80, 0x8F, 2⟩)
  else ([replacement], none)

/-- One byte. -/
def decodeStep : Option Pending → Byte → Text × Option Pending
  | none, b => startCode b
  | some p, b =>
    if p.low ≤ b ∧ b ≤ p.high then
      let number := p.number * 64 + (b - 0x80)
      match p.left with
      | 0 => ([Fin.ofNat 0x110000 number], none)
      | left + 1 => ([], some ⟨number, 0x80, 0xBF, left⟩)
    else (replacement :: (startCode b).1, (startCode b).2)

/-- The bytes that follow. -/
def decodeFrom : Option Pending → List Byte → Text
  | none, [] => []
  | some _, [] => [replacement]
  | pending, b :: bytes => (decodeStep pending b).1 ++ decodeFrom (decodeStep pending b).2 bytes

/-- `bytes.decode("utf-8", errors="replace")`. -/
def decodeUtf8 (bytes : List Byte) : Text := decodeFrom none bytes

@[simp]
lemma byte_val (n : Nat) : (byte n).1 = n % 256 := rfl

/-! ## The bytes of a text -/

lemma encodeUtf8_cons (c : Code) (s : Text) : encodeUtf8 (c :: s) = encodeCode c ++ encodeUtf8 s :=
  List.flatMap_cons

lemma encodeUtf8_append (s t : Text) : encodeUtf8 (s ++ t) = encodeUtf8 s ++ encodeUtf8 t :=
  List.flatMap_append

/-- A byte that follows the first one of a code point. -/
def IsContinuation (b : Byte) : Prop := 0x80 ≤ b.1 ∧ b.1 < 0xC0

lemma byte_continuation {n : Nat} (low : 0x80 ≤ n) (high : n < 0xC0) : IsContinuation (byte n) := by
  unfold IsContinuation
  rw [byte_val, Nat.mod_eq_of_lt (by omega)]
  exact ⟨low, high⟩

lemma encodeCode_bytes (c : Code) : ∃ first rest, encodeCode c = first :: rest ∧
    (∀ b ∈ rest, IsContinuation b) ∧
    (c.1 < 0x80 ∧ first = byte c ∧ first.1 < 0x80 ∧ rest = [] ∨
      0x80 ≤ c.1 ∧ 0xC0 ≤ first.1 ∧ first.1 < 0xE0 ∧ rest.length = 1 ∨
      0x80 ≤ c.1 ∧ 0xE0 ≤ first.1 ∧ first.1 < 0xF0 ∧ rest.length = 2 ∨
      0x80 ≤ c.1 ∧ 0xF0 ≤ first.1 ∧ first.1 < 0xF8 ∧ rest.length = 3) := by
  have bound := c.2
  have value {n : Nat} (fits : n < 256) : (byte n).1 = n := Nat.mod_eq_of_lt fits
  unfold encodeCode
  split_ifs with one two three
  · exact ⟨_, _, rfl, nofun, Or.inl ⟨one, rfl, by rw [value (by omega)]; exact one, rfl⟩⟩
  · refine ⟨_, _, rfl, ?_, Or.inr (Or.inl ?_)⟩
    · exact List.forall_mem_singleton.mpr (byte_continuation (by omega) (by omega))
    · rw [value (by omega)]
      exact ⟨by omega, by omega, by omega, rfl⟩
  · refine ⟨_, _, rfl, ?_, Or.inr (Or.inr (Or.inl ?_))⟩
    · simp only [List.forall_mem_cons]
      exact ⟨byte_continuation (by omega) (by omega), byte_continuation (by omega) (by omega),
        nofun⟩
    · rw [value (by omega)]
      exact ⟨by omega, by omega, by omega, rfl⟩
  · refine ⟨_, _, rfl, ?_, Or.inr (Or.inr (Or.inr ?_))⟩
    · simp only [List.forall_mem_cons]
      exact ⟨byte_continuation (by omega) (by omega), byte_continuation (by omega) (by omega),
        byte_continuation (by omega) (by omega), nofun⟩
    · rw [value (by omega)]
      exact ⟨by omega, by omega, by omega, rfl⟩

/-- Some bytes of a code point, but not all. -/
def Unfinished (part : List Byte) : Prop :=
  ∃ c, part ≠ [] ∧ part <+: encodeCode c ∧ part.length < (encodeCode c).length

lemma prefix_encodeUtf8 {s : Text} {bytes : List Byte} (starts : bytes <+: encodeUtf8 s) :
    ∃ t part, t <+: s ∧ bytes = encodeUtf8 t ++ part ∧ (part = [] ∨ Unfinished part) := by
  induction s generalizing bytes with
  | nil =>
    obtain rfl := List.prefix_nil.mp starts
    exact ⟨[], [], List.nil_prefix, rfl, Or.inl rfl⟩
  | cons c s ih =>
    rw [encodeUtf8_cons] at starts
    rcases Nat.lt_or_ge bytes.length (encodeCode c).length with short | long
    · have inside : bytes <+: encodeCode c :=
        List.prefix_of_prefix_length_le starts (List.prefix_append _ _) short.le
      refine ⟨[], bytes, List.nil_prefix, rfl, ?_⟩
      by_cases none : bytes = []
      · exact Or.inl none
      · exact Or.inr ⟨c, none, inside, short⟩
    · obtain ⟨rest, rfl⟩ :=
        List.prefix_of_prefix_length_le (List.prefix_append _ _) starts long
      rw [List.prefix_append_right_inj] at starts
      obtain ⟨t, part, front, eq, kind⟩ := ih starts
      refine ⟨c :: t, part, List.cons_prefix_cons.mpr ⟨rfl, front⟩, ?_, kind⟩
      rw [eq, encodeUtf8_cons, List.append_assoc]

/-! ## What was encoded is decoded -/

lemma decodeStep_none (b : Byte) : decodeStep none b = startCode b := rfl

lemma decodeFrom_cons (pending : Option Pending) (b : Byte) (bytes : List Byte) :
    decodeFrom pending (b :: bytes) =
      (decodeStep pending b).1 ++ decodeFrom (decodeStep pending b).2 bytes := by
  cases pending with
  | none => rfl
  | some p => rfl

lemma decodeFrom_last {p : Pending} {b : Byte} {c : Code} (bytes : List Byte)
    (fits : p.low ≤ b ∧ b ≤ p.high) (left : p.left = 0) (eq : p.number * 64 + (b - 0x80) = c) :
    decodeFrom (some p) (b :: bytes) = c :: decodeFrom none bytes := by
  have step : decodeStep (some p) b = ([c], none) := by
    rw [decodeStep, if_pos fits, left]
    dsimp only
    rw [eq, Fin.ofNat_val_eq_self]
  rw [decodeFrom_cons, step]
  rfl

lemma decodeFrom_more {p q : Pending} {b : Byte} (bytes : List Byte)
    (fits : p.low ≤ b ∧ b ≤ p.high) (left : p.left = q.left + 1)
    (number : p.number * 64 + (b - 0x80) = q.number) (low : q.low = 0x80) (high : q.high = 0xBF) :
    decodeFrom (some p) (b :: bytes) = decodeFrom (some q) bytes := by
  have step : decodeStep (some p) b = ([], some q) := by
    rw [decodeStep, if_pos fits, left]
    dsimp only
    rw [number, ← low, ← high]
  rw [decodeFrom_cons, step]
  rfl

lemma decodeFrom_start {b : Byte} {p : Pending} (bytes : List Byte)
    (start : startCode b = ([], some p)) :
    decodeFrom none (b :: bytes) = decodeFrom (some p) bytes := by
  rw [decodeFrom_cons, decodeStep, start]
  rfl

lemma decode_code {c : Code} (scalar : IsScalar c) (bytes : List Byte) :
    decodeFrom none (encodeCode c ++ bytes) = c :: decodeFrom none bytes := by
  have bound := c.2
  unfold encodeCode
  split_ifs with one two three
  · have here : (byte c).1 = c := by
      rw [byte_val]
      omega
    have start : startCode (byte c) = ([c], none) := by
      rw [startCode, if_pos (by omega)]
      exact Prod.ext (congrArg (· :: []) (Fin.ext here)) rfl
    rw [List.cons_append, List.nil_append, decodeFrom_cons, decodeStep, start]
    rfl
  · have first : (byte (0xC0 + c / 64)).1 = 0xC0 + c / 64 := by
      rw [byte_val]
      omega
    have last : (byte (0x80 + c % 64)).1 = 0x80 + c % 64 := by
      rw [byte_val]
      omega
    have start : startCode (byte (0xC0 + c / 64)) = ([], some ⟨c / 64, 0x80, 0xBF, 0⟩) := by
      rw [startCode, first, if_neg (by omega), if_neg (by omega), if_pos (by omega),
        Nat.add_sub_cancel_left]
    rw [List.cons_append, decodeFrom_start _ start, List.cons_append,
      decodeFrom_last _ _ rfl, List.nil_append]
    · rw [last]
      dsimp only
      omega
    · rw [last]
      dsimp only
      omega
  · have first : (byte (0xE0 + c / 4096)).1 = 0xE0 + c / 4096 := by
      rw [byte_val]
      omega
    have second : (byte (0x80 + c / 64 % 64)).1 = 0x80 + c / 64 % 64 := by
      rw [byte_val]
      omega
    have last : (byte (0x80 + c % 64)).1 = 0x80 + c % 64 := by
      rw [byte_val]
      omega
    have start : ∃ low high, startCode (byte (0xE0 + c / 4096)) =
        ([], some ⟨c / 4096, low, high, 1⟩) ∧ low ≤ 0x80 + c / 64 % 64 ∧
        0x80 + c / 64 % 64 ≤ high := by
      rw [startCode, first, if_neg (by omega), if_neg (by omega), if_neg (by omega)]
      by_cases lowest : 0xE0 + c.1 / 4096 = 0xE0
      · rw [if_pos lowest]
        exact ⟨0xA0, 0xBF, by rw [show c.1 / 4096 = 0 by omega], by omega, by omega⟩
      · rw [if_neg lowest]
        by_cases surrogate : 0xE0 + c.1 / 4096 = 0xED
        · rw [if_pos surrogate]
          refine ⟨0x80, 0x9F, by rw [show c.1 / 4096 = 0xD by omega], by omega, ?_⟩
          rcases scalar with low | high
          · omega
          · omega
        · rw [if_neg surrogate, if_pos (by omega)]
          exact ⟨0x80, 0xBF, by rw [Nat.add_sub_cancel_left], by omega, by omega⟩
    obtain ⟨low, high, start, above, below⟩ := start
    rw [List.cons_append, decodeFrom_start _ start, List.cons_append,
      decodeFrom_more (q := ⟨c / 64, 0x80, 0xBF, 0⟩) _ _ rfl _ rfl rfl, List.cons_append,
      decodeFrom_last _ _ rfl, List.nil_append]
    · rw [last]
      dsimp only
      omega
    · rw [last]
      dsimp only
      omega
    · rw [second]
      exact ⟨above, below⟩
    · rw [second]
      dsimp only
      omega
  · have first : (byte (0xF0 + c / 262144)).1 = 0xF0 + c / 262144 := by
      rw [byte_val]
      omega
    have second : (byte (0x80 + c / 4096 % 64)).1 = 0x80 + c / 4096 % 64 := by
      rw [byte_val]
      omega
    have third : (byte (0x80 + c / 64 % 64)).1 = 0x80 + c / 64 % 64 := by
      rw [byte_val]
      omega
    have last : (byte (0x80 + c % 64)).1 = 0x80 + c % 64 := by
      rw [byte_val]
      omega
    have start : ∃ low high, startCode (byte (0xF0 + c / 262144)) =
        ([], some ⟨c / 262144, low, high, 2⟩) ∧ low ≤ 0x80 + c / 4096 % 64 ∧
        0x80 + c / 4096 % 64 ≤ high := by
      rw [startCode, first, if_neg (by omega), if_neg (by omega), if_neg (by omega),
        if_neg (by omega), if_neg (by omega), if_neg (by omega)]
      by_cases lowest : 0xF0 + c.1 / 262144 = 0xF0
      · rw [if_pos lowest]
        exact ⟨0x90, 0xBF, by rw [show c.1 / 262144 = 0 by omega], by omega, by omega⟩
      · rw [if_neg lowest]
        by_cases inner : 0xF0 + c.1 / 262144 < 0xF4
        · rw [if_pos inner]
          exact ⟨0x80, 0xBF, by rw [Nat.add_sub_cancel_left], by omega, by omega⟩
        · rw [if_neg inner, if_pos (by omega)]
          exact ⟨0x80, 0x8F, by rw [show c.1 / 262144 = 4 by omega], by omega, by omega⟩
    obtain ⟨low, high, start, above, below⟩ := start
    rw [List.cons_append, decodeFrom_start _ start, List.cons_append,
      decodeFrom_more (q := ⟨c / 4096, 0x80, 0xBF, 1⟩) _ _ rfl _ rfl rfl, List.cons_append,
      decodeFrom_more (q := ⟨c / 64, 0x80, 0xBF, 0⟩) _ _ rfl _ rfl rfl, List.cons_append,
      decodeFrom_last _ _ rfl, List.nil_append]
    · rw [last]
      dsimp only
      omega
    · rw [last]
      dsimp only
      omega
    · rw [third]
      dsimp only
      omega
    · rw [third]
      dsimp only
      omega
    · rw [second]
      exact ⟨above, below⟩
    · rw [second]
      dsimp only
      omega

/-- What was encoded is decoded. -/
theorem decode_encode {s : Text} (scalars : ∀ c ∈ s, IsScalar c) :
    decodeUtf8 (encodeUtf8 s) = s := by
  induction s with
  | nil => rfl
  | cons c s ih =>
    obtain ⟨here, rest⟩ := List.forall_mem_cons.mp scalars
    rw [encodeUtf8_cons, decodeUtf8, decode_code here]
    exact congrArg (c :: ·) (ih rest)

/-! ## What is decoded -/

/-- The least number that an unfinished code point can get. -/
def Pending.least (p : Pending) : Nat := (p.number * 64 + (p.low - 0x80)) * 64 ^ p.left

/-- The greatest. -/
def Pending.greatest (p : Pending) : Nat :=
  (p.number * 64 + (p.high - 0x80)) * 64 ^ p.left + (64 ^ p.left - 1)

/-- An unfinished code point gets to be one of several bytes that is no surrogate. -/
structure Pending.Wf (p : Pending) : Prop where
  low : 0x80 ≤ p.low
  high : p.high ≤ 0xBF
  least : 0x80 ≤ p.least
  greatest : p.greatest < 0x110000
  scalar : p.greatest < 0xD800 ∨ 0xE000 ≤ p.least

/-- What one byte gives: scalars, and an unfinished code point of the right kind; and without one,
it gives something that is not ASCII or is ASCII itself. -/
structure Gives (b : Byte) (result : Text × Option Pending) : Prop where
  scalars : ∀ c ∈ result.1, IsScalar c
  wf : ∀ p ∈ result.2, p.Wf
  ascii : (∃ c ∈ result.1, 0x80 ≤ c.1) ∨ result.2.isSome ∨
    result.1.map Fin.val = [b.1] ∧ result.2 = none

lemma Gives.replaced (b : Byte) : Gives b ([replacement], none) where
  scalars := List.forall_mem_singleton.mpr (Or.inr (by decide))
  wf := nofun
  ascii := Or.inl ⟨_, List.mem_singleton_self _, by decide⟩

lemma Gives.pending (b : Byte) {p : Pending} (wf : p.Wf) : Gives b ([], some p) where
  scalars := nofun
  wf := by
    rintro q ⟨⟩
    exact wf
  ascii := Or.inr (Or.inl rfl)

lemma pending_gives (b : Byte) {number low high left : Nat} (low_le : 0x80 ≤ low)
    (le_high : high ≤ 0xBF) (least : 0x80 ≤ (number * 64 + (low - 0x80)) * 64 ^ left)
    (greatest : (number * 64 + (high - 0x80)) * 64 ^ left + (64 ^ left - 1) < 0x110000)
    (scalar : (number * 64 + (high - 0x80)) * 64 ^ left + (64 ^ left - 1) < 0xD800 ∨
      0xE000 ≤ (number * 64 + (low - 0x80)) * 64 ^ left) :
    Gives b ([], some ⟨number, low, high, left⟩) :=
  Gives.pending b ⟨low_le, le_high, least, greatest, scalar⟩

lemma startCode_gives (b : Byte) : Gives b (startCode b) := by
  have bound := b.2
  rw [startCode]
  by_cases ascii : b.1 < 0x80
  · rw [if_pos ascii]
    exact ⟨List.forall_mem_singleton.mpr (Or.inl (by dsimp only [Fin.val_castLE]; omega)), nofun,
      Or.inr (Or.inr ⟨rfl, rfl⟩)⟩
  by_cases inner : b.1 < 0xC2
  · rw [if_neg ascii, if_pos inner]
    exact Gives.replaced b
  by_cases two : b.1 < 0xE0
  · rw [if_neg ascii, if_neg inner, if_pos two]
    apply pending_gives <;> omega
  rw [if_neg ascii, if_neg inner, if_neg two]
  by_cases lowest : b.1 = 0xE0
  · rw [if_pos lowest]
    apply pending_gives <;> decide
  by_cases surrogate : b.1 = 0xED
  · rw [if_neg lowest, if_pos surrogate]
    apply pending_gives <;> decide
  by_cases three : b.1 < 0xF0
  · rw [if_neg lowest, if_neg surrogate, if_pos three]
    apply pending_gives <;> omega
  rw [if_neg lowest, if_neg surrogate, if_neg three]
  by_cases first : b.1 = 0xF0
  · rw [if_pos first]
    apply pending_gives <;> decide
  by_cases four : b.1 < 0xF4
  · rw [if_neg first, if_pos four]
    apply pending_gives <;> omega
  by_cases last : b.1 = 0xF4
  · rw [if_neg first, if_neg four, if_pos last]
    apply pending_gives <;> decide
  · rw [if_neg first, if_neg four, if_neg last]
    exact Gives.replaced b

lemma decodeStep_gives {p : Pending} (wf : p.Wf) (b : Byte) :
    (∀ c ∈ (decodeStep (some p) b).1, IsScalar c) ∧
      (∀ q ∈ (decodeStep (some p) b).2, q.Wf) ∧
      ((∃ c ∈ (decodeStep (some p) b).1, 0x80 ≤ c.1) ∨ (decodeStep (some p) b).2.isSome) := by
  have low := wf.low
  have least := wf.least
  have greatest := wf.greatest
  have scalar := wf.scalar
  unfold Pending.least at least scalar
  unfold Pending.greatest at greatest scalar
  unfold decodeStep
  dsimp only
  split_ifs with fits
  · cases left : p.left with
    | zero =>
      rw [left] at least greatest scalar
      have value : (Fin.ofNat 0x110000 (p.number * 64 + (b.1 - 0x80))).1 =
          p.number * 64 + (b.1 - 0x80) := by
        rw [Fin.val_ofNat]
        exact Nat.mod_eq_of_lt (by omega)
      refine ⟨List.forall_mem_singleton.mpr ?_, nofun, Or.inl ⟨_, List.mem_singleton_self _, ?_⟩⟩
      · unfold IsScalar
        rw [value]
        omega
      · rw [value]
        omega
    | succ left' =>
      rw [left] at least greatest scalar
      refine ⟨nofun, fun q mem => ?_, Or.inr rfl⟩
      rw [← Option.mem_some_iff.mp mem]
      have pos : 0 < 64 ^ left' := Nat.pow_pos (by decide)
      have above : (p.number * 64 + (p.low - 0x80)) * 64 ^ (left' + 1) ≤
          (p.number * 64 + (b.1 - 0x80)) * 64 * 64 ^ left' := by
        rw [Nat.pow_succ, Nat.mul_comm (64 ^ left') 64, ← Nat.mul_assoc]
        exact Nat.mul_le_mul_right _ (Nat.mul_le_mul_right _ (by omega))
      have below : (p.number * 64 + (b.1 - 0x80)) * 64 * 64 ^ left' + 64 * 64 ^ left' ≤
          (p.number * 64 + (p.high - 0x80)) * 64 ^ (left' + 1) + 64 ^ (left' + 1) := by
        rw [Nat.pow_succ, Nat.mul_comm (64 ^ left') 64, ← Nat.mul_assoc]
        exact Nat.add_le_add_right
          (Nat.mul_le_mul_right _ (Nat.mul_le_mul_right _ (by omega))) _
      have wide : 64 ^ (left' + 1) = 64 * 64 ^ left' := by rw [Nat.pow_succ, Nat.mul_comm]
      refine ⟨le_rfl, le_rfl, ?_, ?_, ?_⟩
      all_goals
        simp only [Pending.least, Pending.greatest, Nat.sub_self, Nat.add_zero, Nat.add_mul]
          at above below least greatest scalar ⊢
        omega
  · have start := startCode_gives b
    refine ⟨List.forall_mem_cons.mpr ⟨Or.inr (by decide), start.scalars⟩, start.wf, Or.inl ?_⟩
    exact ⟨_, List.mem_cons_self .., by decide⟩

lemma decodeFrom_scalars {pending : Option Pending} (wf : ∀ p ∈ pending, p.Wf)
    (bytes : List Byte) : ∀ c ∈ decodeFrom pending bytes, IsScalar c := by
  induction bytes generalizing pending with
  | nil =>
    cases pending with
    | none => exact nofun
    | some p => exact List.forall_mem_singleton.mpr (Or.inr (by decide))
  | cons b bytes ih =>
    rw [decodeFrom_cons]
    cases pending with
    | none =>
      have gives := startCode_gives b
      exact List.forall_mem_append.mpr ⟨gives.scalars, ih gives.wf⟩
    | some p =>
      obtain ⟨scalars, next, -⟩ := decodeStep_gives (wf p rfl) b
      exact List.forall_mem_append.mpr ⟨scalars, ih next⟩

/-- Bytes are UTF-8 if what they are decoded to is encoded to them. -/
theorem validUtf8_iff {bytes : List Byte} :
    ValidUtf8 bytes ↔ encodeUtf8 (decodeUtf8 bytes) = bytes := by
  constructor
  · rintro ⟨s, scalars, rfl⟩
    rw [decode_encode scalars]
  · intro eq
    exact ⟨_, decodeFrom_scalars (by rintro p ⟨⟩) bytes, eq.symm⟩

lemma decodeFrom_ascii {pending : Option Pending} (wf : ∀ p ∈ pending, p.Wf) {bytes : List Byte}
    (ascii : ∀ c ∈ decodeFrom pending bytes, c.1 < 0x80) :
    pending = none ∧ (decodeFrom pending bytes).map Fin.val = bytes.map Fin.val := by
  induction bytes generalizing pending with
  | nil =>
    cases pending with
    | none => exact ⟨rfl, rfl⟩
    | some p => exact absurd (ascii _ (List.mem_singleton_self _)) (by decide)
  | cons b bytes ih =>
    rw [decodeFrom_cons] at ascii ⊢
    obtain ⟨here, rest⟩ := List.forall_mem_append.mp ascii
    cases pending with
    | none =>
      have gives := startCode_gives b
      rw [decodeStep_none] at here rest ⊢
      obtain ⟨next, same⟩ := ih gives.wf rest
      rcases gives.ascii with ⟨c, mem, high⟩ | unfinished | ⟨first, -⟩
      · exact absurd (here c mem) (Nat.not_lt.mpr high)
      · rw [next] at unfinished
        cases unfinished
      · refine ⟨rfl, ?_⟩
        rw [List.map_append, same, first]
        rfl
    | some p =>
      obtain ⟨-, next, other⟩ := decodeStep_gives (wf p rfl) b
      rcases other with ⟨c, mem, high⟩ | unfinished
      · exact absurd (here c mem) (Nat.not_lt.mpr high)
      · rw [(ih next rest).1] at unfinished
        cases unfinished

lemma encode_ascii {s : Text} (ascii : ∀ c ∈ s, c.1 < 0x80) :
    encodeUtf8 s = s.map fun c => byte c.1 := by
  induction s with
  | nil => rfl
  | cons c s ih =>
    obtain ⟨here, rest⟩ := List.forall_mem_cons.mp ascii
    rw [encodeUtf8_cons, ih rest, encodeCode, if_pos here]
    rfl

/-- An ASCII text is decoded only from its own bytes. -/
theorem decode_ascii {s : Text} (ascii : ∀ c ∈ s, c.1 < 0x80) (bytes : List Byte) :
    decodeUtf8 bytes = s ↔ bytes = encodeUtf8 s := by
  constructor
  · rintro rfl
    obtain ⟨-, same⟩ := decodeFrom_ascii (by rintro p ⟨⟩) ascii
    have back (l : List Byte) : (l.map Fin.val).map byte = l := by
      rw [List.map_map]
      exact List.map_id'' (fun b => Fin.ext (Nat.mod_eq_of_lt b.2)) l
    rw [encode_ascii ascii]
    have values := congrArg (List.map byte) same
    rw [back, List.map_map] at values
    exact values.symm
  · rintro rfl
    exact decode_encode fun c mem => Or.inl (by have := ascii c mem; omega)

end PocketMoE.Lib
