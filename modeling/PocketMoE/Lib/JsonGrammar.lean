import Mathlib.Data.List.Basic
import Mathlib.Data.List.Forall2
import Mathlib.Tactic.Lemma

/-!
# The grammar of JSON texts

Which texts are JSON (`JsonText`), by the productions of the grammar, and which texts stand for a member
of the outermost object (`TopValue`). A text is a list of characters; a program that works on bytes may
take each for the character with its number.
-/

namespace PocketMoE.Lib.JsonGrammar

/-! ## Blanks, numbers and strings -/

/-- White space between tokens. -/
def Blank (s : List Char) : Prop := ∀ c ∈ s, c = ' ' ∨ c = '\t' ∨ c = '\n' ∨ c = '\r'

/-- At least one digit, and nothing else. -/
def Digits (s : List Char) : Prop := s ≠ [] ∧ ∀ c ∈ s, c.isDigit

/-- An integer without a superfluous zero, a fraction and an exponent. -/
def NumberText (s : List Char) : Prop :=
  ∃ sign int frac exp : List Char, s = sign ++ (int ++ (frac ++ exp)) ∧
    (sign = [] ∨ sign = ['-']) ∧
    Digits int ∧ (int = ['0'] ∨ int.head? ≠ some '0') ∧
    (frac = [] ∨ ∃ ds, Digits ds ∧ frac = '.' :: ds) ∧
    (exp = [] ∨ ∃ e sign ds, (e = 'e' ∨ e = 'E') ∧ (sign = [] ∨ sign = ['+'] ∨ sign = ['-']) ∧
      Digits ds ∧ exp = e :: (sign ++ ds))

/-- What a character behind a backslash stands for. -/
def escape : Char → Option Char
  | '"' => some '"'
  | '\\' => some '\\'
  | '/' => some '/'
  | 'b' => some '\x08'
  | 'f' => some '\x0c'
  | 'n' => some '\n'
  | 'r' => some '\r'
  | 't' => some '\t'
  | _ => none

/-- The number of a hexadecimal digit. -/
def hexValue (c : Char) : Option Nat :=
  if c.isDigit then some (c.toNat - '0'.toNat)
  else if 'a' ≤ c ∧ c ≤ 'f' then some (c.toNat - 'a'.toNat + 10)
  else if 'A' ≤ c ∧ c ≤ 'F' then some (c.toNat - 'A'.toNat + 10)
  else none

/-- A character that stands for itself in a string. -/
def Plain (c : Char) : Prop := c ≠ '"' ∧ c ≠ '\\' ∧ 0x20 ≤ c.toNat

instance (c : Char) : Decidable (Plain c) := inferInstanceAs (Decidable (_ ∧ _ ∧ _))

/-- How a code unit of a string may be written. -/
inductive Piece : Nat → List Char → Prop where
  | plain {c} : Plain c → Piece c.toNat [c]
  | escaped {e c} : escape e = some c → Piece c.toNat ['\\', e]
  | unicode {a b c d i j k l} :
    hexValue a = some i → hexValue b = some j → hexValue c = some k → hexValue d = some l →
    Piece (((i * 16 + j) * 16 + k) * 16 + l) ['\\', 'u', a, b, c, d]

/-- A string literal for some code units. -/
def StringText (units : List Nat) (s : List Char) : Prop :=
  ∃ pieces, List.Forall₂ Piece units pieces ∧ s = '"' :: (pieces.flatten ++ ['"'])

lemma StringText.plain {s : List Char} (plain : ∀ c ∈ s, Plain c) :
    StringText (s.map Char.toNat) ('"' :: (s ++ ['"'])) := by
  refine ⟨s.map fun c => [c], ?_, by rw [← List.flatMap_def, List.flatMap_singleton']⟩
  rw [List.forall₂_map_left_iff, List.forall₂_map_right_iff, List.forall₂_same]
  exact fun c mem => .plain (plain c mem)

/-! ## Values -/

/-- The kinds of texts. -/
inductive Part where
  | value
  | element
  | member
  | elements
  | members

/-- The texts of a kind. An element has blanks around it, and several of them commas between. -/
inductive JsonText : Part → List Char → Prop where
  | literal {s : List Char} :
    s = "null".toList ∨ s = "true".toList ∨ s = "false".toList → JsonText .value s
  | number {s} : NumberText s → JsonText .value s
  | string {units s} : StringText units s → JsonText .value s
  | emptyArray {w} : Blank w → JsonText .value ('[' :: (w ++ [']']))
  | array {s} : JsonText .elements s → JsonText .value ('[' :: (s ++ [']']))
  | emptyObject {w} : Blank w → JsonText .value ('{' :: (w ++ ['}']))
  | object {s} : JsonText .members s → JsonText .value ('{' :: (s ++ ['}']))
  | element {w v w'} : Blank w → JsonText .value v → Blank w' → JsonText .element (w ++ (v ++ w'))
  | member {w units k w' e} : Blank w → StringText units k → Blank w' → JsonText .element e →
    JsonText .member (w ++ (k ++ (w' ++ ':' :: e)))
  | lastElement {s} : JsonText .element s → JsonText .elements s
  | elements {s rest} : JsonText .element s → JsonText .elements rest →
    JsonText .elements (s ++ ',' :: rest)
  | lastMember {s} : JsonText .member s → JsonText .members s
  | members {s rest} : JsonText .member s → JsonText .members rest →
    JsonText .members (s ++ ',' :: rest)

/-! ## The members of the outermost object -/

/-- A member with a key and the text of its value. -/
def MemberText (key value s : List Char) : Prop :=
  ∃ w k w' u u', Blank w ∧ StringText (key.map Char.toNat) k ∧ Blank w' ∧ Blank u ∧
    JsonText .value value ∧ Blank u' ∧ s = w ++ (k ++ (w' ++ ':' :: (u ++ (value ++ u'))))

/-- The text is a JSON object in which a key has a value with this text. -/
def TopValue (key value body : List Char) : Prop :=
  ∃ w before m after w', Blank w ∧ (∀ s ∈ before ++ after, JsonText .member s) ∧
    MemberText key value m ∧ Blank w' ∧
    body = w ++ ('{' :: ([','].intercalate (before ++ m :: after) ++ '}' :: w'))

lemma MemberText.jsonText {key value s : List Char} (member : MemberText key value s) :
    JsonText .member s := by
  obtain ⟨w, k, w', u, u', blank, name, blank', blankU, text, blankU', rfl⟩ := member
  exact .member blank name blank' (.element blankU text blankU')

lemma MemberText.plain {key value : List Char} (plain : ∀ c ∈ key, Plain c)
    (text : JsonText .value value) :
    MemberText key value ('"' :: (key ++ ['"']) ++ ':' :: value) := by
  have blank : Blank [] := fun c mem => absurd mem List.not_mem_nil
  refine ⟨[], _, [], [], [], blank, .plain plain, blank, blank, text, blank, ?_⟩
  rw [List.nil_append, List.nil_append, List.nil_append, List.append_nil]

lemma members_intercalate {ms : List (List Char)} (some : ms ≠ [])
    (all : ∀ m ∈ ms, JsonText .member m) : JsonText .members ([','].intercalate ms) := by
  induction ms with
  | nil => exact absurd rfl some
  | cons m ms ih =>
    rw [List.forall_mem_cons] at all
    obtain ⟨first, rest⟩ := all
    cases ms with
    | nil =>
      rw [List.intercalate_singleton]
      exact .lastMember first
    | cons m' ms =>
      rw [List.intercalate_cons_cons, List.append_assoc]
      exact .members first (ih (List.cons_ne_nil _ _) rest)

/-- A text with such a member is JSON. -/
theorem TopValue.jsonText {key value body : List Char} (top : TopValue key value body) :
    JsonText .element body := by
  obtain ⟨w, before, m, after, w', blank, others, member, blank', rfl⟩ := top
  obtain ⟨first, rest⟩ := List.forall_mem_append.mp others
  have all : ∀ s ∈ before ++ m :: after, JsonText .member s :=
    List.forall_mem_append.mpr ⟨first, List.forall_mem_cons.mpr ⟨member.jsonText, rest⟩⟩
  have object := JsonText.object (members_intercalate (List.append_ne_nil_of_right_ne_nil _
    (List.cons_ne_nil _ _)) all)
  have shape : w ++ ('{' :: ([','].intercalate (before ++ m :: after) ++ '}' :: w')) =
      w ++ ('{' :: ([','].intercalate (before ++ m :: after) ++ ['}']) ++ w') := by
    simp only [List.cons_append, List.append_assoc, List.nil_append]
  rw [shape]
  exact .element blank object blank'

end PocketMoE.Lib.JsonGrammar
