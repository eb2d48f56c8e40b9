import Mathlib.Algebra.GroupWithZero.Nat
import PocketMoE.Lib.Search

/-!
# Texts as code points

A text is a list of code points, as a `str` of Python is: the surrogates are among them. `text` is
the text of a literal.
-/

namespace PocketMoE.Lib

/-- A code point. -/
abbrev Code := Fin 0x110000

instance neZero_code : NeZero 0x110000 := ⟨by decide⟩

instance lawfulBEq_code : LawfulBEq Code := instLawfulBEq

/-- A `str`. -/
abbrev Text := List Code

instance lawfulBEq_text : LawfulBEq Text := List.instLawfulBEq

/-- The code point of a character. -/
def code (c : Char) : Code := ⟨c.toNat, by
  rcases c.valid with low | ⟨-, high⟩
  · exact Nat.lt_trans low (by decide)
  · exact high⟩

/-- The text of a literal. -/
def text (s : String) : Text := s.toList.map code

lemma code_inj {c d : Char} : code c = code d ↔ c = d := by
  rw [code, code, Fin.mk.injEq, Char.toNat_inj]

lemma forall_code {α : Type} {P : α → Prop} [DecidablePred P] {codes : List α}
    (all : codes.all (P ·) = true) : ∀ c ∈ codes, P c :=
  fun c member => of_decide_eq_true (List.all_eq_true.mp all c member)

/-- `str.isspace`. -/
def isspace (c : Code) : Bool :=
  c ∈ ([0x20, 0x85, 0xA0, 0x1680, 0x2028, 0x2029, 0x202F, 0x205F, 0x3000] : List Code) ||
    (0x09 ≤ c && c ≤ 0x0D) || (0x1C ≤ c && c ≤ 0x1F) || (0x2000 ≤ c && c ≤ 0x200A)

end PocketMoE.Lib
