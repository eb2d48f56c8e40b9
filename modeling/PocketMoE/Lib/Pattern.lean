import PocketMoE.Lib.Text

/-!
# Patterns

Regular expressions of Python's `re` that are a sequence of items: a text, white space, groups and
the end. `matchItems` tries them in the order in which `re` does, and returns the groups.

`lazyGroup_eq` says what a group `(.*?)` takes: all up to the first place where the rest of the
pattern matches.
-/

namespace PocketMoE.Lib

/-- An item of a pattern. -/
inductive Item where
  /-- A text. -/
  | lit (t : Text)
  /-- `\s*`. -/
  | spaces
  /-- `(.*?)`, with `re.DOTALL`. -/
  | lazyGroup
  /-- `(a|b)`. -/
  | oneOf (ts : List Text)
  /-- `$`: the end, or a line feed there. -/
  | eol

namespace Item

/-- `\s*`, and what matches behind it: as much white space as possible. -/
def spacesThen {α : Type} (next : Text → Option α) : Text → Option α
  | [] => next []
  | c :: s =>
    if isspace c then
      match spacesThen next s with
      | some a => some a
      | none => next (c :: s)
    else next (c :: s)

/-- `(.*?)`, and what matches behind it: as little as possible. -/
def lazyGroupThen (next : Text → Option (List Text)) : Text → Option (List Text)
  | [] => (next []).map ([] :: ·)
  | c :: s =>
    match next (c :: s) with
    | some groups => some ([] :: groups)
    | none =>
      match lazyGroupThen next s with
      | some (group :: groups) => some ((c :: group) :: groups)
      | _ => none

/-- `(a|b)`, and what matches behind it: the first alternative that goes on. -/
def oneOfThen (next : Text → Option (List Text)) (s : Text) : List Text → Option (List Text)
  | [] => none
  | t :: ts =>
    if t <+: s then
      match next (s.drop t.length) with
      | some groups => some (t :: groups)
      | none => oneOfThen next s ts
    else oneOfThen next s ts

/-- The groups of a match at the start of a text: `re.findall` of a pattern that begins with `^` has
this one match or none. -/
def matchItems : List Item → Text → Option (List Text)
  | [], _ => some []
  | .lit t :: items, s => if t <+: s then matchItems items (s.drop t.length) else none
  | .spaces :: items, s => spacesThen (fun s => matchItems items s) s
  | .lazyGroup :: items, s => lazyGroupThen (fun s => matchItems items s) s
  | .oneOf ts :: items, s => oneOfThen (fun s => matchItems items s) s ts
  | .eol :: items, s => if s = [] ∨ s = [code '\n'] then matchItems items s else none

variable {items : List Item} {groups : List Text} {s t : Text}

lemma matchItems_lit : matchItems (.lit t :: items) (t ++ s) = matchItems items s := by
  rw [matchItems, if_pos (List.prefix_append t s), List.drop_left]

lemma matchItems_lit_none (other : ¬ t <+: s) : matchItems (.lit t :: items) s = none := by
  rw [matchItems, if_neg other]

lemma lazyGroup_eq {group : Text} (rest : matchItems items s = some groups)
    (before : ∀ pre post, group = pre ++ post → post ≠ [] → matchItems items (post ++ s) = none) :
    matchItems (.lazyGroup :: items) (group ++ s) = some (group :: groups) := by
  rw [matchItems]
  induction group with
  | nil =>
    rw [List.nil_append]
    cases s with
    | nil => rw [lazyGroupThen, rest, Option.map_some]
    | cons c s => rw [lazyGroupThen, rest]
  | cons c group ih =>
    have here := before [] (c :: group) rfl nofun
    have later := ih fun pre post eq => before (c :: pre) post (congrArg (c :: ·) eq)
    rw [List.cons_append] at here ⊢
    rw [lazyGroupThen, here, later]

lemma spaces_eq {c d : Code} (space : isspace c = true) (solid : isspace d = false)
    (rest : matchItems items (d :: s) = some groups) :
    matchItems (.spaces :: items) (c :: d :: s) = some groups := by
  rw [matchItems, spacesThen, if_pos space, spacesThen, solid, if_neg Bool.false_ne_true, rest]

/-! ## The end of a text that matches -/

lemma spacesThen_suffix {α : Type} {next : Text → Option α} {a : α}
    (found : spacesThen next s = some a) : ∃ s', s' <:+ s ∧ next s' = some a := by
  induction s with
  | nil => exact ⟨[], List.suffix_rfl, found⟩
  | cons c s ih =>
    rw [spacesThen] at found
    split_ifs at found
    · split at found
      · next more =>
        cases found
        obtain ⟨s', suffix, here⟩ := ih more
        exact ⟨s', suffix.trans (List.suffix_cons c s), here⟩
      · exact ⟨c :: s, List.suffix_rfl, found⟩
    · exact ⟨c :: s, List.suffix_rfl, found⟩

lemma lazyGroupThen_suffix {next : Text → Option (List Text)}
    (found : lazyGroupThen next s = some groups) :
    ∃ s' groups', s' <:+ s ∧ next s' = some groups' := by
  induction s generalizing groups with
  | nil =>
    obtain ⟨groups', here, -⟩ := Option.map_eq_some_iff.mp found
    exact ⟨[], groups', List.suffix_rfl, here⟩
  | cons c s ih =>
    rw [lazyGroupThen] at found
    split at found
    · next groups' here => exact ⟨c :: s, groups', List.suffix_rfl, here⟩
    · split at found
      · next more =>
        obtain ⟨s', groups', suffix, here⟩ := ih more
        exact ⟨s', groups', suffix.trans (List.suffix_cons c s), here⟩
      · cases found

lemma oneOfThen_suffix {next : Text → Option (List Text)} {ts : List Text}
    (found : oneOfThen next s ts = some groups) :
    ∃ s' groups', s' <:+ s ∧ next s' = some groups' := by
  induction ts with
  | nil => cases found
  | cons t ts ih =>
    rw [oneOfThen] at found
    split_ifs at found
    · split at found
      · next groups' here => exact ⟨s.drop t.length, groups', List.drop_suffix .., here⟩
      · exact ih found
    · exact ih found

lemma matchItems_suffix {tail : List Item} (found : matchItems (items ++ tail) s = some groups) :
    ∃ s' groups', s' <:+ s ∧ matchItems tail s' = some groups' := by
  induction items generalizing s groups with
  | nil => exact ⟨s, groups, List.suffix_rfl, found⟩
  | cons item items ih =>
    obtain ⟨s', groups', suffix, here⟩ : ∃ s' groups', s' <:+ s ∧
        matchItems (items ++ tail) s' = some groups' := by
      cases item with
      | lit t =>
        rw [List.cons_append, matchItems] at found
        split_ifs at found
        exact ⟨_, groups, List.drop_suffix .., found⟩
      | spaces =>
        obtain ⟨s', suffix, here⟩ := spacesThen_suffix found
        exact ⟨s', groups, suffix, here⟩
      | lazyGroup => exact lazyGroupThen_suffix found
      | oneOf ts => exact oneOfThen_suffix found
      | eol =>
        rw [List.cons_append, matchItems] at found
        split_ifs at found
        exact ⟨s, groups, List.suffix_rfl, found⟩
    obtain ⟨s'', groups'', suffix', here'⟩ := ih here
    exact ⟨s'', groups'', suffix'.trans suffix, here'⟩

end Item

end PocketMoE.Lib
