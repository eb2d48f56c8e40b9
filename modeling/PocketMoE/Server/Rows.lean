import Mathlib.Algebra.Order.Ring.Unbundled.Rat
import Mathlib.Data.List.GetD
import Mathlib.Data.List.TakeWhile
import PocketMoE.Server.Serving

/-!
# Greedy generation for several prompts

`generate` (`generation.py`) keeps the tokens of all prompts in one matrix with -1 at the places not
written, feeds the first `min(prompt_lens)` columns, and then one column after the other: a longer
prompt's tokens go in where a shorter one's are generated already. Speculation and prefix snapshots,
which both have to be asked for, are left out.

What the model computes is a parameter. `RowIndependent` says that what `forward` returns for a row
is a function of the tokens this row has been fed. Then `generate` gives every prompt its own
`completion`, the same in any company (`generate_eq`). `rowAt` is the matrix row at a position of
the loop, and `loop_eq` the loop's invariant.
-/

namespace PocketMoE.Serving

namespace Number

/-- The order of floats: `nan` is not below or above anything. -/
def less : Number → Number → Bool
  | .finite a, .finite b => a < b
  | .infinity negative, .finite _ => negative
  | .finite _, .infinity negative => !negative
  | .infinity a, .infinity b => a && !b
  | _, _ => false

/-- `abs(x - q)`. -/
def distance (q : ℚ) : Number → Number
  | .finite a => .finite (max (a - q) (q - a))
  | .infinity _ => .infinity false
  | .nan => .nan

/-- `x or q`: a missing number and zero are falsy. -/
def orElse (q : ℚ) : Option Number → Number
  | none => .finite q
  | some a => if a = .finite 0 then .finite q else a

end Number

/-- `_has_generation_processors`. -/
def GenerationOptions.hasProcessors (options : GenerationOptions) : Bool :=
  let far (q : ℚ) (x : Option Number) : Bool :=
    (Number.finite (1 / 10 ^ 9)).less ((Number.orElse q x).distance q)
  options.topP.any (·.less (.finite 1)) || options.topK.any (0 < ·) ||
    options.minP.any (Number.less (.finite 0)) || far 0 options.frequencyPenalty ||
    far 0 options.presencePenalty || far 1 options.repetitionPenalty || options.logprobs

/-- A row of the token matrix, of `prompt_mask` and of `finished`. -/
structure Row where
  tokens : List Int
  mask : List Bool
  finished : Bool

/-- The model as the generation loop uses it: `forward` on the columns from a position on gives an
output for every row, and `pick` a row's next token from its output, after the processors that the
options ask for. `prefillChunkTokens` that are not positive are none. -/
structure Decoder (S L : Type) where
  maxSeqLen : Nat
  maxSeqLen_pos : 0 < maxSeqLen
  eosId : Int
  prefillChunkTokens : Int
  forward : S → List (List Int) → Nat → List L × S
  pick : GenerationOptions → List Int → L → Int

/-- A row of the matrix before the loop. -/
def Row.init (total : Nat) (prompt : List Nat) : Row :=
  let tokens := prompt.map Int.ofNat ++ List.replicate (total - prompt.length) (-1)
  { tokens := tokens
    mask := tokens.map (· != -1)
    finished := false }

/-- `tokens[:, start:stop]`. -/
def columns (rows : List Row) (start stop : Nat) : List (List Int) :=
  rows.map fun row => (row.tokens.drop start).take (stop - start)

/-- `max(prompt_lens)`. -/
def maxLen (prompts : List (List Nat)) : Nat :=
  (prompts.map List.length).foldr max 0

/-- `min(prompt_lens)`. -/
def minLen (prompts : List (List Nat)) : Nat :=
  (prompts.map List.length).foldr min (maxLen prompts)

namespace Decoder

variable {S L : Type} (d : Decoder S L)

/-- The chunks of a long prompt; only the last call's outputs are returned. -/
def prefillChunks (rows : List Row) (chunk stop : Nat) : Nat → S → Nat → List L × S
  | 0, s, start => d.forward s (columns rows start stop) start
  | fuel + 1, s, start =>
    if start + chunk < stop then
      prefillChunks rows chunk stop fuel
        (d.forward s (columns rows start (start + chunk)) start).2 (start + chunk)
    else
      d.forward s (columns rows start stop) start

/-- The forward calls of one round: the prompts' common columns may be fed in chunks. -/
def call (options : GenerationOptions) (shortest : Nat) (s : S) (rows : List Row)
    (prev cur : Nat) : List L × S :=
  if !options.hasProcessors && prev < shortest && 0 < d.prefillChunkTokens &&
      d.prefillChunkTokens < cur - prev then
    d.prefillChunks rows d.prefillChunkTokens.toNat cur cur s prev
  else
    d.forward s (columns rows prev cur) prev

/-- What the round writes at `cur_pos` of a row: the prompt's token, or the next one. -/
def write (options : GenerationOptions) (cur : Nat) (row : Row) (output : L) : Row :=
  let masked := row.mask.getD cur false
  let token :=
    if masked then row.tokens.getD cur (-1) else d.pick options (row.tokens.take cur) output
  { row with
    tokens := row.tokens.set cur token
    finished := row.finished || (!masked && token == d.eosId) }

/-- The loop of `generate`, for the positions that are left until `total_len`. -/
def loop (options : GenerationOptions) (shortest : Nat) : Nat → S → Nat → Nat → List Row → List Row
  | 0, _, _, _, rows => rows
  | left + 1, s, prev, cur, rows =>
    let (outputs, s) := d.call options shortest s rows prev cur
    let rows := List.zipWith (d.write options cur) rows outputs
    if rows.all Row.finished then rows else loop options shortest left s cur (cur + 1) rows

/-- A row of `completion_tokens`. -/
def finish (maxNewTokens : Nat) (prompt : List Nat) (row : Row) : List Int :=
  ((row.tokens.drop prompt.length).take maxNewTokens).takeWhile (· != d.eosId) ++ [d.eosId]

/-- `generate` without sampling. It raises an exception if a prompt is longer than the model allows,
or than the matrix, which a negative `max_new_tokens` makes too small. -/
def generate (s : S) (prompts : List (List Nat)) (maxNewTokens : Int)
    (options : GenerationOptions) : Option (List (List Int)) :=
  let total := min (d.maxSeqLen : Int) (maxNewTokens + maxLen prompts)
  if d.maxSeqLen < maxLen prompts || total < maxLen prompts then none
  else
    let rows := prompts.map (Row.init total.toNat)
    let shortest := minLen prompts
    let rows := d.loop options shortest (total.toNat - shortest) s 0 shortest rows
    some (List.zipWith (d.finish maxNewTokens.toNat) prompts rows)

/-- The state after calls that have fed the columns of `rows`, from the first one on. Before the
first call the state is any. -/
inductive Fed : List (List Int) → Nat → S → Prop where
  | start (count : Nat) (s : S) : Fed (List.replicate count []) 0 s
  | call {rows : List (List Int)} {pos : Nat} {s : S} (chunk : List (List Int)) (width : Nat) :
    Fed rows pos s → chunk.length = rows.length → (∀ c ∈ chunk, c.length = width) →
    Fed (List.zipWith (· ++ ·) rows chunk) (pos + width) (d.forward s chunk pos).2

/-- What `forward` returns for a row is a function of the tokens that this row has been fed. -/
def RowIndependent (output : List Int → L) : Prop :=
  ∀ rows pos s chunk width, d.Fed rows pos s → chunk.length = rows.length →
    (∀ c ∈ chunk, c.length = width) →
    (d.forward s chunk pos).1 = (List.zipWith (· ++ ·) rows chunk).map output

variable (output : List Int → L) (options : GenerationOptions)

/-- The tokens that a row generates, whatever the other rows are. -/
def generated (prompt : List Nat) : Nat → List Int
  | 0 => []
  | k + 1 =>
    let tokens := prompt.map Int.ofNat ++ generated prompt k
    generated prompt k ++ [d.pick options tokens (output tokens)]

/-- A row's completion: its generated tokens, as many as fit, up to the first end mark. -/
def completion (maxNewTokens : Nat) (prompt : List Nat) : List Int :=
  (d.generated output options prompt (min maxNewTokens (d.maxSeqLen - prompt.length))).takeWhile
    (· != d.eosId) ++ [d.eosId]

/-- A row when the loop is at a position. -/
def rowAt (total cur : Nat) (prompt : List Nat) : Row where
  tokens := prompt.map Int.ofNat ++ d.generated output options prompt (cur - prompt.length) ++
    List.replicate (total - max cur prompt.length) (-1)
  mask := (Row.init total prompt).mask
  finished := (d.generated output options prompt (cur - prompt.length)).contains d.eosId

variable {d output options} {total cur prev : Nat} {prompt : List Nat} {prompts : List (List Nat)}

@[simp]
lemma generated_length (k : Nat) : (d.generated output options prompt k).length = k := by
  induction k with
  | zero => rfl
  | succ k ih => rw [generated, List.length_append, ih, List.length_singleton]

lemma rowAt_init (first : cur ≤ prompt.length) :
    d.rowAt output options total cur prompt = Row.init total prompt := by
  have none : cur - prompt.length = 0 := by omega
  rw [rowAt, none, Nat.max_eq_right first, generated, List.append_nil]
  rfl

lemma rowAt_length (fits : prompt.length ≤ total) (le : cur ≤ total) :
    (d.rowAt output options total cur prompt).tokens.length = total := by
  simp only [rowAt, List.length_append, List.length_map, generated_length, List.length_replicate]
  omega

lemma mask_getD (total cur : Nat) (prompt : List Nat) :
    (Row.init total prompt).mask.getD cur false = decide (cur < prompt.length) := by
  by_cases inside : cur < prompt.length
  · simp [Row.init, List.getD_eq_getElem?_getD, List.getElem?_append_left, inside]
  · have outside : prompt.length ≤ cur := by omega
    simp only [Row.init, List.map_append, List.map_replicate, List.getD_eq_getElem?_getD]
    rw [List.getElem?_append_right (by simpa using outside)]
    simp only [inside, decide_false, bne_self_eq_false, List.getElem?_replicate]
    split_ifs
    · rfl
    · rfl

lemma rowAt_add (total k : Nat) (prompt : List Nat) :
    d.rowAt output options total (prompt.length + k) prompt =
      { tokens := prompt.map Int.ofNat ++ d.generated output options prompt k ++
          List.replicate (total - (prompt.length + k)) (-1)
        mask := (Row.init total prompt).mask
        finished := (d.generated output options prompt k).contains d.eosId } := by
  rw [rowAt, Nat.add_sub_cancel_left, Nat.max_eq_left (Nat.le_add_right ..)]

/-- A row at a position, with the tokens that it has generated. -/
def holding (eosId : Int) (total cur : Nat) (prompt : List Nat) (tokens : List Int) : Row where
  tokens := prompt.map Int.ofNat ++ tokens ++ List.replicate (total - max cur prompt.length) (-1)
  mask := (Row.init total prompt).mask
  finished := tokens.contains eosId

lemma holding_init (eosId : Int) (first : cur ≤ prompt.length) :
    holding eosId total cur prompt [] = Row.init total prompt := by
  rw [holding, Nat.max_eq_right first, List.append_nil]
  rfl

lemma write_prompt (output : L) (inside : cur < prompt.length) :
    d.write options cur (Row.init total prompt) output = Row.init total prompt := by
  have masked : (Row.init total prompt).mask.getD cur false = true :=
    (mask_getD total cur prompt).trans (decide_eq_true inside)
  have there : cur < (Row.init total prompt).tokens.length := by
    simp only [Row.init, List.length_append, List.length_map, List.length_replicate]
    omega
  unfold write
  simp only [masked, if_true, Bool.not_true, Bool.false_and, Bool.or_false]
  rw [List.getD_eq_getElem _ _ there, List.set_getElem_self]

lemma write_holding {tokens : List Int} (output : L) (count : tokens.length = cur - prompt.length)
    (past : prompt.length ≤ cur) (lt : cur < total) :
    d.write options cur (holding d.eosId total cur prompt tokens) output =
      holding d.eosId total (cur + 1) prompt
        (tokens ++ [d.pick options (prompt.map Int.ofNat ++ tokens) output]) := by
  have masked : (holding d.eosId total cur prompt tokens).mask.getD cur false = false :=
    (mask_getD total cur prompt).trans (decide_eq_false (by omega))
  have front : (prompt.map Int.ofNat ++ tokens).length = cur := by
    rw [List.length_append, List.length_map, count]
    omega
  obtain ⟨room, eq⟩ : ∃ room, total - cur = room + 1 := ⟨total - cur - 1, by omega⟩
  have rest : total - max (cur + 1) prompt.length = room := by omega
  unfold write
  simp only [masked, Bool.false_eq_true, if_false, Bool.not_false, Bool.true_and]
  simp only [holding, rest, Nat.max_eq_left past, eq, List.replicate_succ]
  rw [List.take_left' front, List.set_append_right _ _ front.le, front, Nat.sub_self,
    List.set_cons_zero]
  simp [Bool.beq_comm, beq_eq_decide]

lemma write_rowAt (lt : cur < total) :
    d.write options cur (d.rowAt output options total cur prompt)
        (output ((d.rowAt output options total cur prompt).tokens.take cur)) =
      d.rowAt output options total (cur + 1) prompt := by
  rcases Nat.lt_or_ge cur prompt.length with inside | past
  · rw [rowAt_init inside.le, rowAt_init inside]
    exact write_prompt _ inside
  · have front : (prompt.map Int.ofNat ++ d.generated output options prompt
        (cur - prompt.length)).length = cur := by
      rw [List.length_append, List.length_map, generated_length]
      omega
    have fed : (d.rowAt output options total cur prompt).tokens.take cur =
        prompt.map Int.ofNat ++ d.generated output options prompt (cur - prompt.length) :=
      List.take_left' front
    have count : (d.generated output options prompt (cur - prompt.length)).length =
        cur - prompt.length := generated_length _
    rw [fed]
    refine (write_holding _ count past lt).trans ?_
    rw [rowAt, Nat.succ_sub past, generated]
    rfl

lemma rowAt_take (lt : cur < total) :
    (d.rowAt output options total (cur + 1) prompt).tokens.take cur =
      (d.rowAt output options total cur prompt).tokens.take cur := by
  rw [← write_rowAt lt]
  show ((d.rowAt output options total cur prompt).tokens.set cur _).take cur = _
  rw [List.take_set, List.set_eq_of_length_le]
  rw [List.length_take]
  exact Nat.min_le_left ..

lemma zipWith_columns (rows : List Row) {stop : Nat} (le : prev ≤ stop) :
    List.zipWith (· ++ ·) (rows.map fun row => row.tokens.take prev) (columns rows prev stop) =
      rows.map fun row => row.tokens.take stop := by
  rw [columns, List.zipWith_map, List.zipWith_self]
  refine List.map_congr_left fun row _ => ?_
  have split := List.take_append_drop prev (row.tokens.take stop)
  rwa [List.take_take, Nat.min_eq_left le, List.drop_take] at split

/-- The rows have tokens up to a position. -/
def Wide (rows : List Row) (stop : Nat) : Prop :=
  ∀ row ∈ rows, stop ≤ row.tokens.length

lemma columns_width {rows : List Row} {stop : Nat} (wide : Wide rows stop) (le : prev ≤ stop) :
    ∀ c ∈ columns rows prev stop, c.length = stop - prev := by
  intro c member
  obtain ⟨row, here, rfl⟩ := List.mem_map.mp member
  have enough := wide row here
  rw [List.length_take, List.length_drop]
  omega

lemma forward_columns (independent : d.RowIndependent output) {rows : List Row} {s : S}
    {stop : Nat} (fed : d.Fed (rows.map fun row => row.tokens.take prev) prev s)
    (wide : Wide rows stop) (le : prev ≤ stop) :
    (d.forward s (columns rows prev stop) prev).1 =
        rows.map (fun row => output (row.tokens.take stop)) ∧
      d.Fed (rows.map fun row => row.tokens.take stop) stop
        (d.forward s (columns rows prev stop) prev).2 := by
  have count : (columns rows prev stop).length =
      (rows.map fun row => row.tokens.take prev).length := by
    rw [columns, List.length_map, List.length_map]
  have width := columns_width wide le
  refine ⟨?_, ?_⟩
  · rw [independent _ _ s _ _ fed count width, zipWith_columns rows le, List.map_map]
    rfl
  · have next := Fed.call _ _ fed count width
    rwa [zipWith_columns rows le, Nat.add_sub_cancel' le] at next

lemma prefillChunks_eq (independent : d.RowIndependent output) {rows : List Row} {chunk stop : Nat}
    (wide : Wide rows stop) (fuel : Nat) {s : S}
    (fed : d.Fed (rows.map fun row => row.tokens.take prev) prev s) (le : prev ≤ stop) :
    (d.prefillChunks rows chunk stop fuel s prev).1 =
        rows.map (fun row => output (row.tokens.take stop)) ∧
      d.Fed (rows.map fun row => row.tokens.take stop) stop
        (d.prefillChunks rows chunk stop fuel s prev).2 := by
  induction fuel generalizing s prev with
  | zero => exact forward_columns independent fed wide le
  | succ fuel ih =>
    unfold prefillChunks
    split_ifs with more
    · have narrow : Wide rows (prev + chunk) := fun row here => more.le.trans (wide row here)
      exact ih (forward_columns independent fed narrow (Nat.le_add_right ..)).2 more.le
    · exact forward_columns independent fed wide le

lemma call_eq (options : GenerationOptions) (shortest : Nat)
    (independent : d.RowIndependent output) {rows : List Row} (wide : Wide rows cur) {s : S}
    (fed : d.Fed (rows.map fun row => row.tokens.take prev) prev s) (le : prev ≤ cur) :
    (d.call options shortest s rows prev cur).1 =
        rows.map (fun row => output (row.tokens.take cur)) ∧
      d.Fed (rows.map fun row => row.tokens.take cur) cur
        (d.call options shortest s rows prev cur).2 := by
  unfold call
  split_ifs
  · exact prefillChunks_eq independent wide _ fed le
  · exact forward_columns independent fed wide le

/-- The loop's invariant: at every position each row is what it would be by itself. The loop ends
at the last position, or when every row has generated its end mark. -/
lemma loop_eq (independent : d.RowIndependent output) (shortest : Nat)
    (fits : ∀ prompt ∈ prompts, prompt.length ≤ total) (left : Nat) (ends : cur + left = total)
    {s : S} (le : prev ≤ cur)
    (fed : d.Fed (prompts.map fun prompt =>
      (d.rowAt output options total cur prompt).tokens.take prev) prev s) :
    ∃ stop, cur ≤ stop ∧ stop ≤ total ∧
      d.loop options shortest left s prev cur (prompts.map (d.rowAt output options total cur)) =
        prompts.map (d.rowAt output options total stop) ∧
      (stop = total ∨ ∀ prompt ∈ prompts,
        d.eosId ∈ d.generated output options prompt (stop - prompt.length)) := by
  induction left generalizing s prev cur with
  | zero => exact ⟨cur, le_refl _, ends.le, rfl, Or.inl ends⟩
  | succ left ih =>
    have lt : cur < total := by omega
    have wide : Wide (prompts.map (d.rowAt output options total cur)) cur := by
      intro row here
      obtain ⟨prompt, member, rfl⟩ := List.mem_map.mp here
      rw [rowAt_length (fits prompt member) lt.le]
      exact lt.le
    have fed' : d.Fed ((prompts.map (d.rowAt output options total cur)).map fun row =>
        row.tokens.take prev) prev s := by
      rw [List.map_map]
      exact fed
    obtain ⟨outputs, after⟩ := call_eq options shortest independent wide fed' le
    have rows : List.zipWith (d.write options cur) (prompts.map (d.rowAt output options total cur))
          (d.call options shortest s (prompts.map (d.rowAt output options total cur)) prev cur).1 =
        prompts.map (d.rowAt output options total (cur + 1)) := by
      rw [outputs, List.map_map, List.zipWith_map, List.zipWith_self]
      exact List.map_congr_left fun _ _ => write_rowAt lt
    have next : d.Fed (prompts.map fun prompt =>
        (d.rowAt output options total (cur + 1) prompt).tokens.take cur) cur
        (d.call options shortest s (prompts.map (d.rowAt output options total cur)) prev cur).2 := by
      rw [List.map_map] at after
      have same : (prompts.map fun prompt =>
            (d.rowAt output options total (cur + 1) prompt).tokens.take cur) =
          prompts.map fun prompt => (d.rowAt output options total cur prompt).tokens.take cur :=
        List.map_congr_left fun _ _ => rowAt_take lt
      rw [same]
      exact after
    unfold loop
    simp only [rows]
    split_ifs with all
    · refine ⟨cur + 1, by omega, by omega, rfl, Or.inr fun prompt member => ?_⟩
      have here := List.all_eq_true.mp all _ (List.mem_map_of_mem member)
      exact List.contains_iff_mem.mp here
    · obtain ⟨stop, le', le'', eq, isOver⟩ := ih (by omega) (Nat.le_succ cur) next
      exact ⟨stop, by omega, le'', eq, isOver⟩

lemma takeWhile_ended {eosId : Int} {l more : List Int} (ended : eosId ∈ l) :
    (l ++ more).takeWhile (· != eosId) = l.takeWhile (· != eosId) := by
  induction l with
  | nil => cases ended
  | cons y ys ih =>
    rw [List.cons_append, List.takeWhile_cons, List.takeWhile_cons]
    cases here : y != eosId with
    | false => rfl
    | true =>
      have rest : eosId ∈ ys := by
        rcases List.mem_cons.mp ended with rfl | rest
        · rw [bne_self_eq_false] at here
          cases here
        · exact rest
      rw [if_pos rfl, if_pos rfl, ih rest]

lemma generated_take (j k : Nat) :
    (d.generated output options prompt k).take j = d.generated output options prompt (min j k) := by
  induction k with
  | zero => rw [generated, Nat.min_zero, List.take_nil, generated]
  | succ k ih =>
    rcases Nat.lt_or_ge k j with all | part
    · rw [Nat.min_eq_right all, List.take_of_length_le]
      rw [generated_length]
      exact all
    · have short : j ≤ (d.generated output options prompt k).length := by
        rw [generated_length]
        exact part
      rw [Nat.min_eq_left (by omega), generated, List.take_append_of_le_length short, ih,
        Nat.min_eq_left part]

lemma finish_holding {maxNewTokens stop : Nat} {tokens : List Int}
    (isOver : stop = total ∨ d.eosId ∈ tokens) :
    d.finish maxNewTokens prompt (holding d.eosId total stop prompt tokens) =
      (tokens.take maxNewTokens).takeWhile (· != d.eosId) ++ [d.eosId] := by
  unfold finish holding
  dsimp only
  rw [List.append_assoc, List.drop_left' (List.length_map ..)]
  congr 1
  rcases isOver with rfl | ended
  · have full : stop - max stop prompt.length = 0 := by omega
    rw [full, List.replicate_zero, List.append_nil]
  · rcases Nat.lt_or_ge maxNewTokens tokens.length with late | early
    · rw [List.take_append_of_le_length late.le]
    · rw [List.take_append, List.take_of_length_le early, takeWhile_ended ended]

lemma finish_rowAt {maxNewTokens stop : Nat} (fits : prompt.length ≤ total)
    (bound : total ≤ d.maxSeqLen)
    (room : min maxNewTokens (d.maxSeqLen - prompt.length) ≤ total - prompt.length)
    (le : stop ≤ total)
    (isOver : stop = total ∨ d.eosId ∈ d.generated output options prompt (stop - prompt.length)) :
    d.finish maxNewTokens prompt (d.rowAt output options total stop prompt) =
      d.completion output options maxNewTokens prompt := by
  refine (finish_holding isOver).trans ?_
  rw [completion, generated_take]
  congr 1
  rcases isOver with rfl | ended
  · congr 2
    omega
  · rcases Nat.lt_or_ge (stop - prompt.length) maxNewTokens with early | late
    · -- the end mark stands before the cut, in the matrix and in the completion
      have whole : stop - prompt.length ≤ min maxNewTokens (d.maxSeqLen - prompt.length) := by omega
      have longer := List.take_append_drop (stop - prompt.length)
        (d.generated output options prompt (min maxNewTokens (d.maxSeqLen - prompt.length)))
      rw [generated_take, Nat.min_eq_left whole] at longer
      rw [← longer, takeWhile_ended ended, Nat.min_eq_right early.le]
    · congr 2
      omega

lemma le_maxLen (member : prompt ∈ prompts) : prompt.length ≤ maxLen prompts := by
  unfold maxLen
  induction prompts with
  | nil => cases member
  | cons first rest ih =>
    rw [List.map_cons, List.foldr_cons]
    rcases List.mem_cons.mp member with rfl | later
    · exact Nat.le_max_left ..
    · exact (ih later).trans (Nat.le_max_right ..)

lemma minLen_le (member : prompt ∈ prompts) : minLen prompts ≤ prompt.length := by
  unfold minLen
  generalize maxLen prompts = start
  induction prompts with
  | nil => cases member
  | cons first rest ih =>
    rw [List.map_cons, List.foldr_cons]
    rcases List.mem_cons.mp member with rfl | later
    · exact Nat.min_le_left ..
    · exact (Nat.min_le_right ..).trans (ih later)

lemma maxLen_le {bound : Nat} (all : ∀ prompt ∈ prompts, prompt.length ≤ bound) :
    maxLen prompts ≤ bound := by
  unfold maxLen
  induction prompts with
  | nil => exact Nat.zero_le _
  | cons first rest ih =>
    obtain ⟨here, later⟩ := List.forall_mem_cons.mp all
    rw [List.map_cons, List.foldr_cons]
    exact Nat.max_le.mpr ⟨here, ih later⟩

/-- A prompt's completion is its own in any company. -/
theorem generate_eq (independent : d.RowIndependent output) (s : S) {maxNewTokens : Int}
    (some : prompts ≠ []) (fits : ∀ prompt ∈ prompts, prompt.length ≤ d.maxSeqLen)
    (enough : 0 ≤ maxNewTokens) :
    d.generate s prompts maxNewTokens options =
      .some (prompts.map (d.completion output options maxNewTokens.toNat)) := by
  have longest := maxLen_le fits
  obtain ⟨max, eq⟩ : ∃ max : Nat, maxNewTokens = max := ⟨_, (Int.toNat_of_nonneg enough).symm⟩
  subst eq
  unfold generate
  obtain ⟨total, eq⟩ : ∃ total : Nat, min (d.maxSeqLen : Int) (max + maxLen prompts) = total :=
    ⟨min d.maxSeqLen (max + maxLen prompts), by omega⟩
  have short : minLen prompts ≤ total := by
    cases prompts with
    | nil => exact absurd rfl some
    | cons first rest =>
      have le := minLen_le (List.mem_cons_self (a := first) (l := rest))
      have le' := le_maxLen (List.mem_cons_self (a := first) (l := rest))
      omega
  have inside : ∀ prompt ∈ prompts, prompt.length ≤ total := by
    intro prompt member
    have le := le_maxLen member
    omega
  have possible : (decide (d.maxSeqLen < maxLen prompts) ||
      decide ((total : Int) < maxLen prompts)) = false := by
    simp only [Bool.or_eq_false_iff, decide_eq_false_iff_not]
    omega
  have start : prompts.map (Row.init total) =
      prompts.map (d.rowAt output options total (minLen prompts)) :=
    List.map_congr_left fun prompt member => (rowAt_init (minLen_le member)).symm
  have fed : d.Fed (prompts.map fun prompt =>
      (d.rowAt output options total (minLen prompts) prompt).tokens.take 0) 0 s := by
    simp only [List.take_zero, List.map_const']
    exact Fed.start ..
  obtain ⟨stop, -, le, rows, isOver⟩ := loop_eq independent (minLen prompts) inside
    (total - minLen prompts) (by omega) (Nat.zero_le _) fed
  simp only [eq, possible, Int.toNat_natCast, start, rows]
  rw [if_neg Bool.false_ne_true, List.zipWith_map_right, List.zipWith_self]
  congr 1
  refine List.map_congr_left fun prompt member => ?_
  refine finish_rowAt (inside prompt member) (by omega) ?_ le ?_
  · have le' := le_maxLen member
    omega
  · rcases isOver with all | ended
    · exact Or.inl all
    · exact Or.inr (ended prompt member)

/-- A negative number of new tokens leaves no room for the longest prompt. -/
theorem generate_negative (s : S) {maxNewTokens : Int} (negative : maxNewTokens < 0) :
    d.generate s prompts maxNewTokens options = none := by
  unfold generate
  have impossible : (decide (d.maxSeqLen < maxLen prompts) ||
      decide (min (d.maxSeqLen : Int) (maxNewTokens + maxLen prompts) < maxLen prompts)) = true := by
    simp only [Bool.or_eq_true, decide_eq_true_eq]
    omega
  simp only [impossible, if_true]

end Decoder

end PocketMoE.Serving
