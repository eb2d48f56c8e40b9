import Mathlib.Data.List.Zip
import PocketMoE.Generation.Model

/-!
# What the rounds of generation keep

`Pure` says that the model's next token is a function of what each row has been fed, and that a call
at a position overwrites what was fed from there on. `Holds rows s` is whatever the state `s` means
by having been fed `rows`.

* `Session.At`: the model has been fed the rows up to a position, maybe more behind it; the calls so
  far tile the positions (`Tiled`), and every capture was made of exactly its part of the prompt.
* `Pure.forwardRound`, `Pure.verify`: what the calls of a round return and leave.
* `Round`: the loop's invariant. Every row is what it would be by itself (`Decoder.rowAt`), at
  whatever positions the drafts have let the loop arrive.
* `Pure.generate_eq`: every prompt gets its own completion.
-/

namespace PocketMoE.Generation
open PocketMoE.Serving PocketMoE.Runtime PocketMoE.Lib

variable {S L D K : Type}

/-- What rows have been fed after a call at a position. -/
def refed (rows chunk : List (List Int)) (pos : Nat) : List (List Int) :=
  List.zipWith (fun row c => row.take pos ++ c) rows chunk

/-- What a model computes is a function of what its rows have been fed. -/
structure Pure (d : Speculator S L D) (output : List Int → L)
    (Holds : List (List Int) → S → Prop) : Prop where
  start : ∀ (count : Nat) (s : S), Holds (List.replicate count []) s
  forward : ∀ {rows chunk : List (List Int)} {s : S} {pos : Nat} (width : Nat), Holds rows s →
    (∀ row ∈ rows, pos ≤ row.length) → chunk.length = rows.length →
    (∀ c ∈ chunk, c.length = width) →
    (d.forward s chunk pos).1 = (refed rows chunk pos).map output ∧
      Holds (refed rows chunk pos) (d.forward s chunk pos).2
  forwardBoth : ∀ {rows chunk : List (List Int)} {s : S} {pos : Nat}, Holds rows s →
    (∀ row ∈ rows, pos ≤ row.length) → chunk.length = rows.length →
    (∀ c ∈ chunk, c.length = 2) →
    (d.forwardBoth s chunk pos).1 =
        (refed rows chunk pos).map (fun row => (output row.dropLast, output row)) ∧
      Holds (refed rows chunk pos) (d.forwardBoth s chunk pos).2

/-- Calls that feed the columns from `start` on, one after the other. With speculation there are
calls that verify drafts, and keep one column or two. -/
inductive Tiled (spec : Bool) (start : Nat) : List Call → Nat → Prop where
  | nil : Tiled spec start [] start
  | forward {calls : List Call} {pos stop : Nat} :
    Tiled spec start calls pos → pos ≤ stop → Tiled spec start (calls ++ [.forward pos stop]) stop
  | one {calls : List Call} {pos : Nat} :
    spec = true → Tiled spec start calls pos → Tiled spec start (calls ++ [.verify pos]) (pos + 1)
  | two {calls : List Call} {pos : Nat} :
    spec = true → Tiled spec start calls pos → Tiled spec start (calls ++ [.verify pos]) (pos + 2)

/-- A capture is about exactly its part of the prompt. -/
def Captures (Holds : List (List Int) → S → Prop) (prompts : List (List Nat))
    (captured : List (Nat × S)) : Prop :=
  ∀ pos s, (pos, s) ∈ captured → ∃ prompt, prompts = [prompt] ∧ pos ≤ prompt.length ∧
    Holds [(prompt.take pos).map Int.ofNat] s

/-- The model has been fed the rows up to a position. What it was fed behind it does not matter. -/
def Ready (Holds : List (List Int) → S → Prop) (rows : List Row) (pos : Nat) (s : S) : Prop :=
  ∃ fed, Holds fed s ∧ fed.map (List.take pos) = rows.map (fun row => row.tokens.take pos) ∧
    ∀ row ∈ fed, pos ≤ row.length

/-- A session between two calls. -/
structure Session.At (Holds : List (List Int) → S → Prop) (job : Job) (start : Nat)
    (rows : List Row) (w : Session S) (pos : Nat) : Prop where
  ready : Ready Holds rows pos w.state
  tiled : Tiled job.settings.mtpSpec start w.calls pos
  captures : Captures Holds job.prompts w.captured

/-- A session that has been fed the rows up to a position and nothing else. -/
structure Session.Exactly (Holds : List (List Int) → S → Prop) (job : Job) (start : Nat)
    (rows : List Row) (w : Session S) (pos : Nat) : Prop where
  holds : Holds (rows.map fun row => row.tokens.take pos) w.state
  tiled : Tiled job.settings.mtpSpec start w.calls pos
  captures : Captures Holds job.prompts w.captured

/-- The rows begin with their prompts. -/
def Prompted (prompts : List (List Nat)) (rows : List Row) : Prop :=
  ∀ prompt, prompts = [prompt] → ∀ pos ≤ prompt.length,
    (rows.map fun row => row.tokens.take pos) = [(prompt.take pos).map Int.ofNat]

variable {d : Speculator S L D} {output : List Int → L} {Holds : List (List Int) → S → Prop}
  {job : Job} {rows : List Row} {w : Session S} {start prev cur pos : Nat}

lemma Ready.length {s : S} (ready : Ready Holds rows pos s) :
    ∃ fed, Holds fed s ∧ fed.length = rows.length ∧
      fed.map (List.take pos) = rows.map (fun row => row.tokens.take pos) ∧
      ∀ row ∈ fed, pos ≤ row.length := by
  obtain ⟨fed, holds, same, long⟩ := ready
  refine ⟨fed, holds, ?_, same, long⟩
  have lengths := congrArg List.length same
  rwa [List.length_map, List.length_map] at lengths

lemma Session.Exactly.at (exactly : w.Exactly Holds job start rows pos)
    (wide : Decoder.Wide rows pos) : w.At Holds job start rows pos where
  ready := by
    refine ⟨_, exactly.holds, ?_, ?_⟩
    · rw [List.map_map]
      refine List.map_congr_left fun row _ => ?_
      rw [Function.comp_apply, List.take_take, Nat.min_self]
    · intro fed member
      obtain ⟨row, here, rfl⟩ := List.mem_map.mp member
      rw [List.length_take_of_le (wide row here)]
  tiled := exactly.tiled
  captures := exactly.captures

lemma refed_columns {fed : List (List Int)} {stop : Nat} (le : pos ≤ stop)
    (same : fed.map (List.take pos) = rows.map (fun row => row.tokens.take pos)) :
    refed fed (columns rows pos stop) pos = rows.map fun row => row.tokens.take stop := by
  rw [← Decoder.zipWith_columns rows le, ← same, List.zipWith_map_left]
  rfl

lemma Pure.forward_columns (isPure : Pure d output Holds) {s : S} {stop : Nat}
    (ready : Ready Holds rows pos s) (wide : Decoder.Wide rows stop) (le : pos ≤ stop) :
    (d.forward s (columns rows pos stop) pos).1 =
        rows.map (fun row => output (row.tokens.take stop)) ∧
      Holds (rows.map fun row => row.tokens.take stop)
        (d.forward s (columns rows pos stop) pos).2 := by
  obtain ⟨fed, holds, count, same, long⟩ := ready.length
  have width := Decoder.columns_width wide le
  have counts : (columns rows pos stop).length = fed.length := by
    rw [columns, List.length_map, count]
  obtain ⟨outputs, after⟩ := isPure.forward _ holds long counts width
  rw [refed_columns le same] at outputs after
  rw [List.map_map] at outputs
  exact ⟨outputs, after⟩

lemma Pure.call (isPure : Pure d output Holds) {stop : Nat}
    (at' : w.At Holds job start rows pos) (wide : Decoder.Wide rows stop) (le : pos ≤ stop) :
    (d.call w rows pos stop).1 = rows.map (fun row => output (row.tokens.take stop)) ∧
      (d.call w rows pos stop).2.Exactly Holds job start rows stop := by
  obtain ⟨outputs, holds⟩ := isPure.forward_columns at'.ready wide le
  exact ⟨outputs, holds, at'.tiled.forward le, at'.captures⟩

lemma Session.Exactly.maybeCapture (prompted : Prompted job.prompts rows)
    (exactly : w.Exactly Holds job start rows pos) :
    (w.maybeCapture job pos).Exactly Holds job start rows pos := by
  unfold Session.maybeCapture
  split_ifs with pending refused
  · exact exactly
  · obtain ⟨single, inside⟩ := not_or.mp refused
    obtain ⟨prompt, only⟩ := List.length_eq_one_iff.mp (not_not.mp single)
    rw [only, List.headD_cons, Nat.not_lt] at inside
    refine ⟨exactly.holds, exactly.tiled, fun p s member => ?_⟩
    rcases List.mem_append.mp member with before | now
    · exact exactly.captures p s before
    · obtain ⟨rfl, rfl⟩ := Prod.mk.inj (List.mem_singleton.mp now)
      exact ⟨prompt, only, inside, prompted prompt only p inside ▸ exactly.holds⟩
  · exact exactly

/-! ## A round's calls -/

lemma Pure.prefillChunks (isPure : Pure d output Holds) (prompted : Prompted job.prompts rows)
    {chunk stop : Nat} (wide : Decoder.Wide rows stop) (fuel : Nat)
    (at' : w.At Holds job start rows pos) (le : pos ≤ stop) :
    (d.prefillChunks job rows chunk stop fuel w pos).1 =
        rows.map (fun row => output (row.tokens.take stop)) ∧
      (d.prefillChunks job rows chunk stop fuel w pos).2.Exactly Holds job start rows stop := by
  induction fuel generalizing w pos with
  | zero => exact isPure.call at' wide le
  | succ fuel ih =>
    unfold Speculator.prefillChunks
    split_ifs with more
    · have narrow : Decoder.Wide rows (pos + chunk) := fun row here => more.le.trans (wide row here)
      have next := (isPure.call at' narrow (Nat.le_add_right ..)).2.maybeCapture prompted
      exact ih (next.at narrow) more.le
    · exact isPure.call at' wide le

lemma Pure.prefillCaptures (isPure : Pure d output Holds) (prompted : Prompted job.prompts rows)
    {stop : Nat} (wide : Decoder.Wide rows stop) {points : List Nat} (sorted : points.Pairwise (· ≤ ·))
    (inside : ∀ p ∈ points, pos ≤ p ∧ p ≤ stop) (at' : w.At Holds job start rows pos)
    (le : pos ≤ stop) :
    (d.prefillCaptures job rows stop points w pos).1 =
        rows.map (fun row => output (row.tokens.take stop)) ∧
      (d.prefillCaptures job rows stop points w pos).2.Exactly Holds job start rows stop := by
  induction points generalizing w pos with
  | nil => exact isPure.call at' wide le
  | cons p rest ih =>
    obtain ⟨⟨above, below⟩, -⟩ := List.forall_mem_cons.mp inside
    obtain ⟨least, sorted⟩ := List.pairwise_cons.mp sorted
    have narrow : Decoder.Wide rows p := fun row here => below.trans (wide row here)
    have next := (isPure.call at' narrow above).2.maybeCapture prompted
    have inside' : ∀ q ∈ rest, p ≤ q ∧ q ≤ stop := fun q member =>
      ⟨least q member, (inside q (List.mem_cons_of_mem p member)).2⟩
    exact ih sorted inside' (next.at narrow) below

lemma Pure.prefill (isPure : Pure d output Holds) (prompted : Prompted job.prompts rows)
    (wide : Decoder.Wide rows cur) (at' : w.At Holds job start rows prev) (le : prev ≤ cur) :
    (d.prefill job w rows prev cur).1 = rows.map (fun row => output (row.tokens.take cur)) ∧
      (d.prefill job w rows prev cur).2.Exactly Holds job start rows cur := by
  unfold Speculator.prefill
  dsimp only
  split_ifs
  · exact isPure.prefillChunks prompted wide cur at' le
  · refine isPure.prefillCaptures prompted wide (Finset.pairwise_sort _ _) ?_ at' le
    intro p member
    obtain ⟨-, above, below⟩ := Finset.mem_filter.mp ((Finset.mem_sort _).mp member)
    exact ⟨above.le, below.le⟩
  · exact isPure.call at' wide le

lemma Pure.forwardRound (isPure : Pure d output Holds) (prompted : Prompted job.prompts rows)
    (wide : Decoder.Wide rows cur) (at' : w.At Holds job start rows prev) (le : prev ≤ cur) :
    (d.forwardRound job w rows prev cur).1 = rows.map (fun row => output (row.tokens.take cur)) ∧
      (d.forwardRound job w rows prev cur).2.Exactly Holds job start rows cur := by
  unfold Speculator.forwardRound
  split_ifs
  · exact isPure.call at' wide le
  · exact isPure.prefill prompted wide at' le
  · exact isPure.call at' wide le

/-- The rows up to a position with one more token each. -/
def extended (rows : List Row) (cur : Nat) (drafts : List Int) : List (List Int) :=
  List.zipWith (fun row token => row.tokens.take cur ++ [token]) rows drafts

lemma extended_length {drafts : List Int} (count : drafts.length = rows.length) :
    (extended rows cur drafts).length = rows.length := by
  rw [extended, List.length_zipWith, count, Nat.min_self]

lemma extended_take {drafts : List Int} (count : drafts.length = rows.length)
    (wide : Decoder.Wide rows cur) :
    (extended rows cur drafts).map (List.take cur) = rows.map (fun row => row.tokens.take cur) ∧
      ∀ fed ∈ extended rows cur drafts, cur ≤ fed.length := by
  induction rows generalizing drafts with
  | nil => exact ⟨rfl, nofun⟩
  | cons row rows ih =>
    obtain ⟨draft, drafts, rfl⟩ := List.exists_cons_of_length_eq_add_one count
    obtain ⟨here, wide⟩ := List.forall_mem_cons.mp wide
    obtain ⟨same, long⟩ := ih (Nat.succ_injective count) wide
    have front : (row.tokens.take cur).length = cur := List.length_take_of_le here
    refine ⟨?_, List.forall_mem_cons.mpr ⟨?_, long⟩⟩
    · exact congrArg₂ List.cons (List.take_left' front) same
    · rw [List.length_append, front]
      exact Nat.le_add_right ..

lemma refed_drafts {fed : List (List Int)} {drafts : List Int} (le : prev ≤ cur)
    (same : fed.map (List.take prev) = rows.map (fun row => row.tokens.take prev)) :
    refed fed (List.zipWith (· ++ [·]) (columns rows prev cur) drafts) prev =
      extended rows cur drafts := by
  have joined := refed_columns le same
  calc refed fed (List.zipWith (· ++ [·]) (columns rows prev cur) drafts) prev
      = List.zipWith3 (fun row c t => row.take prev ++ (c ++ [t])) fed (columns rows prev cur)
          drafts := List.zipWith_zipWith_right ..
    _ = List.zipWith3 (fun row c t => (row.take prev ++ c) ++ [t]) fed (columns rows prev cur)
          drafts := by simp only [List.append_assoc]
    _ = List.zipWith (· ++ [·]) (refed fed (columns rows prev cur) prev) drafts := by
          rw [refed, List.zipWith_zipWith_left]
    _ = extended rows cur drafts := by rw [joined, List.zipWith_map_left]; rfl

/-- A session after drafts were verified: what was fed is the rows and the drafts. -/
structure Session.Verified (Holds : List (List Int) → S → Prop) (rows : List Row)
    (drafts : List Int) (cur : Nat) (w w' : Session S) : Prop where
  holds : Holds (extended rows cur drafts) w'.state
  calls : w'.calls = w.calls ++ [.verify (cur - 1)]
  captured : w'.captured = w.captured

/-- What the model answers to drafts: after the rows' own tokens, and after the draft. -/
def answers (output : List Int → L) (rows : List Row) (cur : Nat) (drafts : List Int) :
    List (L × L) :=
  List.zipWith (fun row token =>
    (output (row.tokens.take cur), output (row.tokens.take cur ++ [token]))) rows drafts

lemma answers_zip (rows : List Row) (cur : Nat) (drafts : List Int) :
    (rows.map fun row => output (row.tokens.take cur)).zip
        ((extended rows cur drafts).map output) = answers output rows cur drafts := by
  induction rows generalizing drafts with
  | nil => rfl
  | cons row rows ih =>
    cases drafts with
    | nil => rfl
    | cons draft drafts => exact congrArg _ (ih drafts)

lemma answers_both (rows : List Row) (cur : Nat) (drafts : List Int) :
    (extended rows cur drafts).map (fun row => (output row.dropLast, output row)) =
      answers output rows cur drafts := by
  rw [extended, List.map_zipWith]
  simp only [List.dropLast_concat]
  rfl

lemma Pure.verify (isPure : Pure d output Holds) {drafts : List Int}
    (count : drafts.length = rows.length) (wide : Decoder.Wide rows cur)
    (at' : w.At Holds job start rows prev) (next : prev + 1 = cur) :
    (d.verify job w rows prev cur drafts).1 = answers output rows cur drafts ∧
      w.Verified Holds rows drafts cur (d.verify job w rows prev cur drafts).2 := by
  have le : prev ≤ cur := by omega
  have before : prev = cur - 1 := by omega
  unfold Speculator.verify
  dsimp only
  split_ifs
  · obtain ⟨first, holds⟩ := isPure.forward_columns at'.ready wide le
    have long : ∀ row ∈ rows.map (fun row => row.tokens.take cur), cur ≤ row.length := by
      intro fed member
      obtain ⟨row, here, rfl⟩ := List.mem_map.mp member
      rw [List.length_take_of_le (wide row here)]
    have single : ∀ c ∈ drafts.map ([·]), c.length = 1 := by
      intro c member
      obtain ⟨token, -, rfl⟩ := List.mem_map.mp member
      rfl
    obtain ⟨second, after⟩ := isPure.forward 1 holds long (by simpa using count) single
    have fed : refed (rows.map fun row => row.tokens.take cur) (drafts.map ([·])) cur =
        extended rows cur drafts := by
      rw [refed, List.zipWith_map]
      simp only [List.take_take, Nat.min_self]
      rfl
    rw [fed] at second after
    refine ⟨?_, after, before ▸ rfl, rfl⟩
    rw [first, second, answers_zip]
  · obtain ⟨fed, holds, counts, same, long⟩ := at'.ready.length
    have width := Decoder.columns_width wide le
    have many : (List.zipWith (· ++ [·]) (columns rows prev cur) drafts).length = fed.length := by
      rw [List.length_zipWith, columns, List.length_map, count, counts, Nat.min_self]
    have double : ∀ c ∈ List.zipWith (· ++ [·]) (columns rows prev cur) drafts, c.length = 2 := by
      intro c member
      obtain ⟨i, inside, rfl⟩ := List.getElem_of_mem member
      rw [List.getElem_zipWith, List.length_append, width _ (List.getElem_mem ..),
        List.length_singleton]
      omega
    obtain ⟨outputs, after⟩ := isPure.forwardBoth holds long many double
    rw [refed_drafts le same] at outputs after
    rw [answers_both] at outputs
    exact ⟨outputs, after, before ▸ rfl, rfl⟩

/-! ## A round -/

/-- No prompt is longer than the matrix. -/
def Job.Fits (job : Job) : Prop :=
  ∀ prompt ∈ job.prompts, prompt.length ≤ job.totalLen

/-- The rows of the matrix at a position. -/
def rowsAt (d : Speculator S L D) (output : List Int → L) (job : Job) (cur : Nat) : List Row :=
  job.prompts.map (d.rowAt output job.options job.totalLen cur)

/-- The loop's invariant: at every position each row is what it would be by itself. -/
structure Round (d : Speculator S L D) (output : List Int → L)
    (Holds : List (List Int) → S → Prop) (job : Job) (start : Nat) (st : LoopState S D) : Prop where
  rows : st.rows = rowsAt d output job st.curPos
  session : st.session.At Holds job start st.rows st.prevPos
  first : job.shortest ≤ st.curPos
  le : st.curPos ≤ job.totalLen
  position : st.prevPos + 1 = st.curPos ∧ job.shortest ≤ st.prevPos ∨
    st.prevPos ≤ st.curPos ∧ st.pendingDrafts = none ∧ st.session.calls = []
  drafts : ∀ drafts, st.pendingDrafts = some drafts → drafts.length = job.prompts.length

lemma rowsAt_wide (fits : job.Fits) (le : cur ≤ job.totalLen) :
    Decoder.Wide (rowsAt d output job cur) cur := by
  intro row here
  obtain ⟨prompt, member, rfl⟩ := List.mem_map.mp here
  rw [Decoder.rowAt_length (fits prompt member) le]
  exact le

lemma rowsAt_prompted : Prompted job.prompts (rowsAt d output job cur) := by
  intro prompt only pos inside
  have front : pos ≤ (prompt.map Int.ofNat).length := by simpa using inside
  rw [rowsAt, only, List.map_singleton, List.map_singleton, Decoder.rowAt, List.append_assoc,
    List.take_append_of_le_length front, List.map_take]

lemma rowsAt_take (fits : job.Fits) (lt : cur < job.totalLen) (le : pos ≤ cur) :
    (rowsAt d output job (cur + 1)).map (fun row => row.tokens.take pos) =
      (rowsAt d output job cur).map fun row => row.tokens.take pos := by
  rw [rowsAt, rowsAt, List.map_map, List.map_map]
  refine List.map_congr_left fun prompt member => ?_
  have cut : (d.rowAt output job.options job.totalLen (cur + 1) prompt).tokens.take cur =
      (d.rowAt output job.options job.totalLen cur prompt).tokens.take cur :=
    Decoder.rowAt_take lt
  have same := congrArg (List.take pos) cut
  rwa [List.take_take, List.take_take, Nat.min_eq_left le] at same

lemma rowsAt_write (fits : job.Fits) (lt : cur < job.totalLen) :
    d.writeColumn job cur (rowsAt d output job cur)
        ((rowsAt d output job cur).map fun row => output (row.tokens.take cur)) =
      rowsAt d output job (cur + 1) := by
  rw [Speculator.writeColumn, rowsAt, List.map_map, List.zipWith_map, List.zipWith_self]
  exact List.map_congr_left fun _ _ => Decoder.write_rowAt lt

lemma extended_accepted (fits : job.Fits) (lt : cur < job.totalLen) :
    extended (rowsAt d output job cur) cur (column (rowsAt d output job (cur + 1)) cur) =
      (rowsAt d output job (cur + 1)).map fun row => row.tokens.take (cur + 1) := by
  rw [extended, column, rowsAt, rowsAt, List.map_map, List.map_map, List.zipWith_map,
    List.zipWith_self]
  refine List.map_congr_left fun prompt member => ?_
  have long : (d.rowAt output job.options job.totalLen (cur + 1) prompt).tokens.length =
      job.totalLen := Decoder.rowAt_length (fits prompt member) lt
  have inside : cur < (d.rowAt output job.options job.totalLen (cur + 1) prompt).tokens.length := by
    rw [long]
    exact lt
  rw [← Decoder.rowAt_take lt, Function.comp_apply, Function.comp_apply,
    List.getD_eq_getElem _ _ inside, List.take_append_getElem]

lemma rowsAt_accepted (fits : job.Fits) (more : cur + 1 < job.totalLen) {drafts : List Int}
    (same : column (rowsAt d output job (cur + 1)) cur = drafts) :
    d.writeColumn job (cur + 1) (rowsAt d output job (cur + 1))
        ((extended (rowsAt d output job cur) cur drafts).map output) =
      rowsAt d output job (cur + 2) := by
  rw [← same, extended_accepted fits (by omega), List.map_map]
  exact rowsAt_write fits more

variable {st : LoopState S D}

lemma rowsAt_length : (rowsAt d output job cur).length = job.prompts.length :=
  List.length_map ..

lemma column_length (rows : List Row) (pos : Nat) : (column rows pos).length = rows.length :=
  List.length_map ..

lemma verified_eq_some {drafts : List Int} (verified : verified job st = some drafts) :
    job.settings.mtpSpec = true ∧ st.curPos + 1 < job.totalLen ∧
      st.pendingDrafts = some drafts := by
  unfold Generation.verified at verified
  split_ifs at verified with tests
  simp only [Bool.and_eq_true, decide_eq_true_eq] at tests
  obtain ⟨⟨⟨⟨⟨⟨enabled, -⟩, more⟩, -⟩, -⟩, -⟩, -⟩ := tests
  exact ⟨(Bool.and_eq_true_iff.mp enabled).1, more, verified⟩

lemma draftRound_length {outputs : List L} {drafts : List Int}
    (old : ∀ drafts, st.pendingDrafts = .some drafts → drafts.length = rows.length)
    (some : (d.draftRound job st outputs rows).1 = .some drafts) : drafts.length = rows.length := by
  unfold Speculator.draftRound at some
  split_ifs at some
  · rw [d.draft_length some, column_length]
  · exact old drafts some

lemma Round.forward (isPure : Pure d output Holds) (fits : job.Fits)
    (round : Round d output Holds job start st) (lt : st.curPos < job.totalLen) :
    d.writeColumn job st.curPos st.rows
        (d.forwardRound job st.session st.rows st.prevPos st.curPos).1 =
      rowsAt d output job (st.curPos + 1) ∧
    (d.forwardRound job st.session st.rows st.prevPos st.curPos).2.Exactly Holds job start
      (rowsAt d output job (st.curPos + 1)) st.curPos := by
  have le : st.prevPos ≤ st.curPos := by
    rcases round.position with ⟨next, -⟩ | ⟨le, -⟩
    · omega
    · exact le
  have at' := round.session
  rw [round.rows] at at' ⊢
  obtain ⟨outputs, exactly⟩ := isPure.forwardRound rowsAt_prompted (rowsAt_wide fits lt.le) at' le
  refine ⟨?_, ?_, exactly.tiled, exactly.captures⟩
  · rw [outputs, rowsAt_write fits lt]
  · rw [rowsAt_take fits lt le_rfl]
    exact exactly.holds

lemma Round.plain (isPure : Pure d output Holds) (fits : job.Fits)
    (round : Round d output Holds job start st) (lt : st.curPos < job.totalLen) :
    Round d output Holds job start (d.plainRound job st) ∧
      (d.plainRound job st).curPos = st.curPos + 1 := by
  obtain ⟨written, exactly⟩ := round.forward isPure fits lt
  have wide : Decoder.Wide (rowsAt d output job (st.curPos + 1)) st.curPos := fun row here =>
    (Nat.le_succ _).trans (rowsAt_wide fits lt row here)
  have counts : ∀ drafts, st.pendingDrafts = some drafts →
      drafts.length = (rowsAt d output job (st.curPos + 1)).length := by
    intro drafts some
    rw [rowsAt_length]
    exact round.drafts drafts some
  have first : job.shortest ≤ st.curPos + 1 := round.first.trans (Nat.le_succ _)
  unfold Speculator.plainRound
  dsimp only
  rw [written]
  split_ifs
  · refine ⟨⟨rfl, ?_, first, lt, Or.inl ⟨rfl, round.first⟩, round.drafts⟩, rfl⟩
    exact (exactly.maybeCapture rowsAt_prompted).at wide
  · refine ⟨⟨rfl, exactly.at wide, first, lt, Or.inl ⟨rfl, round.first⟩, fun drafts some => ?_⟩, rfl⟩
    rw [draftRound_length counts some, rowsAt_length]

lemma Round.verify (isPure : Pure d output Holds) (fits : job.Fits)
    (round : Round d output Holds job start st) (lt : st.curPos < job.totalLen)
    (next : st.prevPos + 1 = st.curPos) {drafts : List Int}
    (count : drafts.length = job.prompts.length) :
    d.writeColumn job st.curPos st.rows
        ((d.verify job st.session st.rows st.prevPos st.curPos drafts).1.map Prod.fst) =
      rowsAt d output job (st.curPos + 1) ∧
    (d.verify job st.session st.rows st.prevPos st.curPos drafts).1.map Prod.snd =
      (extended (rowsAt d output job st.curPos) st.curPos drafts).map output ∧
    st.session.Verified Holds (rowsAt d output job st.curPos) drafts st.curPos
      (d.verify job st.session st.rows st.prevPos st.curPos drafts).2 := by
  have at' := round.session
  rw [round.rows] at at' ⊢
  have count' : drafts.length = (rowsAt d output job st.curPos).length := by
    rw [rowsAt_length, count]
  obtain ⟨outputs, after⟩ := isPure.verify count' (rowsAt_wide fits lt.le) at' next
  have lengths : ((rowsAt d output job st.curPos).map fun row =>
        output (row.tokens.take st.curPos)).length =
      ((extended (rowsAt d output job st.curPos) st.curPos drafts).map output).length := by
    rw [List.length_map, List.length_map, extended_length count']
  rw [outputs, ← answers_zip, List.map_fst_zip lengths.le, List.map_snd_zip lengths.ge,
    rowsAt_write fits lt]
  exact ⟨rfl, rfl, after⟩

lemma Round.spec (isPure : Pure d output Holds) (fits : job.Fits)
    (round : Round d output Holds job start st) (enabled : job.settings.mtpSpec = true)
    (more : st.curPos + 1 < job.totalLen) (next : st.prevPos + 1 = st.curPos) {drafts : List Int}
    (count : drafts.length = job.prompts.length) :
    Round d output Holds job start (d.specRound job st drafts) ∧
      ((d.specRound job st drafts).curPos = st.curPos + 1 ∨
        (d.specRound job st drafts).curPos = st.curPos + 2) := by
  have lt : st.curPos < job.totalLen := by omega
  obtain ⟨written, second, after⟩ := round.verify isPure fits lt next count
  have tiled := round.session.tiled
  have first := round.first
  have before : st.prevPos = st.curPos - 1 := by omega
  have count' : drafts.length = (rowsAt d output job st.curPos).length := by
    rw [rowsAt_length, count]
  have captures : Captures Holds job.prompts
      (d.verify job st.session st.rows st.prevPos st.curPos drafts).2.captured := by
    rw [after.captured]
    exact round.session.captures
  unfold Speculator.specRound
  dsimp only
  rw [written, second]
  split_ifs with accepted
  · -- the drafts are the tokens that were written, so the model has been fed these
    rw [Bool.and_eq_true, beq_iff_eq] at accepted
    obtain ⟨same, -⟩ := accepted
    have fed : extended (rowsAt d output job st.curPos) st.curPos
        (column (rowsAt d output job (st.curPos + 1)) st.curPos) = _ := extended_accepted fits lt
    rw [same] at fed
    rw [rowsAt_accepted fits more same]
    have holds : Holds ((rowsAt d output job (st.curPos + 2)).map fun row =>
        row.tokens.take (st.curPos + 1))
        (d.verify job st.session st.rows st.prevPos st.curPos drafts).2.state := by
      rw [rowsAt_take fits more le_rfl, ← fed]
      exact after.holds
    have wide : Decoder.Wide (rowsAt d output job (st.curPos + 2)) (st.curPos + 1) :=
      fun row here => (Nat.le_succ _).trans (rowsAt_wide fits more row here)
    have two : Tiled job.settings.mtpSpec start (d.verify job st.session st.rows st.prevPos st.curPos drafts).2.calls
        (st.curPos + 1) := by
      rw [after.calls, ← before, ← next]
      exact tiled.two enabled
    have exactly : Session.Exactly Holds job start (rowsAt d output job (st.curPos + 2))
        (d.verify job st.session st.rows st.prevPos st.curPos drafts).2 (st.curPos + 1) :=
      ⟨holds, two, captures⟩
    refine ⟨⟨rfl, exactly.at wide, first.trans (Nat.le_add_right ..), more,
      Or.inl ⟨rfl, first.trans (Nat.le_succ _)⟩, fun drafts some => ?_⟩, Or.inr rfl⟩
    rw [d.draft_length some, column_length, rowsAt_length]
  · -- the draft that was fed stands behind the position from which the next call writes
    have ready : Ready Holds (rowsAt d output job (st.curPos + 1)) st.curPos
        (d.verify job st.session st.rows st.prevPos st.curPos drafts).2.state := by
      obtain ⟨same, long⟩ := extended_take count' (rowsAt_wide fits lt.le)
      refine ⟨_, after.holds, ?_, long⟩
      rw [same, rowsAt_take fits lt le_rfl]
    have one : Tiled job.settings.mtpSpec start (d.verify job st.session st.rows st.prevPos st.curPos drafts).2.calls
        st.curPos := by
      rw [after.calls, ← before, ← next]
      exact tiled.one enabled
    refine ⟨⟨rfl, ⟨ready, one, captures⟩, first.trans (Nat.le_succ _), lt, Or.inl ⟨rfl, first⟩,
      fun drafts some => ?_⟩, Or.inl rfl⟩
    rw [d.draft_length some, column_length, rowsAt_length]

lemma Round.step (isPure : Pure d output Holds) (fits : job.Fits)
    (round : Round d output Holds job start st) (lt : st.curPos < job.totalLen) :
    ∃ st', d.step job st = some st' ∧ Round d output Holds job start st' ∧
      st.curPos < st'.curPos := by
  unfold Speculator.step
  cases tested : verified job st with
  | none =>
    obtain ⟨next, position⟩ := round.plain isPure fits lt
    exact ⟨_, rfl, next, by omega⟩
  | some drafts =>
    obtain ⟨enabled, more, pending⟩ := verified_eq_some tested
    have next : st.prevPos + 1 = st.curPos := by
      rcases round.position with ⟨next, -⟩ | ⟨-, none, -⟩
      · exact next
      · rw [pending] at none
        cases none
    obtain ⟨round', position⟩ := round.spec isPure fits enabled more next
      (round.drafts drafts pending)
    refine ⟨d.specRound job st drafts, if_pos next, round', ?_⟩
    rcases position with one | two
    · omega
    · omega

lemma Round.loop (isPure : Pure d output Holds) (fits : job.Fits) (fuel : Nat)
    (round : Round d output Holds job start st) :
    ∃ st', d.loop job fuel st = some st' ∧ Round d output Holds job start st' ∧
      st.curPos ≤ st'.curPos ∧
      (job.totalLen ≤ st.curPos + fuel →
        st'.curPos = job.totalLen ∨ st'.rows.all Row.finished = true) := by
  induction fuel generalizing st with
  | zero => exact ⟨st, rfl, round, le_rfl, fun all => Or.inl (le_antisymm round.le all)⟩
  | succ fuel ih =>
    unfold Speculator.loop
    split_ifs with more
    · obtain ⟨st', stepped, next, later⟩ := round.step isPure fits more
      rw [stepped]
      dsimp only
      split_ifs with all
      · exact ⟨st', rfl, next, later.le, fun _ => Or.inr all⟩
      · obtain ⟨last, looped, round', le, ends⟩ := ih next
        exact ⟨last, looped, round', later.le.trans le, fun enough => ends (by omega)⟩
    · exact ⟨st, rfl, round, le_rfl, fun _ => Or.inl (le_antisymm round.le (not_lt.mp more))⟩

/-! ## Before the loop -/

/-- What a hint restores is the state of its part of the prompt. -/
def RestoresExactly [DecidableEq K] (Holds : List (List Int) → S → Prop)
    (snap : Option (Snapshots K S)) (hint : Option (SnapshotHint K)) (prompts : List (List Nat))
    (s : S) : Prop :=
  ∀ prompt snapshots hinted key entry, prompts = [prompt] → snap = some snapshots →
    hint = some hinted → hinted.matchKey = some key → snapshots.entries.get key = some entry →
    entry.tokenIds = prompt.take entry.pos →
    Holds [(prompt.take entry.pos).map Int.ofNat] (snapshots.applyBuffers s entry)

section
variable [DecidableEq K] {snap : Option (Snapshots K S)} {hint : Option (SnapshotHint K)}
  {prompts : List (List Nat)} {s : S}

lemma settings_exact (exact : RestoresExactly Holds snap hint prompts s) :
    (prefixSnapshotSettings snap hint prompts s).1 = 0 ∨ ∃ prompt, prompts = [prompt] ∧
      (prefixSnapshotSettings snap hint prompts s).1 < prompt.length ∧
      Holds [(prompt.take (prefixSnapshotSettings snap hint prompts s).1).map Int.ofNat]
        (prefixSnapshotSettings snap hint prompts s).2.2 := by
  unfold prefixSnapshotSettings
  split
  next snap snapshots prompt =>
    have position : (snapshots.cache.prefixSnapshotSettings snapshots.entries hint prompt).1 =
        (PrefixSnapshotCache.restore snapshots.entries hint prompt).1 := by
      unfold PrefixSnapshotCache.prefixSnapshotSettings
      dsimp only
      split_ifs <;> rfl
    dsimp only
    rw [position]
    by_cases zero : (PrefixSnapshotCache.restore snapshots.entries hint prompt).1 = 0
    · exact Or.inl zero
    · obtain ⟨hinted, key, entry, isHint, keyed, found, pos, proper, tokens⟩ :=
        PrefixSnapshotCache.restore_pos zero
      refine Or.inr ⟨prompt, rfl, pos ▸ proper, ?_⟩
      have applied : (snapshots.restore hint prompt s).2 = snapshots.applyBuffers s entry := by
        unfold Snapshots.restore
        rw [isHint, Option.bind_some, keyed, Option.bind_some, found]
        rw [isHint] at zero
        exact if_neg zero
      rw [applied, pos]
      exact exact prompt snapshots hinted key entry rfl rfl isHint keyed found tokens
  next => exact Or.inl rfl

lemma begin_round (isPure : Pure d output Holds) (settings : Settings) (options : GenerationOptions)
    (drafter : D) (maxNewTokens : Nat) (some : prompts ≠ [])
    (fits : ∀ prompt ∈ prompts, prompt.length ≤ d.maxSeqLen)
    (exact : RestoresExactly Holds snap hint prompts s) :
    ∃ job st, d.begin settings options snap hint s drafter prompts maxNewTokens = .some (job, st) ∧
      job.settings = settings ∧ job.options = options ∧ job.prompts = prompts ∧
      job.totalLen = min d.maxSeqLen (maxNewTokens + maxLen prompts) ∧ job.Fits ∧
      st.curPos = minLen prompts ∧
      Round d output Holds job (prefixSnapshotSettings snap hint prompts s).1 st := by
  have longest := Decoder.maxLen_le fits
  have total : (min (d.maxSeqLen : Int) (maxNewTokens + maxLen prompts)).toNat =
      min d.maxSeqLen (maxNewTokens + maxLen prompts) := by omega
  have possible : (prompts.isEmpty || decide (d.maxSeqLen < maxLen prompts) ||
      decide (min (d.maxSeqLen : Int) (maxNewTokens + maxLen prompts) < maxLen prompts)) = false := by
    simp only [Bool.or_eq_false_iff, decide_eq_false_iff_not, List.isEmpty_eq_false_iff]
    exact ⟨⟨some, by omega⟩, by omega⟩
  let job : Job := ⟨settings, options, prompts, min d.maxSeqLen (maxNewTokens + maxLen prompts)⟩
  have inside : job.Fits := by
    intro prompt member
    have le : prompt.length ≤ maxLen prompts := Decoder.le_maxLen member
    exact le_min (fits prompt member) (by omega)
  obtain ⟨first, rest, cons⟩ := List.exists_cons_of_ne_nil some
  have short : minLen prompts ≤ job.totalLen := by
    have member : first ∈ prompts := cons ▸ List.mem_cons_self
    exact (Decoder.minLen_le member).trans (inside first member)
  have rows : prompts.map (Row.init job.totalLen) = rowsAt d output job (minLen prompts) :=
    List.map_congr_left fun prompt member =>
      (Decoder.rowAt_init (Decoder.minLen_le member)).symm
  have resumes : (prefixSnapshotSettings snap hint prompts s).1 ≤ minLen prompts ∧
      Holds ((rowsAt d output job (minLen prompts)).map fun row =>
          row.tokens.take (prefixSnapshotSettings snap hint prompts s).1)
        (prefixSnapshotSettings snap hint prompts s).2.2 := by
    rcases settings_exact exact with zero | ⟨prompt, only, proper, holds⟩
    · rw [zero]
      refine ⟨Nat.zero_le _, ?_⟩
      simp only [List.take_zero, List.map_const']
      exact isPure.start ..
    · refine ⟨?_, ?_⟩
      · have shortest : minLen prompts = prompt.length := by
          rw [only]
          exact Nat.min_eq_left (Nat.le_max_left ..)
        rw [shortest]
        exact proper.le
      · rw [rowsAt_prompted prompt only _ proper.le]
        exact holds
  let w : Session S :=
    { state := (prefixSnapshotSettings snap hint prompts s).2.2
      pendingCaptures := (prefixSnapshotSettings snap hint prompts s).2.1.toFinset
      captured := []
      calls := [] }
  have exactly : w.Exactly Holds job (prefixSnapshotSettings snap hint prompts s).1
      (rowsAt d output job (minLen prompts)) (prefixSnapshotSettings snap hint prompts s).1 :=
    ⟨resumes.2, Tiled.nil, nofun⟩
  have wide : Decoder.Wide (rowsAt d output job (minLen prompts))
      (prefixSnapshotSettings snap hint prompts s).1 := fun row here =>
    resumes.1.trans (rowsAt_wide inside short row here)
  refine ⟨job, ⟨w, drafter, rowsAt d output job (minLen prompts),
    (prefixSnapshotSettings snap hint prompts s).1, minLen prompts, none, 0⟩, ?_, rfl, rfl, rfl, rfl,
    inside, rfl, rfl, exactly.at wide, le_rfl, short, Or.inr ⟨resumes.1, rfl, rfl⟩, nofun⟩
  unfold Speculator.begin
  dsimp only
  rw [possible, total, ← rows]
  exact if_neg Bool.false_ne_true

lemma Round.completions {maxNewTokens : Nat} (fits : job.Fits)
    (total : job.totalLen = min d.maxSeqLen (maxNewTokens + maxLen job.prompts))
    (round : Round d output Holds job start st)
    (ends : st.curPos = job.totalLen ∨ st.rows.all Row.finished = true) :
    d.completions job.prompts maxNewTokens st.rows =
      job.prompts.map (d.completion output job.options maxNewTokens) := by
  rw [Speculator.completions, round.rows, rowsAt, List.zipWith_map_right, List.zipWith_self]
  refine List.map_congr_left fun prompt member => ?_
  refine Decoder.finish_rowAt (fits prompt member) (by omega) ?_ round.le ?_
  · have le := Decoder.le_maxLen member
    rw [Int.toNat_natCast]
    omega
  · rcases ends with last | all
    · exact Or.inl last
    · rw [round.rows] at all
      have here := List.all_eq_true.mp all _ (List.mem_map_of_mem member)
      exact Or.inr (List.contains_iff_mem.mp here)

/-- The run of `generate` for prompts that the model allows. -/
theorem Pure.generate_eq (isPure : Pure d output Holds) (settings : Settings)
    (options : GenerationOptions) (drafter : D) (maxNewTokens : Nat) (some : prompts ≠ [])
    (fits : ∀ prompt ∈ prompts, prompt.length ≤ d.maxSeqLen)
    (exact : RestoresExactly Holds snap hint prompts s) :
    ∃ r stop, d.generate settings options snap hint s drafter prompts maxNewTokens = .some r ∧
      r.completionTokens = prompts.map (d.completion output options maxNewTokens) ∧
      Tiled settings.mtpSpec (prefixSnapshotSettings snap hint prompts s).1 r.session.calls stop ∧
      (minLen prompts ≤ stop ∨ r.session.calls = []) ∧
      Captures Holds prompts r.session.captured := by
  obtain ⟨job, st, begins, rfl, rfl, rfl, total, inside, -, round⟩ :=
    begin_round isPure settings options drafter maxNewTokens some fits exact
  obtain ⟨st', looped, round', -, ends⟩ := round.loop isPure inside job.totalLen
  have isOver := ends (Nat.le_add_left ..)
  unfold Speculator.generate
  rw [begins]
  dsimp only
  rw [looped]
  refine ⟨_, st'.prevPos, rfl, round'.completions inside total isOver, round'.session.tiled, ?_,
    round'.session.captures⟩
  rcases round'.position with ⟨-, fed⟩ | ⟨-, -, none⟩
  · exact Or.inl fed
  · exact Or.inr none

lemma begin_none {settings : Settings} {options : GenerationOptions} {drafter : D}
    {maxNewTokens : Int}
    (bad : prompts = [] ∨ (∃ prompt ∈ prompts, d.maxSeqLen < prompt.length) ∨ maxNewTokens < 0) :
    d.begin settings options snap hint s drafter prompts maxNewTokens = none := by
  have impossible : (prompts.isEmpty || decide (d.maxSeqLen < maxLen prompts) ||
      decide (min (d.maxSeqLen : Int) (maxNewTokens + maxLen prompts) < maxLen prompts)) = true := by
    simp only [Bool.or_eq_true, decide_eq_true_eq, List.isEmpty_iff]
    rcases bad with none | ⟨prompt, member, long⟩ | negative
    · exact Or.inl (Or.inl none)
    · exact Or.inl (Or.inr (long.trans_le (Decoder.le_maxLen member)))
    · exact Or.inr (by omega)
  unfold Speculator.begin
  dsimp only
  rw [if_pos impossible]

lemma possible_of_begin {settings : Settings} {options : GenerationOptions} {drafter : D}
    {maxNewTokens : Int} {begun : Job × LoopState S D}
    (begins : d.begin settings options snap hint s drafter prompts maxNewTokens = some begun) :
    prompts ≠ [] ∧ (∀ prompt ∈ prompts, prompt.length ≤ d.maxSeqLen) ∧
      ∃ count : Nat, maxNewTokens = count := by
  have returns : d.begin settings options snap hint s drafter prompts maxNewTokens ≠ none := by
    rw [begins]
    exact Option.some_ne_none _
  have good := mt begin_none returns
  push Not at good
  exact ⟨good.1, good.2.1, ⟨_, (Int.toNat_of_nonneg good.2.2).symm⟩⟩

lemma possible_of_generate {settings : Settings} {options : GenerationOptions} {drafter : D}
    {maxNewTokens : Int} {r : Speculator.Generated S}
    (generated : d.generate settings options snap hint s drafter prompts maxNewTokens = some r) :
    prompts ≠ [] ∧ (∀ prompt ∈ prompts, prompt.length ≤ d.maxSeqLen) ∧
      ∃ count : Nat, maxNewTokens = count := by
  unfold Speculator.generate at generated
  split at generated
  next => cases generated
  next begins => exact possible_of_begin begins

end

end PocketMoE.Generation
