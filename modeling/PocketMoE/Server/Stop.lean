import PocketMoE.Lib.Search
import PocketMoE.Server.Batch

/-!
# Stop texts in a stream

A response at once cuts its content where a stop text begins first (`_apply_stop_to_result`). A stream
(`do_POST`) has the content in parts: it looks for stop texts in what it has held back and the next
part, and holds back one character less than the longest stop text has (`openai.py`).

The stream ends with the first part at whose end a stop text is complete, and cuts before the first
one that is complete there (`Run.cut`). Another one may have begun before, and be complete only in
the parts that follow. `stop_iff` says when the client gets the same as at once.
-/

namespace PocketMoE.Serving
open PocketMoE.Lib

/-! ## The stream -/

/-- `stop_hold_limit`. -/
def stopHoldLimit (stops : List String) : Int :=
  ((stops.map String.length).foldr max 0 : Nat) - 1

/-- A stream's content: what the client has got, what is held back, and whether a stop text has been
found. -/
structure StopState where
  sent : List Char
  hold : List Char
  stopped : Bool
deriving DecidableEq

/-- One part of the content. -/
def contentDelta (stops : List String) (st : StopState) (delta : List Char) : StopState :=
  if st.stopped then st
  else if stops.isEmpty then { st with sent := st.sent ++ delta }
  else
    let combined := st.hold ++ delta
    match earliest stops (String.ofList combined) with
    | some pos => { sent := st.sent ++ combined.take pos, hold := [], stopped := true }
    | none =>
      let limit := stopHoldLimit stops
      if 0 < limit then
        { st with
          sent := st.sent ++ combined.take (combined.length - limit.toNat)
          hold := combined.drop (combined.length - limit.toNat) }
      else { st with sent := st.sent ++ combined, hold := [] }

/-- The parts of a stream, and what was held back at its end. -/
def streamContent (stops : List String) (deltas : List (List Char)) : StopState :=
  let st := deltas.foldl (contentDelta stops) ⟨[], [], false⟩
  if st.stopped then st else { st with sent := st.sent ++ st.hold, hold := [] }

/-- `finish` of a stream without tool calls; `reason` is what the loop reports. -/
def streamFinish (st : StopState) (reason : FinishReason) : FinishReason :=
  if st.stopped then .stop else reason

/-! ## Where a stop text begins -/

/-- A stop text stands at a place of the content. -/
def StopAt (stops : List String) (content : List Char) (p : Nat) : Prop :=
  ∃ stop ∈ stops, At stop.toList content p

lemma findText_eq (pattern content : List Char) :
    findText pattern content = firstAt pattern content := by
  induction content with
  | nil => rfl
  | cons c rest ih => rw [findText, firstAt, ih]

lemma earliest_eq (stops : List String) (content : List Char) :
    earliest stops (String.ofList content) =
      stops.foldl (fun first stop => minOption (firstAt stop.toList content) first) none := by
  unfold earliest
  congr 1
  funext first stop
  rw [findText_eq, String.toList_ofList]
  cases firstAt stop.toList content with
  | none => rfl
  | some p =>
    cases first with
    | none => rfl
    | some q => rfl

lemma least_earliest (stops : List String) (content : List Char) :
    Least (StopAt stops content) (earliest stops (String.ofList content)) := by
  have fold : ∀ (stops : List String) {P : Nat → Prop} {first : Option Nat}, Least P first →
      Least (fun p => P p ∨ StopAt stops content p)
        (stops.foldl (fun first stop => minOption (firstAt stop.toList content) first) first) := by
    intro stops
    induction stops with
    | nil =>
      intro P first least
      refine least.congr fun p => ⟨Or.inl, fun either => either.resolve_right ?_⟩
      rintro ⟨stop, member, -⟩
      cases member
    | cons stop stops ih =>
      intro P first least
      refine (ih ((least_firstAt stop.toList content).or least)).congr fun p => ?_
      simp only [StopAt, List.exists_mem_cons_iff]
      tauto
  have nowhere : Least (fun _ => False) none := fun _ => id
  rw [earliest_eq]
  exact (fold stops nowhere).congr fun p => iff_of_eq (false_or _)

variable {stops : List String} {content delta : List Char} {st : StopState}

lemma StopAt.append {p : Nat} (here : StopAt stops content p) (more : List Char) :
    StopAt stops (content ++ more) p := by
  obtain ⟨stop, member, at'⟩ := here
  exact ⟨stop, member, at'.append more⟩

lemma StopAt.le {p : Nat} (here : StopAt stops content p) : p ≤ content.length := by
  obtain ⟨stop, -, at'⟩ := here
  exact at'.1

/-! ## One part -/

/-- A stream that has not found a stop text in its content: what is held back is long enough for all
of a stop text but its last character. -/
structure Holding (stops : List String) (content : List Char) (st : StopState) : Prop where
  going : st.stopped = false
  whole : st.sent ++ st.hold = content
  enough : st.sent = [] ∨ ∀ stop ∈ stops, stop.length ≤ st.hold.length + 1
  clear : content = [] ∨ ∀ p, ¬ StopAt stops content p
  idle : stops = [] → st.hold = []

lemma Holding.stopAt (holding : Holding stops content st) (delta : List Char) (p : Nat) :
    StopAt stops (content ++ delta) p ↔
      st.sent.length ≤ p ∧ StopAt stops (st.hold ++ delta) (p - st.sent.length) := by
  rw [← holding.whole, List.append_assoc]
  constructor
  · rintro ⟨stop, member, here⟩
    have le : st.sent.length ≤ p := by
      rcases holding.enough with nothing | enough
      · rw [nothing]
        exact Nat.zero_le _
      · by_contra before
        have short := enough stop member
        have inside : p + stop.toList.length ≤ (st.sent ++ st.hold).length := by
          rw [List.length_append, String.length_toList]
          omega
        rw [← List.append_assoc] at here
        have old := here.of_append inside
        rcases holding.clear with empty | none
        · have sent := (List.append_eq_nil_iff.mp (holding.whole.trans empty)).1
          rw [sent] at before
          exact before (Nat.zero_le _)
        · rw [holding.whole] at old
          exact none p ⟨stop, member, old⟩
    exact ⟨le, stop, member, here.of_append_right le⟩
  · rintro ⟨le, stop, member, here⟩
    obtain ⟨k, rfl⟩ := Nat.exists_eq_add_of_le le
    rw [Nat.add_sub_cancel_left] at here
    exact ⟨stop, member, at_append_right.mpr here⟩

lemma length_le_stopHoldLimit {stop : String} (member : stop ∈ stops) :
    (stop.length : Int) ≤ stopHoldLimit stops + 1 := by
  have le : stop.length ≤ (stops.map String.length).foldr max 0 := by
    induction stops with
    | nil => cases member
    | cons first rest ih =>
      rw [List.map_cons, List.foldr_cons]
      rcases List.mem_cons.mp member with rfl | later
      · exact Nat.le_max_left ..
      · exact (ih later).trans (Nat.le_max_right ..)
  unfold stopHoldLimit
  omega

lemma Holding.next (holding : Holding stops content st)
    (none : earliest stops (String.ofList (content ++ delta)) = none) :
    Holding stops (content ++ delta) (contentDelta stops st delta) := by
  have nowhere := (least_earliest stops (content ++ delta)).eq_none.mp none
  have nowhere' : earliest stops (String.ofList (st.hold ++ delta)) = .none := by
    refine (least_earliest stops (st.hold ++ delta)).eq_none.mpr fun p here => ?_
    refine nowhere (st.sent.length + p) ((holding.stopAt delta _).mpr ⟨Nat.le_add_right .., ?_⟩)
    rwa [Nat.add_sub_cancel_left]
  unfold contentDelta
  rw [holding.going, if_neg Bool.false_ne_true]
  split_ifs with empty
  · obtain rfl := List.isEmpty_iff.mp empty
    refine ⟨rfl, ?_, Or.inr nofun, Or.inr nowhere, holding.idle⟩
    have whole := holding.whole
    rw [holding.idle rfl, List.append_nil] at whole ⊢
    rw [whole]
  · have some : stops ≠ [] := fun none => empty (List.isEmpty_iff.mpr none)
    dsimp only
    rw [nowhere']
    dsimp only
    split_ifs with positive
    · refine ⟨rfl, ?_, ?_, Or.inr nowhere, fun none => absurd none some⟩
      · show st.sent ++ List.take _ (st.hold ++ delta) ++ List.drop _ (st.hold ++ delta) = _
        rw [List.append_assoc, List.take_append_drop, ← List.append_assoc, holding.whole]
      · show st.sent ++ List.take _ (st.hold ++ delta) = [] ∨ ∀ stop ∈ stops,
          stop.length ≤ (List.drop _ (st.hold ++ delta)).length + 1
        rw [List.length_drop]
        rcases Nat.eq_zero_or_pos
          ((st.hold ++ delta).length - (stopHoldLimit stops).toNat) with all | some
        · -- everything is held back
          rw [all, List.take_zero, List.append_nil]
          refine holding.enough.imp_right fun enough stop member => (enough stop member).trans ?_
          rw [List.length_append]
          omega
        · refine Or.inr fun stop member => ?_
          have le := length_le_stopHoldLimit member
          omega
    · refine ⟨rfl, ?_, ?_, Or.inr nowhere, fun _ => rfl⟩
      · show st.sent ++ (st.hold ++ delta) ++ [] = _
        rw [List.append_nil, ← List.append_assoc, holding.whole]
      · refine Or.inr fun stop member => ?_
        have le := length_le_stopHoldLimit member
        show stop.length ≤ 0 + 1
        omega

lemma Holding.cut (holding : Holding stops content st) {p : Nat}
    (found : earliest stops (String.ofList (content ++ delta)) = some p) :
    contentDelta stops st delta = ⟨(content ++ delta).take p, [], true⟩ := by
  obtain ⟨here, before⟩ := (least_earliest stops (content ++ delta)).eq_some.mp found
  obtain ⟨le, at'⟩ := (holding.stopAt delta p).mp here
  have first : earliest stops (String.ofList (st.hold ++ delta)) = some (p - st.sent.length) := by
    refine (least_earliest stops (st.hold ++ delta)).eq_some.mpr ⟨at', fun q lt there => ?_⟩
    refine before (st.sent.length + q) (by omega) ((holding.stopAt delta _).mpr
      ⟨Nat.le_add_right .., ?_⟩)
    rwa [Nat.add_sub_cancel_left]
  have some : stops.isEmpty ≠ true := by
    intro none
    obtain ⟨stop, member, -⟩ := here
    rw [List.isEmpty_iff.mp none] at member
    cases member
  unfold contentDelta
  rw [holding.going, if_neg Bool.false_ne_true, if_neg some]
  dsimp only
  rw [first]
  dsimp only
  congr 1
  obtain ⟨k, rfl⟩ := Nat.exists_eq_add_of_le le
  rw [← holding.whole, List.append_assoc, Nat.add_sub_cancel_left, List.take_length_add_append]

/-! ## All parts -/

/-- The content by the end of the first part at whose end a stop text is complete. -/
def firstComplete (stops : List String) : List Char → List (List Char) → Option (List Char)
  | _, [] => none
  | content, delta :: rest =>
    if (earliest stops (String.ofList (content ++ delta))).isSome then some (content ++ delta)
    else firstComplete stops (content ++ delta) rest

lemma foldl_stopped {deltas : List (List Char)} (stopped : st.stopped = true) :
    deltas.foldl (contentDelta stops) st = st := by
  induction deltas with
  | nil => rfl
  | cons delta rest ih =>
    have same : contentDelta stops st delta = st := by
      rw [contentDelta, stopped, if_pos rfl]
    rw [List.foldl_cons, same, ih]

lemma Holding.foldl (deltas : List (List Char)) (holding : Holding stops content st) :
    match firstComplete stops content deltas with
    | none => Holding stops (content ++ deltas.flatten) (deltas.foldl (contentDelta stops) st)
    | some whole => ∃ p rest, earliest stops (String.ofList whole) = some p ∧
        content ++ deltas.flatten = whole ++ rest ∧
        deltas.foldl (contentDelta stops) st = ⟨whole.take p, [], true⟩ := by
  induction deltas generalizing content st with
  | nil =>
    show Holding stops (content ++ []) st
    rwa [List.append_nil]
  | cons delta rest ih =>
    rw [List.foldl_cons, List.flatten_cons, ← List.append_assoc]
    cases found : earliest stops (String.ofList (content ++ delta)) with
    | none =>
      rw [firstComplete, found]
      exact ih (holding.next found)
    | some p =>
      rw [firstComplete, found, holding.cut found]
      exact ⟨p, rest.flatten, found, rfl, foldl_stopped rfl⟩

lemma Holding.init (stops : List String) : Holding stops [] ⟨[], [], false⟩ :=
  ⟨rfl, rfl, Or.inl rfl, Or.inl rfl, fun _ => rfl⟩

/-- When a client gets the same from a stream: no stop text begins before the one that is found first.
If there is none, the reasons are the same; and an empty stop text finds a part. -/
def StopsAlike (stops : List String) (deltas : List (List Char)) (reason reason' : FinishReason) :
    Prop :=
  let content := String.ofList deltas.flatten
  match firstComplete stops [] deltas with
  | some whole => earliest stops (String.ofList whole) = earliest stops content
  | none => if earliest stops content = none then reason = reason' else reason' = .stop

/-- The content and the reason that a client gets from a stream are those of a response at once,
exactly if the stop texts act alike on the parts. -/
theorem stop_iff (stops : List String) (deltas : List (List Char)) (choice : Choice)
    (reason' : FinishReason) :
    let atOnce := Choice.applyStop
      { choice with message :=
        { choice.message with content := String.ofList deltas.flatten } } stops
    let st := streamContent stops deltas
    (String.ofList st.sent = atOnce.message.content ∧
        streamFinish st reason' = atOnce.finishReason) ↔
      StopsAlike stops deltas choice.finishReason reason' := by
  intro atOnce st
  have whole : earliest stops (String.ofList deltas.flatten) = none →
      atOnce.message.content = String.ofList deltas.flatten ∧
        atOnce.finishReason = choice.finishReason := by
    intro none
    unfold atOnce Choice.applyStop
    dsimp only
    rw [none]
    exact ⟨rfl, rfl⟩
  have cut : ∀ p, earliest stops (String.ofList deltas.flatten) = some p →
      atOnce.message.content = String.ofList (deltas.flatten.take p) ∧
        atOnce.finishReason = .stop := by
    intro p some
    unfold atOnce Choice.applyStop
    dsimp only
    rw [some, String.toList_ofList]
    exact ⟨rfl, rfl⟩
  have least := least_earliest stops deltas.flatten
  have parts := (Holding.init stops).foldl deltas
  rw [List.nil_append] at parts
  unfold StopsAlike
  dsimp only
  cases found : firstComplete stops [] deltas with
  | some content =>
    rw [found] at parts
    obtain ⟨p, rest, complete, eq, folded⟩ := parts
    have here := ((least_earliest stops content).eq_some.mp complete).1
    have sent : st = ⟨content.take p, [], true⟩ := by
      show streamContent stops deltas = _
      rw [streamContent, folded]
      rfl
    cases first : earliest stops (String.ofList deltas.flatten) with
    | none =>
      have there := here.append rest
      rw [← eq] at there
      exact absurd there (least.eq_none.mp first p)
    | some q =>
      obtain ⟨same, reason⟩ := cut q first
      have there := (least.eq_some.mp first).1
      rw [sent, same, reason]
      dsimp only
      rw [complete, streamFinish, if_pos rfl, and_iff_left rfl, String.ofList_inj, Option.some_inj]
      constructor
      · intro texts
        have lengths := congrArg List.length texts
        rwa [List.length_take_of_le here.le, List.length_take_of_le there.le] at lengths
      · rintro rfl
        rw [eq, List.take_append_of_le_length here.le]
  | none =>
    rw [found] at parts
    have holding : Holding stops deltas.flatten (deltas.foldl (contentDelta stops) ⟨[], [], false⟩) :=
      parts
    have sent : st = ⟨deltas.flatten, [], false⟩ := by
      show streamContent stops deltas = _
      rw [streamContent, holding.going, if_neg Bool.false_ne_true]
      exact congrArg (fun sent => StopState.mk sent [] false) holding.whole
    cases first : earliest stops (String.ofList deltas.flatten) with
    | none =>
      obtain ⟨same, reason⟩ := whole first
      rw [sent, same, reason]
      dsimp only
      rw [if_pos rfl, streamFinish, if_neg Bool.false_ne_true]
      exact ⟨fun both => both.2.symm, fun eq => ⟨rfl, eq.symm⟩⟩
    | some q =>
      obtain ⟨same, reason⟩ := cut q first
      have empty : deltas.flatten = [] :=
        holding.clear.resolve_right fun none => none q (least.eq_some.mp first).1
      rw [sent, same, reason]
      dsimp only
      rw [if_neg (Option.some_ne_none q), empty, List.take_nil, streamFinish,
        if_neg Bool.false_ne_true]
      exact and_iff_right rfl

/-- The stop text "abcd" begins before "c", but is complete only in the next part. -/
theorem stop_differs : ¬ ∀ (stops : List String) (deltas : List (List Char)) (choice : Choice),
    choice.message.toolCalls = [] →
    let atOnce := Choice.applyStop
      { choice with message :=
        { choice.message with content := String.ofList deltas.flatten } } stops
    let st := streamContent stops deltas
    String.ofList st.sent = atOnce.message.content ∧
      streamFinish st choice.finishReason = atOnce.finishReason := by
  intro claim
  obtain ⟨same, -⟩ := claim ["abcd", "c"] [['a', 'b', 'c'], ['d']]
    ⟨0, 4, ⟨"abcd", "", []⟩, .stop⟩ rfl
  exact absurd same (by decide +kernel)

end PocketMoE.Serving
