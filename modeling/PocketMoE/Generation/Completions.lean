import PocketMoE.Generation.Rounds

/-!
# The completions of pure models

What follows from `Pure.generate_eq` for any model whose next token is a function of what a row has
been fed: prompts of any lengths are decoded as if alone (`generate_company`), drafts change nothing
(`generate_lossless`), and neither do chunks, snapshots and captures (`generate_chunks`).

`recaller` is such a model: its state is what its rows have been fed.
-/

namespace PocketMoE.Generation
open PocketMoE.Serving PocketMoE.Runtime PocketMoE.Lib

variable {S L D K : Type} [DecidableEq K] {d : Speculator S L D} {output : List Int → L}
  {Holds : List (List Int) → S → Prop} {snap : Option (Snapshots K S)}
  {hint : Option (SnapshotHint K)} {s : S} {prompts : List (List Nat)}

/-! ## A model that recalls what it was fed -/

/-- The next token is one more than the last one, up to 9, which is the end mark. The drafts are
right after even tokens, wrong after odd ones, and missing for a 5. -/
def recaller : Speculator (List (List Int)) (List Int) Unit where
  maxSeqLen := 12
  maxSeqLen_pos := by decide
  eosId := 9
  prefillChunkTokens := 0
  forward s chunk pos :=
    let fed := if pos = 0 then chunk else refed s chunk pos
    (fed, fed)
  pick _ _ output := (output.getLastD 0 + 1).toNat
  forwardBoth s chunk pos :=
    let fed := if pos = 0 then chunk else refed s chunk pos
    (fed.map fun row => (row.dropLast, row), fed)
  draftWithMtp _ _ tokens _ :=
    (if 5 ∈ tokens then none else some (tokens.map fun t => if t % 2 = 0 then t + 1 else 0), ())
  draft_length := by
    intro h hidden tokens pos drafts some
    split_ifs at some
    cases some
    exact List.length_map ..

/-- The state is what the rows were fed, if anything. -/
def Recalls (rows s : List (List Int)) : Prop :=
  rows = s ∨ ∃ count, rows = List.replicate count []

lemma refed_recalls {rows chunk s : List (List Int)} {pos : Nat} (recalls : Recalls rows s)
    (long : ∀ row ∈ rows, pos ≤ row.length) (count : chunk.length = rows.length) :
    (if pos = 0 then chunk else refed s chunk pos) = refed rows chunk pos := by
  have first : refed rows chunk 0 = chunk := by
    unfold refed
    simp only [List.take_zero, List.nil_append]
    refine List.ext_getElem (by simp [count]) fun i here there => ?_
    exact List.getElem_zipWith
  split_ifs with zero
  · rw [zero, first]
  · rcases recalls with rfl | ⟨n, rfl⟩
    · rfl
    · cases n with
      | zero =>
        have none : chunk = [] := List.eq_nil_of_length_eq_zero count
        rw [none, refed, refed, List.zipWith_nil_right, List.zipWith_nil_right]
      | succ n => exact absurd (Nat.le_zero.mp (long [] List.mem_cons_self)) zero

lemma recaller_pure : Pure recaller id Recalls where
  start count s := Or.inr ⟨count, rfl⟩
  forward width recalls long count _ := by
    have fed := refed_recalls recalls long count
    exact ⟨(by rw [List.map_id]; exact fed), Or.inl fed.symm⟩
  forwardBoth recalls long count _ := by
    have fed := refed_recalls recalls long count
    exact ⟨congrArg (List.map fun row : List Int => (row.dropLast, row)) fed, Or.inl fed.symm⟩

/-- A hint restores what the tokens of its entry say. -/
def recalled (entry : SnapshotEntry) : List (List Int) := [entry.tokenIds.map Int.ofNat]

lemma recalled_exact {cache : PrefixSnapshotCache K} {entries : OrderedDict K SnapshotEntry}
    (s : List (List Int)) (prompts : List (List Nat)) :
    RestoresExactly Recalls (some ⟨cache, entries, fun _ entry => recalled entry⟩) hint prompts s := by
  intro prompt snapshots hinted key entry _ isSnap _ _ _ tokens
  obtain rfl := Option.some.inj isSnap
  refine Or.inl ?_
  rw [← tokens]
  rfl

/-- Options that ask for nothing. -/
def noOptions : GenerationOptions where
  topP := none
  topK := none
  minP := none
  frequencyPenalty := none
  presencePenalty := none
  repetitionPenalty := none
  seed := none
  logprobs := false
  topLogprobs := none

/-- The snapshots with one entry, for the prefix 1. -/
def recalledOne : Snapshots (List Nat) (List (List Int)) where
  cache := PrefixSnapshotCache.twoSnapshots
  entries := OrderedDict.empty.insert [1] ⟨1, [1], rfl, Nat.one_pos⟩
  applyBuffers _ entry := recalled entry

/-! ## Any company -/

/-- What the model picks, and the end mark, are token ids. -/
def TokenIds (d : Speculator S L D) : Prop :=
  0 ≤ d.eosId ∧ ∀ options tokens output, 0 ≤ d.pick options tokens output

lemma generated_nonneg (ids : TokenIds d) (options : GenerationOptions) (prompt : List Nat)
    (k : Nat) : ∀ token ∈ d.generated output options prompt k, 0 ≤ token := by
  induction k with
  | zero => exact nofun
  | succ k ih =>
    intro token member
    rcases List.mem_append.mp member with before | last
    · exact ih token before
    · rw [List.mem_singleton.mp last]
      exact ids.2 ..

lemma completion_spec (ids : TokenIds d) (options : GenerationOptions) (maxNewTokens : Nat)
    (prompt : List Nat) :
    -1 ∉ d.completion output options maxNewTokens prompt ∧
      ∃ tokens, d.completion output options maxNewTokens prompt = tokens ++ [d.eosId] ∧
        d.eosId ∉ tokens ∧ tokens.length ≤ maxNewTokens := by
  refine ⟨fun filler => ?_, _, rfl, fun ends => ?_, ?_⟩
  · rcases List.mem_append.mp filler with token | mark
    · have nonneg := generated_nonneg ids options prompt _ _ ((List.takeWhile_sublist _).mem token)
      omega
    · have nonneg := ids.1
      rw [← List.mem_singleton.mp mark] at nonneg
      omega
  · have other := List.mem_takeWhile_imp ends
    rw [bne_self_eq_false] at other
    cases other
  · refine (List.takeWhile_sublist _).length_le.trans ?_
    rw [Decoder.generated_length]
    exact Nat.min_le_left ..

lemma rowsAt_prompts {job : Job} {cur : Nat} :
    List.Forall₂ (fun (prompt : List Nat) row =>
      row.tokens.take prompt.length = prompt.map Int.ofNat) job.prompts (rowsAt d output job cur) := by
  rw [rowsAt, List.forall₂_map_right_iff]
  refine List.forall₂_same.mpr fun prompt _ => ?_
  rw [Decoder.rowAt, List.append_assoc]
  exact List.take_left' (List.length_map ..)

lemma RestoresExactly.of_mem (exact : ∀ prompt ∈ prompts, RestoresExactly Holds snap hint [prompt] s) :
    RestoresExactly Holds snap hint prompts s := by
  intro prompt snapshots hinted key entry only
  exact exact prompt (only ▸ List.mem_singleton_self prompt) prompt snapshots hinted key entry rfl

/-- A prompt's completion is the one it gets alone, in any company, and it is well formed. Nothing
overwrites a prompt, after any number of rounds. -/
theorem generate_company (isPure : Pure d output Holds) (ids : TokenIds d) (settings : Settings)
    (options : GenerationOptions) (snap : Option (Snapshots K S)) (hint : Option (SnapshotHint K))
    (s : S) (drafter : D) (prompts : List (List Nat)) (maxNewTokens : Int)
    (exact : ∀ s, ∀ prompt ∈ prompts, RestoresExactly Holds snap hint [prompt] s) :
    (∀ r, d.generate settings options snap hint s drafter prompts maxNewTokens = some r →
      List.Forall₂ (fun prompt completion => ∀ s' drafter', ∃ alone,
          d.generate settings options snap hint s' drafter' [prompt] maxNewTokens = some alone ∧
            alone.completionTokens = [completion]) prompts r.completionTokens ∧
      ∀ completion ∈ r.completionTokens, -1 ∉ completion ∧ ∃ tokens,
        completion = tokens ++ [d.eosId] ∧ d.eosId ∉ tokens ∧ tokens.length ≤ maxNewTokens) ∧
    (prompts ≠ [] →
      (∀ prompt ∈ prompts,
        (d.generate settings options snap hint s drafter [prompt] maxNewTokens).isSome) →
      (d.generate settings options snap hint s drafter prompts maxNewTokens).isSome) ∧
    ∀ job st fuel last,
      d.begin settings options snap hint s drafter prompts maxNewTokens = some (job, st) →
      d.loop job fuel st = some last →
      List.Forall₂ (fun prompt row => row.tokens.take prompt.length = prompt.map Int.ofNat)
        prompts last.rows := by
  have exact' : RestoresExactly Holds snap hint prompts s := .of_mem (exact s)
  refine ⟨fun r generated => ?_, fun some all => ?_, fun job st fuel last begins looped => ?_⟩
  · obtain ⟨some, fits, count, rfl⟩ := possible_of_generate generated
    obtain ⟨r', stop, generated', completions, -⟩ :=
      isPure.generate_eq settings options drafter count some fits exact'
    obtain rfl : r = r' := Option.some.inj (generated.symm.trans generated')
    rw [completions]
    refine ⟨?_, fun completion member => ?_⟩
    · rw [List.forall₂_map_right_iff]
      refine List.forall₂_same.mpr fun prompt member s' drafter' => ?_
      have fits' : ∀ p ∈ [prompt], p.length ≤ d.maxSeqLen := by
        intro p only
        rw [List.mem_singleton.mp only]
        exact fits prompt member
      obtain ⟨alone, -, generated, completion, -⟩ := isPure.generate_eq settings options drafter'
        count (List.cons_ne_nil _ _) fits' (exact s' prompt member)
      exact ⟨alone, generated, completion⟩
    · obtain ⟨prompt, -, rfl⟩ := List.mem_map.mp member
      obtain ⟨filler, tokens, eq, clean, le⟩ := completion_spec ids options count prompt
      exact ⟨filler, tokens, eq, clean, Int.ofNat_le.mpr le⟩
  · have alone : ∀ prompt ∈ prompts,
        prompt.length ≤ d.maxSeqLen ∧ ∃ count : Nat, maxNewTokens = count := by
      intro prompt member
      obtain ⟨r, generated⟩ := Option.isSome_iff_exists.mp (all prompt member)
      obtain ⟨-, fits, count⟩ := possible_of_generate generated
      exact ⟨fits prompt (List.mem_singleton_self prompt), count⟩
    obtain ⟨first, member⟩ := List.exists_mem_of_ne_nil prompts some
    obtain ⟨-, count, rfl⟩ := alone first member
    obtain ⟨r, -, generated, -⟩ := isPure.generate_eq settings options drafter count some
      (fun prompt member => (alone prompt member).1) exact'
    exact Option.isSome_iff_exists.mpr ⟨r, generated⟩
  · obtain ⟨some, fits, count, rfl⟩ := possible_of_begin begins
    obtain ⟨job', st', again, rfl, rfl, rfl, -, inside, -, round⟩ :=
      begin_round isPure settings options drafter count some fits exact'
    obtain ⟨rfl, rfl⟩ := Prod.mk.inj (Option.some.inj (begins.symm.trans again))
    obtain ⟨st', looped', round', -⟩ := round.loop isPure inside fuel
    obtain rfl : last = st' := Option.some.inj (looped.symm.trans looped')
    rw [round'.rows]
    exact rowsAt_prompts

/-- Three prompts of different lengths. -/
theorem generate_company_ragged :
    (recaller.generate ⟨false, false, false⟩ noOptions (some recalledOne) none [] ()
        [[1, 2], [], [6, 7, 8]] 4).map Speculator.Generated.completionTokens =
      some [[3, 4, 5, 6, 9], [1, 2, 3, 4, 9], [9]] ∧
    ∀ r, recaller.generate ⟨false, false, false⟩ noOptions (some recalledOne) none [] ()
        [[1, 2], [], [6, 7, 8]] 4 = some r →
      List.Forall₂ (fun prompt completion => ∀ s' drafter', ∃ alone,
        recaller.generate ⟨false, false, false⟩ noOptions (some recalledOne) none s' drafter' [prompt]
          4 = some alone ∧ alone.completionTokens = [completion])
        [[1, 2], [], [6, 7, 8]] r.completionTokens := by
  have company := generate_company recaller_pure ⟨by decide, fun _ _ _ => Int.natCast_nonneg _⟩
    ⟨false, false, false⟩ noOptions (some recalledOne) none [] () [[1, 2], [], [6, 7, 8]] 4
    (fun s prompt _ => recalled_exact s [prompt])
  exact ⟨by decide +kernel, fun r generated => (company.1 r generated).1⟩

lemma Pure.generate_map (isPure : Pure d output Holds) (settings : Settings)
    (options : GenerationOptions) (drafter : D) (maxNewTokens : Int)
    (exact : RestoresExactly Holds snap hint prompts s) :
    (d.generate settings options snap hint s drafter prompts maxNewTokens).map
        Speculator.Generated.completionTokens =
      if prompts ≠ [] ∧ (∀ prompt ∈ prompts, prompt.length ≤ d.maxSeqLen) ∧ 0 ≤ maxNewTokens then
        some (prompts.map (d.completion output options maxNewTokens.toNat))
      else none := by
  split_ifs with possible
  · obtain ⟨some, fits, nonneg⟩ := possible
    obtain ⟨count, rfl⟩ := Int.eq_ofNat_of_zero_le nonneg
    obtain ⟨r, -, generated, completions, -⟩ :=
      isPure.generate_eq settings options drafter count some fits exact
    rw [generated, Option.map_some, completions, Int.toNat_natCast]
  · cases generated : d.generate settings options snap hint s drafter prompts maxNewTokens with
    | none => rfl
    | some r =>
      obtain ⟨some, fits, count, rfl⟩ := possible_of_generate generated
      exact absurd ⟨some, fits, Int.natCast_nonneg count⟩ possible

/-! ## Drafts -/

/-- With speculation the completions are the same, whatever the drafts are. -/
theorem generate_lossless (isPure : Pure d output Holds) (log log' twoLen1 twoLen1' : Bool)
    (options : GenerationOptions) (snap : Option (Snapshots K S)) (hint : Option (SnapshotHint K))
    (s s' : S) (drafter drafter' : D) (prompts : List (List Nat)) (maxNewTokens : Int)
    (exact : ∀ s, RestoresExactly Holds snap hint prompts s) :
    (d.generate ⟨log, true, twoLen1⟩ options snap hint s drafter prompts maxNewTokens).map
        Speculator.Generated.completionTokens =
      (d.generate ⟨log', false, twoLen1'⟩ options snap hint s' drafter' prompts maxNewTokens).map
        Speculator.Generated.completionTokens := by
  rw [isPure.generate_map _ options drafter maxNewTokens (exact s),
    isPure.generate_map _ options drafter' maxNewTokens (exact s')]

/-- Drafts that are accepted, rejected and missing, for two prompts of one length. -/
theorem generate_lossless_recall :
    (recaller.generate ⟨false, true, false⟩ noOptions (some recalledOne) none [] () [[1, 2], [3, 4]]
        5).map Speculator.Generated.completionTokens =
      (recaller.generate ⟨false, false, false⟩ noOptions (some recalledOne) none [] ()
        [[1, 2], [3, 4]] 5).map Speculator.Generated.completionTokens :=
  generate_lossless recaller_pure false false false false noOptions (some recalledOne) none [] [] ()
    () [[1, 2], [3, 4]] 5 (fun s => recalled_exact s _)

/-! ## Chunks and snapshots -/

/-- The model with another chunk size. -/
def Speculator.withChunk (d : Speculator S L D) (chunk : Int) : Speculator S L D :=
  { d with prefillChunkTokens := chunk }

lemma Pure.withChunk (isPure : Pure d output Holds) (chunk : Int) :
    Pure (d.withChunk chunk) output Holds :=
  ⟨isPure.start, isPure.forward, isPure.forwardBoth⟩

lemma generated_withChunk (chunk : Int) (options : GenerationOptions) (prompt : List Nat) (k : Nat) :
    (d.withChunk chunk).generated output options prompt k = d.generated output options prompt k := by
  induction k with
  | zero => rfl
  | succ k ih =>
    rw [Decoder.generated, Decoder.generated, ih]
    rfl

lemma completion_withChunk (chunk : Int) (options : GenerationOptions) (maxNewTokens : Nat) :
    (d.withChunk chunk).completion output options maxNewTokens =
      d.completion output options maxNewTokens := by
  funext prompt
  rw [Decoder.completion, Decoder.completion, generated_withChunk]
  rfl

lemma minLen_singleton (prompt : List Nat) : minLen [prompt] = prompt.length :=
  Nat.min_eq_left (Nat.le_max_left ..)

/-- A prompt's completion does not depend on how it is fed. The calls feed it from where the hint
resumes, without a gap and without feeding a column twice, and a capture is about what has been
fed. -/
theorem generate_chunks (isPure : Pure d output Holds) (settings settings' : Settings)
    (options : GenerationOptions) (snap : Option (Snapshots K S)) (hint : Option (SnapshotHint K))
    (s s' : S) (drafter drafter' : D) (prompt : List Nat) (maxNewTokens chunk chunk' : Int)
    (exact : RestoresExactly Holds snap hint [prompt] s) :
    ((d.withChunk chunk).generate settings options snap hint s drafter [prompt] maxNewTokens).map
        Speculator.Generated.completionTokens =
      ((d.withChunk chunk').generate settings' options (none : Option (Snapshots K S)) none s'
        drafter' [prompt] maxNewTokens).map Speculator.Generated.completionTokens ∧
    ∀ r, (d.withChunk chunk).generate settings options snap hint s drafter [prompt] maxNewTokens =
        some r →
      ∃ stop, Tiled settings.mtpSpec (prefixSnapshotSettings snap hint [prompt] s).1
          r.session.calls stop ∧
        (prompt.length ≤ stop ∨ r.session.calls = []) ∧
        Captures Holds [prompt] r.session.captured := by
  have fresh : RestoresExactly Holds (none : Option (Snapshots K S)) none [prompt] s' := by
    intro _ _ _ _ _ _ isSnap
    cases isSnap
  refine ⟨?_, fun r generated => ?_⟩
  · rw [(isPure.withChunk chunk).generate_map settings options drafter maxNewTokens exact,
      (isPure.withChunk chunk').generate_map settings' options drafter' maxNewTokens fresh,
      completion_withChunk, completion_withChunk]
    rfl
  · obtain ⟨some, fits, count, rfl⟩ := possible_of_generate generated
    obtain ⟨r', stop, generated', -, tiled, end', captures⟩ :=
      (isPure.withChunk chunk).generate_eq settings options drafter count some fits exact
    obtain rfl : r = r' := Option.some.inj (generated.symm.trans generated')
    rw [minLen_singleton] at end'
    exact ⟨stop, tiled, end', captures⟩

/-- A prompt that resumes at its first token, in chunks of two tokens, and captures its third. -/
theorem generate_chunks_resumed :
    ((recaller.withChunk 2).generate ⟨false, false, false⟩ noOptions (some recalledOne)
        (some ⟨some [1], 1, [3]⟩) [] () [[1, 2, 3, 4]] 3).map
        Speculator.Generated.completionTokens =
      ((recaller.withChunk 0).generate ⟨false, true, false⟩ noOptions
        (none : Option (Snapshots (List Nat) (List (List Int)))) none [] () [[1, 2, 3, 4]] 3).map
        Speculator.Generated.completionTokens ∧
    ∀ r, (recaller.withChunk 2).generate ⟨false, false, false⟩ noOptions (some recalledOne)
        (some ⟨some [1], 1, [3]⟩) [] () [[1, 2, 3, 4]] 3 = some r →
      ∃ stop, Tiled false 1 r.session.calls stop ∧ (4 ≤ stop ∨ r.session.calls = []) ∧
        Captures Recalls [[1, 2, 3, 4]] r.session.captured :=
  generate_chunks recaller_pure ⟨false, false, false⟩ ⟨false, true, false⟩ noOptions
    (some recalledOne) (some ⟨some [1], 1, [3]⟩) [] [] () () [1, 2, 3, 4] 3 2 0
    (recalled_exact [] _)

end PocketMoE.Generation
