import PocketMoE.Backend.GpuStaging

/-!
# Which launches read the right bytes

`Inv` is what staging keeps: a staged expert's slot has its own weights, in the recorded format. A
staging call that finds no arena and copies from the int8 cache keeps the recorded format as it
was, also when `release_cache` has thrown away what it was recorded for; `usesWorkspace` tells from
the state before when a call takes that path. A call of `forward` that throws the staged experts
away, because it changes the format or the device, brings back only what it found missing before.
-/

namespace PocketMoE.Backend.GpuStaging

open PocketMoE.Lib

variable {D : Type} {n : ℕ} {cfg : Config D} {host : Host n} {device : D}
  {b t : Staging D n} {format : Format} {experts done : List (Fin n)} {e : Fin n}

/-- Staged experts are in their own slots, in the recorded format, which is the buffers' own. The hot
cache has FP4 weights only. -/
structure Inv (b : Staging D n) : Prop where
  device : b.preparedDevice = b.buffers.map (·.device)
  empty : b.buffers = none → b.stagedLocalExperts = ∅
  slots : ∀ buf, b.buffers = some buf → ∀ e ∈ b.stagedLocalExperts,
    buf.slot e = some ⟨b.stagedArenaFormat, e⟩ ∧ buf.format = b.stagedArenaFormat
  hot : ∀ index e w, b.hot index e = some w → w = ⟨.fp4, e⟩

lemma inv_initial : Inv (initial D n) where
  device := rfl
  empty _ := rfl
  slots := nofun
  hot := nofun

lemma Inv.released (inv : Inv b) : Inv b.released where
  device := rfl
  empty _ := rfl
  slots := nofun
  hot := inv.hot

lemma Inv.refreshed (inv : Inv b) (preferFp4 : Bool) : Inv (b.refreshed host preferFp4) := by
  unfold Staging.refreshed
  split
  · exact inv.released
  · exact inv

lemma refreshed_format (preferFp4 : Bool) :
    (b.refreshed host preferFp4).stagedArenaFormat = b.stagedArenaFormat := by
  unfold Staging.refreshed
  split <;> rfl

section Storage

variable [DecidableEq D]

lemma Inv.ensured_eq (inv : Inv b) : b.ensured device format =
    if b.preparedDevice = some device then b
    else { b with
      preparedDevice := some device
      buffers := some ⟨device, format, fun _ => none⟩
      stagedLocalExperts := ∅ } := by
  unfold Staging.ensured
  by_cases here : b.preparedDevice = some device
  · have there : b.buffers.isSome := by
      have mapped := inv.device.symm.trans here
      cases buffers : b.buffers with
      | none =>
        rw [buffers] at mapped
        cases mapped
      | some buf => rfl
    rw [if_pos ⟨there, here⟩, if_pos here]
  · rw [if_neg fun both => here both.2, if_neg here]

lemma Inv.ensured (inv : Inv b) : Inv (b.ensured device format) := by
  rw [inv.ensured_eq]
  split
  · exact inv
  · exact ⟨rfl, nofun, fun buf _ e member => absurd member (Finset.notMem_empty e), inv.hot⟩

lemma Inv.ensured_device (inv : Inv b) :
    (b.ensured device format).preparedDevice = some device := by
  rw [inv.ensured_eq]
  split
  · assumption
  · rfl

/-- What stays staged when storage for the device is there. -/
def kept (device : D) (b : Staging D n) : Finset (Fin n) :=
  if b.preparedDevice = some device then b.stagedLocalExperts else ∅

lemma Inv.ensured_staged (inv : Inv b) :
    (b.ensured device format).stagedLocalExperts = kept device b := by
  rw [inv.ensured_eq, kept]
  split <;> rfl

lemma Inv.ensured_format (inv : Inv b) :
    (b.ensured device format).stagedArenaFormat = b.stagedArenaFormat := by
  rw [inv.ensured_eq]
  split <;> rfl

lemma kept_subset : kept device b ⊆ b.stagedLocalExperts := by
  unfold kept
  split
  · exact Finset.Subset.refl _
  · exact Finset.empty_subset _

end Storage

/-- The copies of a staging call so far: the backend is as it was, but for the slots of what is
done. -/
structure Filled (b : Staging D n) (format : Format) (done : List (Fin n)) (t : Staging D n) :
    Prop where
  inv : Inv t
  staged : t.stagedLocalExperts = b.stagedLocalExperts
  recorded : t.stagedArenaFormat = b.stagedArenaFormat
  device : t.preparedDevice = b.preparedDevice
  shapes : t.buffers.map (·.format) = b.buffers.map (·.format)
  filled : ∀ e ∈ done, ∃ buf, t.buffers = some buf ∧ buf.format = format ∧
    buf.slot e = some ⟨format, e⟩

lemma Filled.start (inv : Inv b) : Filled b format [] b :=
  ⟨inv, rfl, rfl, rfl, rfl, nofun⟩

lemma Filled.write {buf : Buffers D n} (sofar : Filled b format done t)
    (fresh : e ∉ b.stagedLocalExperts) (buffers : t.buffers = some buf)
    (fits : buf.format = format) :
    Filled b format (done ++ [e]) { t with buffers := some { buf with
      slot := Function.update buf.slot e (some ⟨format, e⟩) } } := by
  have other : ∀ a ∈ t.stagedLocalExperts, a ≠ e := by
    rintro a member rfl
    exact fresh (sofar.staged ▸ member)
  refine ⟨⟨?_, nofun, ?_, sofar.inv.hot⟩, sofar.staged, sofar.recorded, sofar.device, ?_, ?_⟩
  · rw [sofar.inv.device, buffers]
    rfl
  · rintro _ ⟨⟩ a member
    obtain ⟨own, same⟩ := sofar.inv.slots buf buffers a member
    exact ⟨(Function.update_of_ne (other a member) _ _).trans own, same⟩
  · rw [← sofar.shapes, buffers]
    rfl
  · intro a member
    refine ⟨_, rfl, fits, ?_⟩
    by_cases new : a = e
    · subst new
      exact Function.update_self _ _ _
    · have old : a ∈ done := by simpa [new] using member
      obtain ⟨buf', buffers', -, own⟩ := sofar.filled a old
      obtain rfl := Option.some_inj.mp (buffers.symm.trans buffers')
      exact (Function.update_of_ne new _ _).trans own

lemma copySlot_spec (fresh : e ∉ b.stagedLocalExperts) :
    Triple (Filled b format done) (copySlot e ⟨format, e⟩)
      (fun _ => Filled b format (done ++ [e])) (fun _ => Inv) := by
  refine Triple.read fun s sofar => ?_
  rintro t rfl
  cases buffers : t.buffers with
  | none => exact sofar.inv
  | some buf =>
    by_cases fits : buf.format = format
    · simp only [if_pos fits]
      exact sofar.write fresh buffers fits
    · simp only [if_neg fits]
      exact sofar.inv

lemma copyArena_spec (fresh : b.stagedLocalExperts = ∅) :
    Triple (Filled b format []) (copyArena format)
      (fun _ => Filled b format experts) (fun _ => Inv) := by
  refine Triple.read fun s sofar => ?_
  rintro t rfl
  cases buffers : t.buffers with
  | none => exact sofar.inv
  | some buf =>
    by_cases fits : buf.format = format
    · simp only [if_pos fits]
      have nothing : t.stagedLocalExperts = ∅ := sofar.staged.trans fresh
      refine ⟨⟨?_, nofun, ?_, sofar.inv.hot⟩, sofar.staged, sofar.recorded, sofar.device, ?_, ?_⟩
      · rw [sofar.inv.device, buffers]
        rfl
      · intro buf' _ e member
        rw [nothing] at member
        exact absurd member (Finset.notMem_empty e)
      · rw [← sofar.shapes, buffers]
        rfl
      · exact fun e _ => ⟨_, rfl, fits, rfl⟩
    · simp only [if_neg fits]
      exact sofar.inv

lemma copyExpert_spec (fresh : e ∉ b.stagedLocalExperts) :
    Triple (Filled b format done) (copyExpert cfg host device format e)
      (fun _ => Filled b format (done ++ [e])) (fun _ => Inv) := by
  refine Triple.ite (fun hot => ?_) fun _ => copySlot_spec fresh
  obtain ⟨rfl, -⟩ := hot
  refine Triple.read fun s sofar => ?_
  cases found : if host.evicted e then none else s.hot (cfg.deviceIndex device) e with
  | some cached =>
    have here : s.hot (cfg.deviceIndex device) e = some cached := by
      split at found
      · cases found
      · exact found
    obtain rfl := sofar.inv.hot _ _ _ here
    exact (copySlot_spec fresh).conseq (by rintro _ rfl; exact sofar) (fun _ _ => id)
      fun _ _ => id
  | none =>
    refine Triple.bind ((copySlot_spec fresh).conseq (by rintro _ rfl; exact sofar)
      (fun _ _ => id) fun _ _ => id) fun _ => Triple.modify fun t filled => ?_
    -- what is inserted is read back from the slot that was just written
    obtain ⟨buf, buffers, -, own⟩ := filled.filled e (by simp)
    dsimp only
    split
    · refine ⟨⟨filled.inv.device, filled.inv.empty, filled.inv.slots, ?_⟩, filled.staged,
        filled.recorded, filled.device, filled.shapes, filled.filled⟩
      intro index a w entry
      dsimp only at entry
      by_cases here : index = cfg.deviceIndex device
      · subst here
        rw [Function.update_self] at entry
        by_cases new : a = e
        · subst new
          rw [Function.update_self, buffers] at entry
          exact Option.some_inj.mp (entry.symm.trans own)
        · rw [Function.update_of_ne new] at entry
          exact filled.inv.hot _ _ _ entry
      · rw [Function.update_of_ne here] at entry
        exact filled.inv.hot _ _ _ entry
    · exact filled

lemma Filled.marked (filled : Filled b format experts t) (some_missing : experts ≠ [])
    (there : b.preparedDevice = some device) : Inv { t with
      stagedLocalExperts := t.stagedLocalExperts ∪ experts.toFinset
      preparedDevice := some device
      stagedArenaFormat := format } := by
  obtain ⟨first, member⟩ := List.exists_mem_of_ne_nil experts some_missing
  obtain ⟨buf, buffers, fits, -⟩ := filled.filled first member
  refine ⟨?_, fun none => ?_, fun buf' buffers' e member => ?_, filled.inv.hot⟩
  · exact (there.symm.trans filled.device.symm).trans filled.inv.device
  · cases buffers.symm.trans none
  · obtain rfl := Option.some_inj.mp (buffers.symm.trans buffers')
    refine ⟨?_, fits⟩
    rcases Finset.mem_union.mp member with old | new
    · obtain ⟨own, same⟩ := filled.inv.slots buf buffers e old
      rw [own, ← same, fits]
    · obtain ⟨buf', buffers', -, own⟩ := filled.filled e (List.mem_toFinset.mp new)
      obtain rfl := Option.some_inj.mp (buffers.symm.trans buffers')
      exact own

/-- What is missing of a request: distinct experts that are not staged. -/
structure Missing (b : Staging D n) (experts : List (Fin n)) : Prop where
  nodup : experts.Nodup
  fresh : ∀ e ∈ experts, e ∉ b.stagedLocalExperts

lemma expertIdsForStage_nodup (request : Option (List (Fin n))) :
    (expertIdsForStage cfg request).Nodup := by
  match request with
  | none => exact List.nodup_finRange n
  | some [] => exact List.nodup_nil
  | some (id :: ids) =>
    simp only [expertIdsForStage]
    split
    · exact List.nodup_finRange n
    · exact (List.nodup_finRange n).filter _

lemma missing_spec (request : Option (List (Fin n))) (b : Staging D n) :
    Missing b (missing cfg request b) where
  nodup := (expertIdsForStage_nodup request).filter _
  fresh e member := by simpa using (List.mem_filter.mp member).2

lemma Missing.all (lacks : Missing b experts) (full : experts.length = n) :
    b.stagedLocalExperts = ∅ := by
  have card : experts.toFinset.card = Fintype.card (Fin n) := by
    rw [List.toFinset_card_of_nodup lacks.nodup, full, Fintype.card_fin]
  refine Finset.eq_empty_of_forall_notMem fun e => lacks.fresh e ?_
  rw [← List.mem_toFinset, (Finset.card_eq_iff_eq_univ _).mp card]
  exact Finset.mem_univ e

lemma forM_spec {copy : Fin n → Act D n Unit}
    (each : ∀ done e, e ∉ b.stagedLocalExperts → Triple (Filled b format done) (copy e)
      (fun _ => Filled b format (done ++ [e])) (fun _ => Inv))
    (fresh : ∀ e ∈ experts, e ∉ b.stagedLocalExperts) :
    Triple (Filled b format []) (experts.forM copy) (fun _ => Filled b format experts)
      (fun _ => Inv) :=
  Triple.forM_prefix fun done e rest eq => each done e (fresh e (by simp [eq]))

lemma copyFromCache_spec (lacks : Missing b experts) :
    Triple (Filled b .int8 []) (copyFromCache cfg host experts)
      (fun _ t => (∀ e ∈ experts, host.cached e) ∧ Filled b .int8 experts t)
      (fun _ => Inv) := by
  have each : ∀ done e, e ∉ b.stagedLocalExperts → Triple (Filled b .int8 done)
      (copySlot e ⟨.int8, e⟩) (fun _ => Filled b .int8 (done ++ [e])) (fun _ => Inv) :=
    fun done e fresh => copySlot_spec fresh
  refine Triple.ite (fun _ => ?_) fun _ => ?_
  · cases found : experts.find? (!host.cached ·) with
    | some e => exact Triple.raise fun s sofar => sofar.inv
    | none =>
      have cached : ∀ e ∈ experts, host.cached e := by simpa using List.find?_eq_none.mp found
      refine (Triple.ite (fun full => copyArena_spec (lacks.all full)) fun _ =>
        forM_spec each lacks.fresh).conseq (fun _ => id) (fun _ t filled => ⟨cached, filled⟩)
        fun _ _ => id
  · refine (Triple.forM_prefix (I := fun done t =>
      (∀ e ∈ done, host.cached e) ∧ Filled b .int8 done t) fun done e rest eq => ?_).conseq
      (fun _ sofar => ⟨nofun, sofar⟩) (fun _ _ => id) fun _ _ => id
    refine Triple.given fun cached => Triple.ite (fun here => ?_) fun _ =>
      Triple.raise fun s sofar => sofar.inv
    refine (each done e (lacks.fresh e (by simp [eq]))).conseq (fun _ => id) (fun _ t filled =>
      ⟨fun a member => ?_, filled⟩) fun _ _ => id
    rcases List.mem_append.mp member with old | new
    · exact cached a old
    · exact List.mem_singleton.mp new ▸ here

lemma mem_expertIdsForStage {ids : List (Fin n)} (member : e ∈ ids) :
    e ∈ expertIdsForStage cfg (some ids) := by
  cases ids with
  | nil => cases member
  | cons id ids =>
    simp only [expertIdsForStage]
    split
    · exact List.mem_finRange e
    · exact List.mem_filter.mpr ⟨List.mem_finRange e, by simpa using member⟩

lemma mem_missing {request : Option (List (Fin n))}
    (member : e ∈ expertIdsForStage cfg request) :
    e ∈ b.stagedLocalExperts ∨ e ∈ missing cfg request b := by
  by_cases there : e ∈ b.stagedLocalExperts
  · exact Or.inl there
  · exact Or.inr (List.mem_filter.mpr ⟨member, by simpa using there⟩)

section Calls

variable [DecidableEq D]

/-- A call that stages what is missing: what it keeps and what it adds. -/
structure Added (device : D) (b : Staging D n) (experts : List (Fin n)) (t : Staging D n) :
    Prop where
  inv : Inv t
  there : t.preparedDevice = some device
  staged : t.stagedLocalExperts = kept device b ∪ experts.toFinset

lemma Missing.ensured (lacks : Missing b experts) (inv : Inv b) :
    Missing (b.ensured device format) experts where
  nodup := lacks.nodup
  fresh e member staged :=
    lacks.fresh e member (kept_subset ((inv.ensured_staged : _ = kept device b) ▸ staged))

lemma Filled.added (inv : Inv b) (filled : Filled (b.ensured device format) format experts t)
    (some_missing : experts ≠ []) : Added device b experts { t with
      stagedLocalExperts := t.stagedLocalExperts ∪ experts.toFinset
      preparedDevice := some device
      stagedArenaFormat := format } where
  inv := filled.marked some_missing inv.ensured_device
  there := rfl
  staged := by
    change t.stagedLocalExperts ∪ _ = _
    rw [filled.staged, inv.ensured_staged]

lemma stageArena_spec (inv : Inv b) (lacks : Missing b experts) (some_missing : experts ≠ []) :
    Triple (fun t => t = b) (stageArena cfg host device format experts)
      (fun _ => Added device b experts) (fun _ => Inv) := by
  have lacks' : Missing (b.ensured device format) experts := lacks.ensured inv
  refine Triple.bind (Q := fun _ => Filled (b.ensured device format) format []) ?_ fun _ => ?_
  · refine Triple.modify ?_
    rintro _ rfl
    exact Filled.start inv.ensured
  · refine Triple.bind (Q := fun _ => Filled (b.ensured device format) format experts)
      (Triple.ite (fun full => copyArena_spec (lacks'.all full)) fun _ =>
        forM_spec (fun done e fresh => copyExpert_spec fresh) lacks'.fresh) fun _ => ?_
    exact fun t filled => filled.added inv some_missing

lemma stageWorkspace_spec (inv : Inv b) (lacks : Missing b experts) (some_missing : experts ≠ [])
    (labelled : (∀ e ∈ experts, host.cached e) →
      (b.ensured device .int8).buffers.map (·.format) = some .int8 →
      b.stagedArenaFormat = .int8) :
    Triple (Filled (b.ensured device .int8) .int8 []) (stageWorkspace cfg host device experts)
      (fun _ => Added device b experts) (fun _ => Inv) := by
  refine Triple.bind (copyFromCache_spec (lacks.ensured inv)) fun _ => Triple.modify ?_
  rintro t ⟨cached, filled⟩
  obtain ⟨first, member⟩ := List.exists_mem_of_ne_nil experts some_missing
  obtain ⟨buf, buffers, fits, -⟩ := filled.filled first member
  have int8 : b.stagedArenaFormat = .int8 := labelled cached (by
    rw [← filled.shapes, buffers, Option.map_some, fits])
  have recorded : t.stagedArenaFormat = .int8 :=
    filled.recorded.trans (inv.ensured_format.trans int8)
  have added := filled.added inv some_missing
  rw [← recorded] at added
  exact added

lemma stagePrepared_spec (inv : Inv b) (lacks : Missing b experts) (some_missing : experts ≠ [])
    (labelled : host.prepares experts → (∀ e ∈ experts, host.cached e) →
      ¬ (host.int8ArenaAfter ∧ experts.length = n) →
      (b.ensured device .int8).buffers.map (·.format) = some .int8 →
      b.stagedArenaFormat = .int8) :
    Triple (fun t => t = b) (stagePrepared cfg host device experts)
      (fun _ => Added device b experts) (fun _ => Inv) := by
  have raised (e : Error) : Triple (fun t => t = b) (throw e : Act D n Unit)
      (fun _ => Added device b experts) (fun _ => Inv) :=
    Triple.raise (by rintro _ rfl; exact inv)
  refine Triple.ite (fun _ => raised _) fun prepared => ?_
  refine Triple.ite (fun _ => raised _) fun _ => ?_
  refine Triple.bind (Q := fun _ => Filled (b.ensured device .int8) .int8 []) ?_ fun _ => ?_
  · refine Triple.modify ?_
    rintro _ rfl
    exact Filled.start inv.ensured
  refine Triple.ite (fun whole => ?_) fun parts => ?_
  · refine Triple.bind (Q := fun _ => Filled (b.ensured device .int8) .int8 experts)
      (copyArena_spec ((lacks.ensured inv).all whole.2)) fun _ => ?_
    exact fun t filled => filled.added inv some_missing
  · exact stageWorkspace_spec inv lacks some_missing fun cached =>
      labelled (by simpa using prepared) cached parts

/-- The call copies from the int8 cache, into int8 buffers and without an arena. -/
def usesWorkspace (cfg : Config D) (host : Host n) (device : D) (request : Option (List (Fin n)))
    (preferFp4 : Bool) (b : Staging D n) : Prop :=
  let start := b.refreshed host preferFp4
  let experts := missing cfg request start
  host.extension ∧ experts ≠ [] ∧ ¬ (preferFp4 && host.fp4Arena) ∧ ¬ host.int8Arena ∧
    host.prepares experts ∧ (∀ e ∈ experts, host.cached e) ∧
    ¬ (host.int8ArenaAfter ∧ experts.length = n) ∧
    (start.ensured device .int8).buffers.map (·.format) = some .int8

instance (request : Option (List (Fin n))) (preferFp4 : Bool) :
    Decidable (usesWorkspace cfg host device request preferFp4 b) :=
  inferInstanceAs (Decidable (_ ∧ _))

/-- What a staging call leaves of the state that it starts from. -/
structure StageDone (device : D) (b : Staging D n) (experts : List (Fin n)) (t : Staging D n) :
    Prop where
  inv : Inv t
  nothing : experts = [] → t = b
  there : experts ≠ [] → t.preparedDevice = some device
  staged : experts ≠ [] → t.stagedLocalExperts = kept device b ∪ experts.toFinset

lemma Added.stageDone (some_missing : experts ≠ []) (added : Added device b experts t) :
    StageDone device b experts t where
  inv := added.inv
  nothing none := absurd none some_missing
  there _ := added.there
  staged _ := added.staged

lemma stageMissing_spec {preferFp4 : Bool} (inv : Inv b) (lacks : Missing b experts)
    (labelled : experts ≠ [] → ¬ (preferFp4 && host.fp4Arena) → ¬ host.int8Arena →
      host.prepares experts → (∀ e ∈ experts, host.cached e) →
      ¬ (host.int8ArenaAfter ∧ experts.length = n) →
      (b.ensured device .int8).buffers.map (·.format) = some .int8 →
      b.stagedArenaFormat = .int8) :
    Triple (fun t => t = b) (stageMissing cfg host device preferFp4 experts)
      (fun _ => StageDone device b experts) (fun _ => Inv) := by
  refine Triple.ite (fun none => Triple.pure ?_) fun some_missing => ?_
  · rintro _ rfl
    exact ⟨inv, fun _ => rfl, fun more => absurd none more, fun more => absurd none more⟩
  have added {x : Act D n Unit} (spec : Triple (fun t => t = b) x
      (fun _ => Added device b experts) (fun _ => Inv)) :
      Triple (fun t => t = b) x (fun _ => StageDone device b experts) (fun _ => Inv) :=
    spec.conseq (fun _ => id) (fun _ _ => Added.stageDone some_missing) fun _ _ => id
  refine Triple.ite (fun _ => added (stageArena_spec inv lacks some_missing)) fun noFp4 => ?_
  refine Triple.ite (fun _ => added (stageArena_spec inv lacks some_missing)) fun noInt8 => ?_
  exact added (stagePrepared_spec inv lacks some_missing (labelled some_missing noFp4 noInt8))

lemma stageLocalExperts_spec {request : Option (List (Fin n))} {preferFp4 : Bool} (inv : Inv b)
    (labelled : usesWorkspace cfg host device request preferFp4 b → b.stagedArenaFormat = .int8) :
    Triple (fun t => t = b) (stageLocalExperts cfg host device request preferFp4)
      (fun _ => StageDone device (b.refreshed host preferFp4)
        (missing cfg request (b.refreshed host preferFp4))) (fun _ => Inv) := by
  have inv' : Inv (b.refreshed host preferFp4) := inv.refreshed preferFp4
  refine Triple.bind (Q := fun _ t => t = b.refreshed host preferFp4)
    (Triple.modify (by rintro _ rfl; rfl)) fun _ => ?_
  refine Triple.bind (Q := fun _ t => host.extension ∧ t = b.refreshed host preferFp4)
    (Triple.ite (fun there => Triple.pure fun _ eq => ⟨there, eq⟩)
      fun _ => Triple.raise (by rintro _ rfl; exact inv')) fun _ => Triple.given fun there => ?_
  refine Triple.read ?_
  rintro _ rfl
  refine stageMissing_spec inv' (missing_spec request _) fun more noFp4 noInt8 prepared cached
    parts fits => ?_
  rw [refreshed_format]
  exact labelled ⟨there, more, noFp4, noInt8, prepared, cached, parts, fits⟩

/-- The call keeps what is staged, or copies all routed experts. -/
def bringsBack (cfg : Config D) (host : Host n) (device : D) (request : Option (List (Fin n)))
    (preferFp4 : Bool) (routed : List (Fin n)) (b : Staging D n) : Prop :=
  b.stale host preferFp4 ∨ b.preparedDevice ≠ some device →
    ∀ e ∈ routed, e ∈ missing cfg request (b.refreshed host preferFp4)

instance (request : Option (List (Fin n))) (preferFp4 : Bool) (routed : List (Fin n)) :
    Decidable (bringsBack cfg host device request preferFp4 routed b) :=
  inferInstanceAs (Decidable (_ → _))

/-- The routed experts are staged on the device. -/
structure Ready (device : D) (routed : List (Fin n)) (t : Staging D n) : Prop where
  inv : Inv t
  there : t.preparedDevice = some device
  staged : ∀ e ∈ routed, e ∈ t.stagedLocalExperts

lemma stageRequest_none {single : Bool} {routed : List (Fin n)} (inv : Inv b)
    (none : stageRequest cfg host device single routed b = none) : Ready device routed b := by
  simp only [stageRequest] at none
  split at none
  · cases none
  · rename_i here
    push Not at here
    refine ⟨inv, here.2.1, fun e member => ?_⟩
    split at none
    · split at none
      · rename_i all
        by_contra unstaged
        have listed : e ∈ routed.filter (· ∉ b.stagedLocalExperts) :=
          List.mem_filter.mpr ⟨member, by simpa using unstaged⟩
        rw [all] at listed
        cases listed
      · cases none
    · rename_i many
      have univ : b.stagedLocalExperts = Finset.univ := by
        refine (Finset.card_eq_iff_eq_univ _).mp (le_antisymm (Finset.card_le_univ _) ?_)
        rw [Fintype.card_fin]
        exact Nat.le_of_not_lt many
      rw [univ]
      exact Finset.mem_univ e

lemma stageRequest_some {single preferFp4 : Bool} {routed ids : List (Fin n)}
    (request : stageRequest cfg host device single routed b = some (ids, preferFp4)) :
    ∀ e ∈ routed, e ∈ b.stagedLocalExperts ∨ e ∈ ids := by
  simp only [stageRequest] at request
  intro e member
  split at request
  · obtain ⟨rfl, -⟩ := Prod.mk.injEq _ _ _ _ ▸ Option.some_inj.mp request
    exact Or.inr member
  · split at request
    · split at request
      · cases request
      · obtain ⟨rfl, -⟩ := Prod.mk.injEq _ _ _ _ ▸ Option.some_inj.mp request
        by_cases there : e ∈ b.stagedLocalExperts
        · exact Or.inl there
        · exact Or.inr (List.mem_filter.mpr ⟨member, by simpa using there⟩)
    · cases request

lemma StageDone.ready {preferFp4 : Bool} {routed ids : List (Fin n)}
    (covered : ∀ e ∈ routed, e ∈ b.stagedLocalExperts ∨ e ∈ ids) (some_routed : routed ≠ [])
    (brings : bringsBack cfg host device (some ids) preferFp4 routed b)
    (done : StageDone device (b.refreshed host preferFp4)
      (missing cfg (some ids) (b.refreshed host preferFp4)) t) : Ready device routed t := by
  by_cases drops : b.stale host preferFp4 ∨ b.preparedDevice ≠ some device
  · have all := brings drops
    obtain ⟨first, member⟩ := List.exists_mem_of_ne_nil routed some_routed
    have more := List.ne_nil_of_mem (all first member)
    refine ⟨done.inv, done.there more, fun e member => ?_⟩
    rw [done.staged more]
    exact Finset.mem_union_right _ (List.mem_toFinset.mpr (all e member))
  · push Not at drops
    obtain ⟨fresh, here⟩ := drops
    have same : b.refreshed host preferFp4 = b := if_neg fresh
    rw [same] at done
    have either : ∀ e ∈ routed, e ∈ b.stagedLocalExperts ∨ e ∈ missing cfg (some ids) b := by
      intro e member
      cases covered e member with
      | inl old => exact Or.inl old
      | inr asked => exact mem_missing (mem_expertIdsForStage asked)
    by_cases more : missing cfg (some ids) b = []
    · obtain rfl := done.nothing more
      refine ⟨done.inv, here, fun e member => (either e member).resolve_right ?_⟩
      rw [more]
      exact List.not_mem_nil
    · refine ⟨done.inv, done.there more, fun e member => ?_⟩
      rw [done.staged more, kept, if_pos here, Finset.mem_union, List.mem_toFinset]
      exact either e member

omit [DecidableEq D] in
lemma Ready.sound {routed : List (Fin n)} {buf : Buffers D n} {kernel : Format}
    (ready : Ready device routed t) (some_routed : routed ≠ []) (buffers : t.buffers = some buf) :
    Launch.Sound ⟨kernel, device, t.stagedArenaFormat, t.stagedLocalExperts, buf, routed⟩ where
  format := by
    obtain ⟨first, member⟩ := List.exists_mem_of_ne_nil routed some_routed
    exact (ready.inv.slots buf buffers first (ready.staged first member)).2
  device := by
    have same := ready.inv.device
    rw [ready.there, buffers] at same
    exact (Option.some_inj.mp same).symm
  bytes e member := (ready.inv.slots buf buffers e member).1
  routed := ready.staged

omit [DecidableEq D] in
lemma launch_spec {single : Bool} {routed : List (Fin n)} (some_routed : routed ≠ []) :
    Triple (Ready device routed) (launch cfg device single routed)
      (fun launched t => Inv t ∧ ∀ l, launched = some l → l.Sound) (fun _ => Inv) := by
  refine Triple.read fun s ready => ?_
  rintro t rfl
  cases buffers : t.buffers with
  | none => exact ready.inv
  | some buf =>
    refine ⟨ready.inv, ?_⟩
    rintro _ ⟨⟩
    exact ready.sound some_routed buffers

end Calls

section Runs

variable [DecidableEq D]

/-- The staging call of an operation: device, request and preference. -/
def stageCall (cfg : Config D) (host : Host n) (b : Staging D n) :
    Op D n → Option (D × Option (List (Fin n)) × Bool)
  | .prefetch device preferFp4 =>
    if cfg.isCuda device then some (device, none, preferFp4) else none
  | .prefetchActive device indices =>
    let ids := localIds cfg n indices.flatten
    if cfg.isCuda device ∧ ids ≠ [] then some (device, some ids, true) else none
  | .stage device request preferFp4 => some (device, request, preferFp4)
  | .forward device rows indices =>
    let routed := routedExperts cfg n indices
    if cfg.isCuda device ∧ routed ≠ [] then
      (stageRequest cfg host device (isSingle cfg rows indices) routed b).map fun request =>
        (device, some request.1, request.2)
    else none
  | .release => none

/-- The local experts that an operation's kernel reads. -/
def Op.routed (cfg : Config D) (n : ℕ) : Op D n → List (Fin n)
  | .forward _ _ indices => routedExperts cfg n indices
  | _ => []

/-- The step's staging call does not fall back to the int8 cache while the recorded format is FP4,
and the experts it throws away are not routed or copied again. -/
def Clear (cfg : Config D) (b : Staging D n) (e : Event D n) : Prop :=
  ∀ call ∈ stageCall cfg e.host b e.op,
    (usesWorkspace cfg e.host call.1 call.2.1 call.2.2 b → b.stagedArenaFormat = .int8) ∧
      bringsBack cfg e.host call.1 call.2.1 call.2.2 (e.op.routed cfg n) b

instance (e : Event D n) : Decidable (Clear cfg b e) :=
  inferInstanceAs (Decidable (∀ call ∈ stageCall cfg e.host b e.op, _))

lemma stage_keeps {request : Option (List (Fin n))} {preferFp4 : Bool} (inv : Inv b)
    (labelled : usesWorkspace cfg host device request preferFp4 b → b.stagedArenaFormat = .int8) :
    Triple (fun t => t = b) (stageLocalExperts cfg host device request preferFp4)
      (fun _ => Inv) (fun _ => Inv) :=
  (stageLocalExperts_spec inv labelled).conseq (fun _ => id) (fun _ _ done => done.inv)
    fun _ _ => id

lemma forward_spec {rows : ℕ} {indices : List (List ℤ)} {launched : Option (Launch D n)}
    (inv : Inv b) (clear : Clear cfg b ⟨.forward device rows indices, host, launched⟩) :
    Triple (fun t => t = b) (forward cfg host device rows indices)
      (fun launched t => Inv t ∧ ∀ l, launched = some l → l.Sound) (fun _ => Inv) := by
  have raised (e : Error) : Triple (fun t => t = b)
      (throw e : Act D n (Option (Launch D n)))
      (fun launched t => Inv t ∧ ∀ l, launched = some l → l.Sound) (fun _ => Inv) :=
    Triple.raise (by rintro _ rfl; exact inv)
  refine Triple.ite (fun _ => raised _) fun onCuda => ?_
  refine Triple.bind (Q := fun _ t => t = b) (Triple.ite (fun _ => Triple.pure fun _ => id)
    fun _ => Triple.raise (by rintro _ rfl; exact inv)) fun _ => ?_
  refine Triple.ite (fun _ => Triple.pure ?_) fun some_routed => ?_
  · rintro _ rfl
    exact ⟨inv, nofun⟩
  refine Triple.read ?_
  rintro b rfl
  refine Triple.bind (Q := fun _ => Ready device (routedExperts cfg n indices)) ?_
    fun _ => launch_spec some_routed
  cases request : stageRequest cfg host device (isSingle cfg rows indices)
    (routedExperts cfg n indices) b with
  | none =>
    refine Triple.pure ?_
    rintro _ rfl
    exact stageRequest_none inv request
  | some ask =>
    obtain ⟨ids, preferFp4⟩ := ask
    obtain ⟨labelled, brings⟩ := clear (device, some ids, preferFp4) (by
      simp only [stageCall]
      rw [if_pos ⟨by simpa using onCuda, some_routed⟩, request]
      rfl)
    exact (stageLocalExperts_spec inv labelled).conseq (fun _ => id)
      (fun _ _ done => done.ready (stageRequest_some request) some_routed brings) fun _ _ => id

lemma perform_spec {op : Op D n} {launched : Option (Launch D n)} (inv : Inv b)
    (clear : Clear cfg b ⟨op, host, launched⟩) :
    Triple (fun t => t = b) (perform cfg host op)
      (fun launched t => Inv t ∧ ∀ l, launched = some l → l.Sound) (fun _ => Inv) := by
  -- a staging call alone launches nothing
  have silent {x : Act D n Unit} (spec : Triple (fun t => t = b) x (fun _ => Inv) (fun _ => Inv)) :
      Triple (fun t => t = b) (x >>= fun _ => (pure none : Act D n (Option (Launch D n))))
        (fun launched t => Inv t ∧ ∀ l, launched = some l → l.Sound) (fun _ => Inv) :=
    spec.bind fun _ => Triple.pure fun t inv' => ⟨inv', nofun⟩
  have skip : Triple (fun t => t = b) (pure () : Act D n Unit) (fun _ => Inv) (fun _ => Inv) :=
    Triple.pure (by rintro _ rfl; exact inv)
  cases op with
  | prefetch device preferFp4 =>
    refine silent (Triple.ite (fun onCuda => ?_) fun _ => skip)
    exact stage_keeps inv (clear (device, none, preferFp4) (if_pos onCuda)).1
  | prefetchActive device indices =>
    refine silent (Triple.ite (fun active => ?_) fun _ => skip)
    exact stage_keeps inv (clear (device, _, true) (if_pos active)).1
  | stage device request preferFp4 => exact silent (stage_keeps inv (clear _ rfl).1)
  | forward device rows indices => exact forward_spec inv clear
  | release => exact silent (Triple.modify (by rintro _ rfl; exact inv.released))

lemma step_sound {e : Event D n} {b' : Staging D n} (inv : Inv b) (clear : Clear cfg b e)
    (step : Step cfg b e b') : Inv b' ∧ ∀ l, e.launched = some l → l.Sound := by
  have spec := perform_spec inv clear b rfl
  unfold Step outcome at step
  revert spec step
  cases (perform cfg e.host e.op).run b with
  | ok launched t =>
    rintro ⟨rfl, rfl⟩ after
    exact after
  | error err t =>
    intro eq inv'
    obtain ⟨nothing, rfl⟩ := Prod.mk.injEq _ _ _ _ ▸ eq
    exact ⟨inv', fun l some => nomatch nothing.trans some⟩

/-- In a run whose operations are all clear every kernel reads the bytes it is launched for. -/
theorem launches_sound {trace : List (Staging D n × Event D n)} {last : Staging D n}
    (run : Run (Step cfg) (initial D n) trace last) (clear : Meets (Clear cfg) trace) :
    ∀ x ∈ trace, ∀ l, x.2.launched = some l → l.Sound := by
  have shown : Throughout Inv trace last :=
    run.invariant inv_initial (fun inv here step => (step_sound inv here step).1) clear
  intro x member
  obtain ⟨t, step⟩ := run.step_of_mem x member
  exact (step_sound (shown.1 x member) (clear x member) step).2

end Runs

section Phases

/-- The switches as they are without environment variables, for four local experts. -/
def usual : Config Unit where
  isCuda _ := true
  deviceIndex _ := 0
  expertsStart := 0
  topkLimit := 0
  denseStage := some 3
  hotCache := false
  singleTokenGroup := true
  fp4DirectGrouped := false
  hasSingleTokenInt8 := true
  hasSingleTokenFp4 := true
  hasGroupedFp4 := true

/-- A host with the FP4 arena, maybe the int8 arena, and the int8 weights of expert 0. -/
def withArena (int8Arena : Bool) : Host 4 where
  extension := true
  fp4Arena := true
  int8Arena := int8Arena
  prepares experts := experts.all (· = 0)
  cached e := e = 0
  int8ArenaAfter := int8Arena
  pinned := true
  evicted _ := false
  admits _ := false

/-- A decode step, a prefill of two tokens and a decode step, all for expert 0. -/
def phases (int8Arena : Bool) : List (Op Unit 4 × Host 4) :=
  [(.forward () 1 [[0]], withArena int8Arena), (.forward () 2 [[0], [0]], withArena int8Arena),
    (.forward () 1 [[0]], withArena int8Arena)]

/-- With both arenas every phase has its own format. -/
theorem launches_sound_phases :
    ((replay usual (initial Unit 4) (phases true)).1.map fun x => x.2.launched.map (·.kernel)) =
        [some .fp4, some .int8, some .fp4] ∧
      ∀ x ∈ (replay usual (initial Unit 4) (phases true)).1,
        ∀ l, x.2.launched = some l → l.Sound :=
  ⟨by decide, launches_sound (replay_run usual _ _) (by unfold Meets; decide)⟩

/-- Without the int8 arena the prefill leaves int8 bytes behind that are recorded as FP4, and the
decode step after it launches the FP4 kernel on them. -/
theorem stale_format : ∃ trace last, Run (Step usual) (initial Unit 4) trace last ∧
    ∃ x ∈ trace, ∃ l, x.2.launched = some l ∧ l.kernel = .fp4 ∧ l.buffers.format = .int8 ∧
      ¬ l.Sound := by
  have shown : ((replay usual (initial Unit 4) (phases false)).1[2].2.launched.map fun l =>
      (l.kernel, l.buffers.format, l.recorded)) = some (.fp4, .int8, .fp4) := by decide
  obtain ⟨l, launched, facts⟩ := Option.map_eq_some_iff.mp shown
  simp only [Prod.mk.injEq] at facts
  obtain ⟨kernel, format, recorded⟩ := facts
  exact ⟨_, _, replay_run usual _ (phases false), _, List.getElem_mem _, l, launched, kernel, format,
    fun sound => by rw [sound.format, recorded] at format; cases format⟩

end Phases

end PocketMoE.Backend.GpuStaging
