import PocketMoE.Backend.Int8Prepare

/-!
# The pointers of prepared int8 experts

When the flag selects the int8 runner, the tables it passes on have the addresses of every local
expert. That needs two things of each call that prepares: it leaves no local expert out that is not
cached already, and it does not allocate the arena for the shapes of an expert whose parameters were
emptied.
-/

namespace PocketMoE.Backend.Int8Prepare

/-- A full set of tensors, none of them empty. -/
def Held (packed : Six Tensor) : Prop := packed.All fun t => t.isSome = true

lemma Held.dataPtr_ne {packed : Six Tensor} (h : Held packed) :
    (packed.map dataPtr).All (· ≠ 0) := by
  apply Six.All.map
  apply h.imp
  intro t ht
  cases t with
  | none => cases ht
  | some a => exact a.pos

lemma held_map_some (rows : Six Address) : Held (rows.map some) := by
  simp [Held, Six.All, Six.map]

/-- The expert's CPU tensors, or its parameters while those are not made, have their storage. -/
def Expert.HasData (expert : Expert) : Prop :=
  match expert.cpu with
  | some tensors => Held tensors
  | none => Held expert.weights

lemma Expert.HasData.materialize {x : Expert} (h : x.HasData) :
    x.materializeCpuWeights.HasData := by
  unfold Expert.materializeCpuWeights
  cases hc : x.cpu with
  | some tensors => exact h
  | none => simpa [Expert.HasData, hc] using h

lemma Expert.HasData.cpu {x : Expert} (h : x.HasData) :
    Held (x.materializeCpuWeights.cpu.getD x.materializeCpuWeights.weights) := by
  unfold Expert.materializeCpuWeights
  cases hc : x.cpu with
  | some tensors => simpa [Expert.HasData, hc] using h
  | none => simpa [Expert.HasData, hc] using h

/-- Nothing the backend keeps was lost: the experts, the slots of the arena and the cache all have
their storage. -/
structure Data (s : State) : Prop where
  expert : ∀ {e x}, s.experts e = some x → x.HasData
  slot : ∀ {arena}, s.int8Arena = some arena → ∀ i, Held (arena.slot i)
  cached : ∀ {e packed}, s.expertInt8Cache e = some packed → Held packed

/-- No arena will be allocated any more. -/
def Settled (s : State) : Prop := s.int8ArenaEnabled = false ∨ s.int8Arena.isSome = true

/-- What a call that prepares keeps, whatever it finds. -/
structure Extends (s s' : State) : Prop where
  experts : ∀ e, (s'.experts e).isSome = (s.experts e).isSome
  cached : ∀ {e packed}, s.expertInt8Cache e = some packed → s'.expertInt8Cache e = some packed
  ptrs : s'.ptrs = s.ptrs
  prepared : s'.int8WeightsPrepared = s.int8WeightsPrepared
  settled : Settled s → Settled s'

namespace Extends

lemma refl (s : State) : Extends s s := ⟨fun _ => rfl, fun h => h, rfl, rfl, fun h => h⟩

lemma trans {s t u : State} (h : Extends s t) (g : Extends t u) : Extends s u where
  experts e := (g.experts e).trans (h.experts e)
  cached hc := g.cached (h.cached hc)
  ptrs := g.ptrs.trans h.ptrs
  prepared := g.prepared.trans h.prepared
  settled hs := g.settled (h.settled hs)

lemma isSome {s s' : State} (h : Extends s s') {e : ℕ}
    (hc : (s.expertInt8Cache e).isSome = true) : (s'.expertInt8Cache e).isSome = true := by
  obtain ⟨packed, hp⟩ := Option.isSome_iff_exists.mp hc
  rw [h.cached hp]
  rfl

lemma store {s : State} {e : ℕ} (hc : s.expertInt8Cache e = none) (packed : Six Tensor) :
    Extends s (s.store e packed) where
  experts _ := rfl
  cached {i p} hi := by
    have hne : i ≠ e := by
      rintro rfl
      rw [hc] at hi
      cases hi
    simpa [State.store, Function.update_of_ne hne] using hi
  ptrs := rfl
  prepared := rfl
  settled h := h

lemma setExpert {s : State} {e : ℕ} {x : Expert} (hx : s.experts e = some x) (y : Expert) :
    Extends s (s.setExpert e y) where
  experts i := by
    by_cases hi : i = e
    · subst hi
      simp [State.setExpert, hx]
    · simp [State.setExpert, Function.update_of_ne hi]
  cached hc := hc
  ptrs := rfl
  prepared := rfl
  settled h := h

end Extends

namespace Data

lemma store {s : State} (h : Data s) (e : ℕ) {packed : Six Tensor} (hp : Held packed) :
    Data (s.store e packed) where
  expert := h.expert
  slot := h.slot
  cached {i q} hq := by
    by_cases hi : i = e
    · subst hi
      simp only [State.store, Function.update_self, Option.some.injEq] at hq
      rwa [← hq]
    · apply h.cached (e := i)
      simpa [State.store, Function.update_of_ne hi] using hq

lemma setExpert {s : State} (h : Data s) (e : ℕ) {x : Expert} (hx : x.HasData) :
    Data (s.setExpert e x) where
  expert {i y} hy := by
    by_cases hi : i = e
    · subst hi
      simp only [State.setExpert, Function.update_self, Option.some.injEq] at hy
      rwa [← hy]
    · apply h.expert (e := i)
      simpa [State.setExpert, Function.update_of_ne hi] using hy
  slot := h.slot
  cached := h.cached

end Data

section Calls

variable {L : Layer} {host : Host} {s : State}

lemma ensureInt8Arena_cases (L : Layer) (host : Host) (s : State) (packed : Six Tensor) :
    (ensureInt8Arena L host s packed = s ∧ (Settled s ∨ L.rows = 0)) ∨
    (ensureInt8Arena L host s packed = { s with int8ArenaEnabled := false, int8Arena := none } ∧
      ¬ Settled s) ∨
    ∃ rows, ensureInt8Arena L host s packed =
      { s with int8Arena := some (pinnedArena L packed rows) } ∧ ¬ Settled s := by
  unfold ensureInt8Arena Settled
  cases he : s.int8ArenaEnabled with
  | false => simp
  | true =>
    cases ha : s.int8Arena with
    | some arena => simp
    | none =>
      by_cases hr : L.rows = 0
      · simp [hr]
      · cases hp : host.pinned with
        | none => simp [hr]
        | some rows =>
          right
          right
          exact ⟨rows, by simp [hr], by simp⟩

lemma ensureInt8Arena_extends (packed : Six Tensor) :
    Extends s (ensureInt8Arena L host s packed) := by
  rcases ensureInt8Arena_cases L host s packed with
    ⟨h, -⟩ | ⟨h, -⟩ | ⟨rows, h, -⟩
  · rw [h]
    exact Extends.refl s
  · rw [h]
    exact ⟨fun _ => rfl, fun hc => hc, rfl, rfl, fun _ => Or.inl rfl⟩
  · rw [h]
    exact ⟨fun _ => rfl, fun hc => hc, rfl, rfl, fun _ => Or.inr rfl⟩

lemma ensureInt8Arena_settled (hr : 0 < L.rows) (packed : Six Tensor) :
    Settled (ensureInt8Arena L host s packed) := by
  rcases ensureInt8Arena_cases L host s packed with
    ⟨h, hs⟩ | ⟨h, -⟩ | ⟨rows, h, -⟩
  · rw [h]
    rcases hs with hs | hs
    · exact hs
    · omega
  · rw [h]
    exact Or.inl rfl
  · rw [h]
    exact Or.inr rfl

@[simp] lemma ensureInt8Arena_experts (packed : Six Tensor) :
    (ensureInt8Arena L host s packed).experts = s.experts := by
  rcases ensureInt8Arena_cases L host s packed with
    ⟨h, -⟩ | ⟨h, -⟩ | ⟨rows, h, -⟩
  all_goals rw [h]

@[simp] lemma ensureInt8Arena_cache (packed : Six Tensor) :
    (ensureInt8Arena L host s packed).expertInt8Cache = s.expertInt8Cache := by
  rcases ensureInt8Arena_cases L host s packed with
    ⟨h, -⟩ | ⟨h, -⟩ | ⟨rows, h, -⟩
  all_goals rw [h]

lemma pinnedArena_held {template : Six Tensor} (h : Held template) (rows : ℕ → Six Address)
    (i : ℕ) : Held ((pinnedArena L template rows).slot i) := by
  simp only [Held, pinnedArena]
  apply Six.All.map₂ h
  intro t a ht
  cases t with
  | none => cases ht
  | some _ => rfl

lemma ensureInt8Arena_data (L : Layer) (host : Host) (h : Data s) {packed : Six Tensor}
    (hp : ¬ Settled s → Held packed) :
    Data (ensureInt8Arena L host s packed) := by
  rcases ensureInt8Arena_cases L host s packed with
    ⟨he, -⟩ | ⟨he, -⟩ | ⟨rows, he, hs⟩
  · rw [he]
    exact h
  · rw [he]
    refine { expert := h.expert, slot := ?_, cached := h.cached }
    intro arena ha
    cases ha
  · rw [he]
    refine { expert := h.expert, slot := ?_, cached := h.cached }
    intro arena ha i
    cases ha
    exact pinnedArena_held (hp hs) rows i

lemma slotOf_held (h : Data s) {e : ℕ} {slot : Six Tensor}
    (hs : (s.int8Arena.bind fun arena => arena.slotOf L e) = some slot) : Held slot := by
  obtain ⟨arena, ha, hslot⟩ := Option.bind_eq_some_iff.mp hs
  unfold Arena.slotOf at hslot
  split at hslot
  · cases hslot
  · cases hslot
    exact h.slot ha _

lemma storeInt8Cached_cases (L : Layer) (host : Host) (s : State) (e : ℕ) (packed : Six Tensor) :
    ∃ stored, storeInt8Cached L host s e packed =
        (ensureInt8Arena L host s packed).store e stored ∧
      (stored = packed ∨ ((ensureInt8Arena L host s packed).int8Arena.bind
        fun arena => arena.slotOf L e) = some stored) := by
  unfold storeInt8Cached
  cases hb : ((ensureInt8Arena L host s packed).int8Arena.bind fun arena => arena.slotOf L e) with
  | none => exact ⟨packed, by simp [hb], Or.inl rfl⟩
  | some slot =>
    by_cases hc : copies slot packed (host.fits e) = true
    · exact ⟨slot, by simp [hb, hc], Or.inr rfl⟩
    · exact ⟨packed, by simp [hb, hc], Or.inl rfl⟩

lemma storeInt8Cached_extends {e : ℕ} (hc : s.expertInt8Cache e = none) (packed : Six Tensor) :
    Extends s (storeInt8Cached L host s e packed) := by
  obtain ⟨stored, h, -⟩ := storeInt8Cached_cases L host s e packed
  rw [h]
  apply (ensureInt8Arena_extends packed).trans
  apply Extends.store
  rw [ensureInt8Arena_cache]
  exact hc

lemma storeInt8Cached_cached (e : ℕ) (packed : Six Tensor) :
    ((storeInt8Cached L host s e packed).expertInt8Cache e).isSome = true := by
  obtain ⟨stored, h, -⟩ := storeInt8Cached_cases L host s e packed
  simp [h, State.store]

lemma storeInt8Cached_settled (hr : 0 < L.rows) (e : ℕ) (packed : Six Tensor) :
    Settled (storeInt8Cached L host s e packed) := by
  obtain ⟨stored, h, -⟩ := storeInt8Cached_cases L host s e packed
  rw [h]
  exact ensureInt8Arena_settled hr packed

lemma storeInt8Cached_data (h : Data s) (e : ℕ) {packed : Six Tensor} (hp : Held packed) :
    Data (storeInt8Cached L host s e packed) := by
  obtain ⟨stored, hs, hstored⟩ := storeInt8Cached_cases L host s e packed
  have hd : Data (ensureInt8Arena L host s packed) := ensureInt8Arena_data L host h fun _ => hp
  rw [hs]
  apply hd.store
  rcases hstored with rfl | hslot
  · exact hp
  · exact slotOf_held hd hslot

end Calls

section Preparing

variable {L : Layer} {host : Host} {s : State}

/-- The parameters of a local int8 expert that is not cached: what the loop of
`prepare_int8_weights` would copy. -/
def freshWeights (L : Layer) (s : State) (e : ℤ) : Option (Six Tensor) :=
  if e < L.start || L.stop ≤ e then none
  else (s.experts e.toNat).bind fun expert =>
    if expert.dtype = .int8 ∧ expert.ggufRawBacking = false ∧ s.expertInt8Cache e.toNat = none then
      some expert.weights
    else none

/-- The expert whose shapes the arena would be allocated for still has its parameters. -/
def TemplateHeld (L : Layer) (s : State) (ids : List ℤ) : Prop :=
  ¬ Settled s → ∀ weights, ids.findSome? (freshWeights L s) = some weights → Held weights

/-- A local expert that is there. -/
def LocalExpert (L : Layer) (s : State) (e : ℕ) : Prop :=
  L.start ≤ e ∧ e < L.stop ∧ (s.experts e).isSome = true

lemma Extends.localExpert {s' : State} (h : Extends s s') {e : ℕ} :
    LocalExpert L s' e ↔ LocalExpert L s e := by
  simp only [LocalExpert, h.experts e]

lemma materializePrivate_extends {e : ℕ} (hc : s.expertInt8Cache e = none) {x y : Expert}
    (hx : s.experts e = some x) : Extends s (materializePrivate L host s y e) := by
  unfold materializePrivate
  apply (Extends.setExpert hx y.materializeCpuWeights).trans
  apply storeInt8Cached_extends
  exact hc

lemma materializePrivate_data (h : Data s) {x : Expert} (hx : x.HasData) (e : ℕ) :
    Data (materializePrivate L host s x e) := by
  unfold materializePrivate
  apply storeInt8Cached_data
  · exact h.setExpert e hx.materialize
  · exact hx.cpu

lemma reserveArenaSlotInt8_cases (host : Host) (s : State) (hr : 0 < L.rows) (x : Expert) (e : ℕ) :
    Settled (reserveArenaSlotInt8 L host s x e).1 ∧
    Extends s (reserveArenaSlotInt8 L host s x e).1 ∧
    (reserveArenaSlotInt8 L host s x e).1.experts = s.experts ∧
    (reserveArenaSlotInt8 L host s x e).1.expertInt8Cache = s.expertInt8Cache ∧
    (Data s → (¬ Settled s → Held x.weights) →
      Data (reserveArenaSlotInt8 L host s x e).1 ∧
      ∀ slot, (reserveArenaSlotInt8 L host s x e).2 = some slot → Held slot) := by
  unfold reserveArenaSlotInt8
  cases he : s.int8ArenaEnabled with
  | false =>
    refine ⟨Or.inl he, Extends.refl s, rfl, rfl, fun h _ => ⟨h, ?_⟩⟩
    intro slot hs
    cases hs
  | true =>
    refine ⟨ensureInt8Arena_settled hr _, ensureInt8Arena_extends _, ?_, ?_, ?_⟩
    · exact ensureInt8Arena_experts _
    · exact ensureInt8Arena_cache _
    · intro h hx
      have hd := ensureInt8Arena_data L host h hx
      exact ⟨hd, fun slot hs => slotOf_held hd hs⟩

lemma materializeInt8Expert_spec (host : Host) (hr : 0 < L.rows) {e : ℕ}
    (hc : s.expertInt8Cache e = none) {x : Expert} (hx : s.experts e = some x) :
    Extends s (materializeInt8Expert L host s x e) ∧
    Settled (materializeInt8Expert L host s x e) ∧
    ((materializeInt8Expert L host s x e).expertInt8Cache e).isSome = true ∧
    (Data s → (¬ Settled s → Held x.weights) → Data (materializeInt8Expert L host s x e)) := by
  obtain ⟨hset, hext, hexp, hcache, hdata⟩ :=
    reserveArenaSlotInt8_cases host s hr x e
  have hprivate : Extends s (materializePrivate L host (reserveArenaSlotInt8 L host s x e).1 x e) ∧
      Settled (materializePrivate L host (reserveArenaSlotInt8 L host s x e).1 x e) ∧
      ((materializePrivate L host (reserveArenaSlotInt8 L host s x e).1 x e).expertInt8Cache
        e).isSome = true ∧
      (Data s → (¬ Settled s → Held x.weights) →
        Data (materializePrivate L host (reserveArenaSlotInt8 L host s x e).1 x e)) := by
    refine ⟨?_, ?_, storeInt8Cached_cached e _, ?_⟩
    · apply hext.trans
      apply materializePrivate_extends
      · rw [hcache]
        exact hc
      · rw [hexp]
        exact hx
    · exact storeInt8Cached_settled hr e _
    · intro h hw
      exact materializePrivate_data (hdata h hw).1 (h.expert hx) e
  unfold materializeInt8Expert
  cases hres : reserveArenaSlotInt8 L host s x e with
  | mk t slot =>
    rw [hres] at hset hext hexp hcache hdata hprivate
    cases slot with
    | none => exact hprivate
    | some slot =>
      by_cases hcopy : copies slot x.weights (host.fits e) = true
      · simp only [hcopy, if_true]
        have hx' : t.experts e = some x := by rw [hexp]; exact hx
        have hc' : t.expertInt8Cache e = none := by rw [hcache]; exact hc
        refine ⟨?_, hset, by simp [State.store], ?_⟩
        · apply hext.trans
          apply (Extends.setExpert hx' (x.repoint slot)).trans
          apply Extends.store
          exact hc'
        · intro h hw
          obtain ⟨hd, hslot⟩ := hdata h hw
          have hrep : (x.repoint slot).HasData := hslot slot rfl
          exact (hd.setExpert e hrep).store e (hslot slot rfl)
      · simp only [hcopy]
        exact hprivate

end Preparing

section Preparing

variable {L : Layer} {host : Host} {s : State}

/-- One turn of the loop. -/
structure Turn (L : Layer) (s : State) (e : ℕ) (s' : State) (result : Option Bool) : Prop where
  keeps : Extends s s'
  done : result = some true → (s'.expertInt8Cache e).isSome = true
  raised : result = none → s'.expertInt8Cache e = none
  data : Data s → (¬ Settled s → ∀ weights, freshWeights L s e = some weights → Held weights) →
    Data s'
  fresh : Settled s' ∨ (freshWeights L s e = none ∧ freshWeights L s' = freshWeights L s)

lemma freshWeights_local {e : ℕ} (he : L.start ≤ e ∧ e < L.stop) {x : Expert}
    (hx : s.experts e = some x) :
    freshWeights L s e =
      if x.dtype = .int8 ∧ x.ggufRawBacking = false ∧ s.expertInt8Cache e = none then
        some x.weights else none := by
  have h1 : ¬ (e : ℤ) < L.start := by omega
  have h2 : ¬ (L.stop : ℤ) ≤ e := by omega
  simp [freshWeights, h1, h2, hx]

lemma freshWeights_setExpert {e : ℕ} {x y : Expert} (hx : s.experts e = some x)
    (hd : y.dtype = x.dtype) (hg : y.ggufRawBacking = x.ggufRawBacking)
    (hw : y.weights = x.weights) : freshWeights L (s.setExpert e y) = freshWeights L s := by
  funext i
  unfold freshWeights
  congr 1
  by_cases hi : i.toNat = e
  · simp [State.setExpert, hi, hx, hd, hg, hw]
  · simp only [State.setExpert, Function.update_of_ne hi]
    rfl

@[simp] lemma materializeCpuWeights_weights (x : Expert) :
    x.materializeCpuWeights.weights = x.weights := by
  unfold Expert.materializeCpuWeights
  cases x.cpu <;> rfl

@[simp] lemma materializeCpuWeights_dtype (x : Expert) :
    x.materializeCpuWeights.dtype = x.dtype := by
  unfold Expert.materializeCpuWeights
  cases x.cpu <;> rfl

@[simp] lemma materializeCpuWeights_ggufRawBacking (x : Expert) :
    x.materializeCpuWeights.ggufRawBacking = x.ggufRawBacking := by
  unfold Expert.materializeCpuWeights
  cases x.cpu <;> rfl

lemma Turn.unchanged {e : ℕ} {result : Option Bool} (hf : freshWeights L s e = none)
    (hd : result = some true → (s.expertInt8Cache e).isSome = true)
    (hr : result = none → s.expertInt8Cache e = none) : Turn L s e s result where
  keeps := Extends.refl s
  done := hd
  raised := hr
  data h _ := h
  fresh := Or.inr ⟨hf, rfl⟩

lemma prepareExpert_turn (host : Host) {e : ℕ} (he : L.start ≤ e ∧ e < L.stop) {x : Expert}
    (hx : s.experts e = some x) :
    Turn L s e (prepareExpert L host s x e).1 (prepareExpert L host s x e).2 := by
  have hr : 0 < L.rows := by
    unfold Layer.rows
    omega
  have hfresh := freshWeights_local he hx
  unfold prepareExpert
  cases hc : s.expertInt8Cache e with
  | some packed =>
    rw [hc] at hfresh
    simp only [Option.isSome_some, if_true]
    exact Turn.unchanged (by simpa using hfresh) (fun _ => by simp [hc]) (fun h => nomatch h)
  | none =>
    rw [hc] at hfresh
    simp only [Option.isSome_none, Bool.false_eq_true, if_false]
    cases hdt : x.dtype with
    | float4 =>
      have hf : freshWeights L s e = none := by simpa [hdt] using hfresh
      cases hconv : host.fp4Expert e with
      | raised => exact Turn.unchanged hf (fun h => nomatch h) (fun _ => hc)
      | unavailable => exact Turn.unchanged hf (fun h => nomatch h) (fun h => nomatch h)
      | given packed =>
        exact {
          keeps := storeInt8Cached_extends hc _
          done := fun _ => storeInt8Cached_cached e _
          raised := fun h => nomatch h
          data := fun h _ => storeInt8Cached_data h e (held_map_some packed)
          fresh := Or.inl (storeInt8Cached_settled hr e _) }
    | int8 =>
      cases hg : x.ggufRawBacking with
      | true =>
        have hf : freshWeights L s e = none := by simpa [hg] using hfresh
        exact Turn.unchanged hf (fun h => nomatch h) (fun h => nomatch h)
      | false =>
        have hf : freshWeights L s e = some x.weights := by simpa [hdt, hg] using hfresh
        obtain ⟨hext, hset, hcached, hdata⟩ :=
          materializeInt8Expert_spec host hr hc hx
        exact {
          keeps := hext
          done := fun _ => hcached
          raised := fun h => nomatch h
          data := fun h hw => hdata h fun hs => hw hs _ hf
          fresh := Or.inl hset }
    | other =>
      have hf : freshWeights L s e = none := by simpa [hdt] using hfresh
      cases hg : x.ggufRawBacking with
      | true => exact Turn.unchanged hf (fun h => nomatch h) (fun h => nomatch h)
      | false =>
        exact {
          keeps := Extends.setExpert hx _
          done := fun h => nomatch h
          raised := fun h => nomatch h
          data := fun h _ => h.setExpert e (h.expert hx).materialize
          fresh := Or.inr ⟨hf, freshWeights_setExpert hx (by simp) (by simp) (by simp)⟩ }

end Preparing

section Loop

variable {L : Layer} {host : Host} {s : State}

/-- The whole loop of `prepare_int8_weights`. -/
structure Prepared (L : Layer) (s : State) (ok preparedAny : Bool) (ids : List ℤ) (s' : State)
    (result : Option (Bool × Bool)) : Prop where
  keeps : Extends s s'
  data : Data s → TemplateHeld L s ids → Data s'
  ok : ∀ {any}, result = some (true, any) →
    ok = true ∧ ∀ e, LocalExpert L s e → (e : ℤ) ∈ ids → (s'.expertInt8Cache e).isSome = true
  idle : ∀ {ok'}, result = some (ok', false) → preparedAny = false ∧ s' = s
  raised : result = none → ∃ e, LocalExpert L s' e ∧ s'.expertInt8Cache e = none

lemma Prepared.skip {ok preparedAny : Bool} {e : ℤ} {ids : List ℤ} {s' : State}
    {result : Option (Bool × Bool)} (h : Prepared L s ok preparedAny ids s' result)
    (hf : freshWeights L s e = none) (he : ∀ i : ℕ, LocalExpert L s i → (i : ℤ) ≠ e) :
    Prepared L s ok preparedAny (e :: ids) s' result where
  keeps := h.keeps
  data hd ht := by
    apply h.data hd
    intro hs weights hw
    apply ht hs weights
    simpa [List.findSome?_cons, hf] using hw
  ok hr := by
    obtain ⟨hok, hall⟩ := h.ok hr
    refine ⟨hok, fun i hi hmem => hall i hi ?_⟩
    rcases List.mem_cons.mp hmem with rfl | hmem
    · exact absurd rfl (he i hi)
    · exact hmem
  idle := h.idle
  raised := h.raised

lemma Prepared.turn {ok preparedAny done : Bool} {e : ℕ} {ids : List ℤ} {t s' : State}
    {result : Option (Bool × Bool)} (ht : Turn L s e t (some done))
    (h : Prepared L t (done && ok) true ids s' result) :
    Prepared L s ok preparedAny (e :: ids) s' result where
  keeps := ht.keeps.trans h.keeps
  data hd hw := by
    apply h.data
    · apply ht.data hd
      intro hs weights hf
      exact hw hs weights (by simp [hf])
    · intro hs weights hf
      rcases ht.fresh with hset | ⟨hnone, hsame⟩
      · exact absurd hset hs
      · rw [hsame] at hf
        apply hw (fun hset => hs (ht.keeps.settled hset)) weights
        simpa [List.findSome?_cons, hnone] using hf
  ok hr := by
    obtain ⟨hok, hall⟩ := h.ok hr
    rw [Bool.and_eq_true] at hok
    obtain ⟨rfl, hok⟩ := hok
    refine ⟨hok, fun i hi hmem => ?_⟩
    rcases List.mem_cons.mp hmem with heq | hmem
    · obtain rfl : i = e := by omega
      exact h.keeps.isSome (ht.done rfl)
    · exact hall i (ht.keeps.localExpert.mpr hi) hmem
  idle hr := absurd (h.idle hr).1 (by simp)
  raised := h.raised

lemma prepareEach_prepared (L : Layer) (host : Host) (s : State) (ok preparedAny : Bool)
    (ids : List ℤ) :
    Prepared L s ok preparedAny ids (prepareEach L host s ok preparedAny ids).1
      (prepareEach L host s ok preparedAny ids).2 := by
  induction ids generalizing s ok preparedAny with
  | nil =>
    simp only [prepareEach]
    refine ⟨Extends.refl s, fun hd _ => hd, ?_, ?_, fun h => nomatch h⟩
    · intro any h
      cases h
      exact ⟨rfl, fun e _ hmem => nomatch hmem⟩
    · intro ok' h
      cases h
      exact ⟨rfl, rfl⟩
  | cons e ids ih =>
    by_cases hout : e < L.start ∨ (L.stop : ℤ) ≤ e
    · have hskip : prepareEach L host s ok preparedAny (e :: ids) =
          prepareEach L host s ok preparedAny ids := by
        simp [prepareEach, hout]
      rw [hskip]
      apply (ih s ok preparedAny).skip
      · simp [freshWeights, hout]
      · intro i hi
        obtain ⟨h1, h2, -⟩ := hi
        omega
    · obtain ⟨n, rfl⟩ : ∃ n : ℕ, e = n := ⟨e.toNat, by omega⟩
      have hin : L.start ≤ n ∧ n < L.stop := by omega
      have hlo : ¬ n < L.start := by omega
      have hhi : ¬ L.stop ≤ n := by omega
      cases hx : s.experts n with
      | none =>
        have hskip : prepareEach L host s ok preparedAny (n :: ids) =
            prepareEach L host s ok preparedAny ids := by
          simp [prepareEach, hx]
        rw [hskip]
        apply (ih s ok preparedAny).skip
        · simp [freshWeights, hx]
        · intro i hi heq
          obtain rfl : i = n := by omega
          obtain ⟨-, -, hsome⟩ := hi
          rw [hx] at hsome
          cases hsome
      | some x =>
        have hturn := prepareExpert_turn host hin hx
        cases hone : prepareExpert L host s x n with
        | mk t result =>
          rw [hone] at hturn
          cases result with
          | none =>
            have heq : prepareEach L host s ok preparedAny (n :: ids) = (t, none) := by
              simp [prepareEach, hlo, hhi, hx, hone]
            rw [heq]
            refine ⟨hturn.keeps, ?_, fun h => (nomatch h), fun h => (nomatch h), ?_⟩
            · intro hd hw
              apply hturn.data hd
              intro hs weights hf
              exact hw hs weights (by simp [hf])
            · intro _
              refine ⟨n, ?_, hturn.raised rfl⟩
              rw [hturn.keeps.localExpert]
              exact ⟨hin.1, hin.2, by simp [hx]⟩
          | some done =>
            have heq : prepareEach L host s ok preparedAny (n :: ids) =
                prepareEach L host t (done && ok) true ids := by
              simp [prepareEach, hlo, hhi, hx, hone]
            rw [heq]
            exact Prepared.turn hturn (ih t (done && ok) true)

end Loop

section Runs

variable {L : Layer} {host : Host} {s : State}

/-- The tables have the addresses of the tensors the expert is cached with, and none is null. -/
def Current (s : State) (e : ℕ) : Prop :=
  ∃ tables packed, s.ptrs = some tables ∧ s.expertInt8Cache e = some packed ∧
    tables.map (fun table => table e) = packed.map dataPtr ∧
    (tables.map fun table => table e).All (· ≠ 0)

/-- Every local expert is cached. -/
def Complete (L : Layer) (s : State) : Prop :=
  ∀ e, LocalExpert L s e → (s.expertInt8Cache e).isSome = true

/-- What holds after any calls. The tables can only be behind the cache while an expert is missing
from it. -/
structure Inv (L : Layer) (s : State) : Prop where
  data : Data s
  complete : s.int8WeightsPrepared = true → Complete L s
  tables : Complete L s → ∀ {tables}, s.ptrs = some tables → ∀ {e packed},
    s.expertInt8Cache e = some packed → tables.map (fun table => table e) = packed.map dataPtr

lemma refreshInt8Ptrs_row {e : ℕ} {packed : Six Tensor}
    (hc : s.expertInt8Cache e = some packed) {tables : Six (ℕ → ℕ)}
    (ht : (refreshInt8Ptrs s).ptrs = some tables) :
    tables.map (fun table => table e) = packed.map dataPtr := by
  cases ht
  simp [Six.map, hc]

lemma Inv.current (h : Inv L s) (hp : s.int8WeightsPrepared = true) {e : ℕ}
    (he : LocalExpert L s e) (hs : s.ptrs.isSome = true) : Current s e := by
  obtain ⟨packed, hc⟩ := Option.isSome_iff_exists.mp (h.complete hp e he)
  obtain ⟨tables, ht⟩ := Option.isSome_iff_exists.mp hs
  have hrow := h.tables (h.complete hp) ht hc
  refine ⟨tables, packed, ht, hc, hrow, ?_⟩
  rw [hrow]
  exact (h.data.cached hc).dataPtr_ne

lemma Inv.refresh (h : Data s) (prepared : Bool) (hp : prepared = true → Complete L s) :
    Inv L { refreshInt8Ptrs s with int8WeightsPrepared := prepared } where
  data := ⟨h.expert, h.slot, h.cached⟩
  complete := hp
  tables _ _ ht _ _ hc := refreshInt8Ptrs_row (s := s) hc ht

lemma Data.release (h : Data s) : Data (releaseInt8PrepareCache s) where
  expert := h.expert
  slot ha := nomatch ha
  cached hc := nomatch hc

lemma Inv.release (h : Inv L s) : Inv L (releaseInt8PrepareCache s) where
  data := h.data.release
  complete hp := nomatch hp
  tables _ _ ht := nomatch ht

lemma Inv.ready (h : Inv L s) (reached : ℕ) (enabled : Bool) :
    Inv L (ensureNativeReady s reached enabled) := by
  have hlocal : ∀ e, LocalExpert L (ensureNativeReady s reached enabled) e ↔ LocalExpert L s e := by
    intro e
    unfold LocalExpert ensureNativeReady
    by_cases he : e < reached
    · simp [he]
    · simp [he]
  have hcomplete : Complete L (ensureNativeReady s reached enabled) ↔ Complete L s := by
    simp only [Complete, hlocal]
    rfl
  refine ⟨⟨?_, h.data.slot, h.data.cached⟩, ?_, ?_⟩
  · intro e x hx
    unfold ensureNativeReady at hx
    by_cases he : e < reached
    · simp only [he, if_true, Option.map_eq_some_iff] at hx
      obtain ⟨y, hy, rfl⟩ := hx
      exact (h.data.expert hy).materialize
    · simp only [he, if_false] at hx
      exact h.data.expert hx
  · intro hp
    exact hcomplete.mpr (h.complete hp)
  · intro hc
    exact h.tables (hcomplete.mp hc)

/-- A call that prepares, from a state it may start from. -/
def Safe (L : Layer) (s : State) : Step → Prop
  | .prepare _ expertIds =>
    hasGgufRawExperts L s = true ∨
      ((∀ e, LocalExpert L s e → (s.expertInt8Cache e).isSome = true ∨
          ∀ ids, expertIds = some ids → (e : ℤ) ∈ ids) ∧
        TemplateHeld L s (expertIds.getD (L.ids.map Int.ofNat)))
  | _ => True

lemma getInt8Arena_complete (h : (getInt8Arena L s).isSome = true) : Complete L s := by
  intro e he
  obtain ⟨arena, ha⟩ := Option.isSome_iff_exists.mp h
  unfold getInt8Arena at ha
  split at ha
  · rw [Option.filter_eq_some_iff, Bool.and_eq_true] at ha
    obtain ⟨-, hall, -⟩ := ha
    have hcached := List.all_eq_true.mp hall e (Layer.mem_ids.mpr ⟨he.1, he.2.1⟩)
    cases hc : s.expertInt8Cache e with
    | none => simp [hc] at hcached
    | some packed => rfl
  · cases ha

lemma gpuConvertFp4ArenaToInt8_cases (L : Layer) (host : Host) (s : State) :
    (∃ result, gpuConvertFp4ArenaToInt8 L host s = (s, result) ∧ result ≠ some true) ∨
    ∃ t, gpuConvertFp4ArenaToInt8 L host s = (t, some true) ∧ Complete L t ∧
      (Data s → Data t) := by
  unfold gpuConvertFp4ArenaToInt8
  cases hostArena : host.fp4Arena with
  | raised => exact Or.inl ⟨none, rfl, by simp⟩
  | unavailable => exact Or.inl ⟨some false, rfl, by simp⟩
  | given rows =>
    refine Or.inr ⟨_, rfl, ?_, ?_⟩
    · intro e he
      have hmem : e ∈ L.ids := Layer.mem_ids.mpr ⟨he.1, he.2.1⟩
      simp [hmem]
    · intro hd
      refine { expert := hd.expert, slot := ?_, cached := ?_ }
      · intro arena ha i
        cases ha
        exact held_map_some (rows i)
      · intro e packed hc
        by_cases hmem : e ∈ L.ids
        · simp only [hmem, if_true, Option.some.injEq] at hc
          rw [← hc]
          exact held_map_some _
        · simp [hmem] at hc

lemma Inv.listed (h : Inv L s) {ids : List ℤ}
    (hcover : ∀ e, LocalExpert L s e → (s.expertInt8Cache e).isSome = true ∨ (e : ℤ) ∈ ids)
    (htemplate : TemplateHeld L s ids) :
    Inv L (prepareListed L host s ids).1 := by
  have hloop := prepareEach_prepared L host s true false ids
  unfold prepareListed
  cases hres : prepareEach L host s true false ids with
  | mk t result =>
    rw [hres] at hloop
    have hdata : Data t := hloop.data h.data htemplate
    cases result with
    | none =>
      obtain ⟨e, he, hnone⟩ := hloop.raised rfl
      refine ⟨hdata, ?_, ?_⟩
      · intro hp i hi
        rw [hloop.keeps.prepared] at hp
        exact hloop.keeps.isSome (h.complete hp i (hloop.keeps.localExpert.mp hi))
      · intro hc
        have hsome := hc e he
        rw [hnone] at hsome
        cases hsome
    | some flags =>
      obtain ⟨ok, preparedAny⟩ := flags
      have hcomplete : ok = true → Complete L t := by
        rintro rfl i hi
        obtain ⟨-, hall⟩ := hloop.ok rfl
        have hi' := hloop.keeps.localExpert.mp hi
        rcases hcover i hi' with hc | hmem
        · exact hloop.keeps.isSome hc
        · exact hall i hi' hmem
      cases preparedAny with
      | true =>
        apply Inv.refresh hdata
        intro hp
        rw [Bool.and_eq_true] at hp
        exact hcomplete hp.2
      | false =>
        obtain ⟨-, rfl⟩ := hloop.idle rfl
        refine ⟨⟨hdata.expert, hdata.slot, hdata.cached⟩, ?_, h.tables⟩
        intro hp
        simp only [Bool.false_eq_true, if_false, Bool.and_eq_true] at hp
        exact hcomplete hp.2

lemma Inv.prepare (h : Inv L s) {expertIds : Option (List ℤ)}
    (hsafe : Safe L s (.prepare host expertIds)) :
    Inv L (prepareInt8Weights L host s expertIds).1 := by
  unfold prepareInt8Weights
  by_cases hgguf : hasGgufRawExperts L s = true
  · simp only [hgguf, if_true]
    exact h.release
  · obtain ⟨hcover, htemplate⟩ := hsafe.resolve_left hgguf
    simp only [hgguf]
    cases expertIds with
    | some ids =>
      simp only [Option.isNone_some, Bool.false_and, Bool.false_eq_true, if_false, Option.getD_some]
      apply h.listed _ htemplate
      intro e he
      exact (hcover e he).imp id fun hall => hall ids rfl
    | none =>
      simp only [Option.isNone_none, Bool.true_and, Bool.false_eq_true, if_false, if_true,
        Option.getD_none]
      have hids : ∀ e, LocalExpert L s e → (s.expertInt8Cache e).isSome = true ∨
          (e : ℤ) ∈ L.ids.map Int.ofNat := by
        intro e he
        exact Or.inr (List.mem_map.mpr ⟨e, Layer.mem_ids.mpr ⟨he.1, he.2.1⟩, rfl⟩)
      by_cases harena : (getInt8Arena L s).isSome = true
      · simp only [harena, if_true]
        exact Inv.refresh h.data true fun _ => getInt8Arena_complete harena
      · simp only [harena]
        rcases gpuConvertFp4ArenaToInt8_cases L host s with
          ⟨result, hconv, hne⟩ | ⟨t, hconv, hc, hdata⟩
        · rw [hconv]
          cases result with
          | none => exact h
          | some converted =>
            cases converted with
            | true => exact absurd rfl hne
            | false => exact h.listed hids htemplate
        · rw [hconv]
          exact Inv.refresh (hdata h.data) true fun _ => hc

lemma Inv.step (h : Inv L s) {a : Step} (hsafe : Safe L s a) : Inv L (step L s a) := by
  cases a with
  | prepare host expertIds => exact h.prepare hsafe
  | release => exact h.release
  | ready reached enabled => exact h.ready reached enabled

/-- Every step of the run is safe where it is taken. -/
def SafeRun (L : Layer) (s : State) : List Step → Prop
  | [] => True
  | a :: steps => Safe L s a ∧ SafeRun L (step L s a) steps

lemma Inv.run (h : Inv L s) {steps : List Step} (hsafe : SafeRun L s steps) :
    Inv L (run L s steps) := by
  induction steps generalizing s with
  | nil => exact h
  | cons a steps ih => exact ih (h.step hsafe.1) hsafe.2

/-- A backend after loading: nothing prepared yet, and no weights lost. The loader may have bound
experts to the arena already. -/
structure Loaded (s : State) : Prop where
  data : Data s
  prepared : s.int8WeightsPrepared = false
  ptrs : s.ptrs = none

lemma Loaded.inv (h : Loaded s) : Inv L s where
  data := h.data
  complete hp := by
    rw [h.prepared] at hp
    cases hp
  tables _ tables ht := by
    rw [h.ptrs] at ht
    cases ht

/-- The pointers of a local expert when the int8 runner is selected: the runner refreshes the tables
before it passes them on, and tables that are there were current already. -/
def PointersReady (s : State) (e : ℕ) : Prop :=
  Current (refreshInt8Ptrs s) e ∧ (s.ptrs.isSome = true → Current s e)

/-- In every run of safe steps, whenever the flag selects the int8 runner, every local expert has
its six pointers. -/
theorem prepared_pointers (L : Layer) {s : State} (hs : Loaded s) {steps : List Step}
    (hsafe : SafeRun L s steps) (hrun : shouldRunInt8Native (run L s steps) = true) (e : ℕ)
    (he : LocalExpert L (run L s steps) e) : PointersReady (run L s steps) e := by
  have hinv : Inv L (Int8Prepare.run L s steps) := hs.inv.run hsafe
  have hp : (Int8Prepare.run L s steps).int8WeightsPrepared = true := by
    unfold shouldRunInt8Native at hrun
    rw [Bool.and_eq_true] at hrun
    exact hrun.1
  refine ⟨?_, fun hsome => hinv.current hp he hsome⟩
  have hrefresh := Inv.refresh hinv.data true fun _ => hinv.complete hp
  obtain ⟨tables, packed, ht, hc, hrow⟩ := hrefresh.current rfl he rfl
  exact ⟨tables, packed, ht, hc, hrow⟩

/-- Weights with storage, and a backend with two int8 experts whose arena is switched off. -/
def someWeights : Six Tensor :=
  let a : Tensor := some ⟨1, by decide⟩
  ⟨a, a, a, a, a, a⟩

def twoExperts (arena : Bool) : State where
  experts e := if e < 2 then some ⟨.int8, false, someWeights, none⟩ else none
  nativeInt8Enabled := true
  ptrs := none
  expertInt8Cache _ := none
  int8WeightsPrepared := false
  int8ArenaEnabled := arena
  int8Arena := none

def plainHost : Host where
  pinned := some fun i => (⟨⟨i + 1, by simp⟩, ⟨i + 1, by simp⟩, ⟨i + 1, by simp⟩, ⟨i + 1, by simp⟩,
    ⟨i + 1, by simp⟩, ⟨i + 1, by simp⟩⟩ : Six Address)
  fits _ := true
  fp4Expert _ := .unavailable
  fp4Arena := .unavailable

lemma twoExperts_loaded (arena : Bool) : Loaded (twoExperts arena) where
  data := {
    expert := by
      intro e x hx
      simp only [twoExperts] at hx
      split at hx
      · cases hx
        exact ⟨rfl, rfl, rfl, rfl, rfl, rfl⟩
      · cases hx
    slot := fun ha => nomatch ha
    cached := fun hc => nomatch hc }
  prepared := rfl
  ptrs := rfl

theorem prepared_pointers_two :
    PointersReady (run ⟨0, 2⟩ (twoExperts false) [.prepare plainHost none]) 1 := by
  refine prepared_pointers ⟨0, 2⟩ (twoExperts_loaded false) ?_ ?_ 1 ?_
  · refine ⟨Or.inr ⟨fun e _ => Or.inr fun ids h => (nomatch h), ?_⟩, trivial⟩
    intro hs
    exact absurd (Or.inl rfl) hs
  · decide
  · exact ⟨by decide, by decide, by decide⟩

/-- Preparing one expert for the GPU sets the flag, and the CPU runner has null pointers for the
other. -/
theorem prepared_pointers_partial :
    ¬ ∀ (L : Layer) (s : State), Loaded s → ∀ steps : List Step,
      shouldRunInt8Native (run L s steps) = true → ∀ e, LocalExpert L (run L s steps) e →
        PointersReady (run L s steps) e := by
  intro h
  have hready := h ⟨0, 2⟩ (twoExperts false) (twoExperts_loaded false)
    [.prepare plainHost (some [0])] (by decide) 1 ⟨by decide, by decide, by decide⟩
  obtain ⟨⟨tables, packed, -, hc, -⟩, -⟩ := hready
  cases hc

/-- After a release a full call copies the emptied parameters into an arena of empty slots. -/
example : ((run ⟨0, 2⟩ (twoExperts true)
    [.prepare plainHost none, .release, .prepare plainHost none]).ptrs.map
      fun tables => tables.map fun table => table 1) = some ⟨0, 0, 0, 0, 0, 0⟩ := by
  rfl

end Runs

end PocketMoE.Backend.Int8Prepare
