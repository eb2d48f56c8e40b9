import PocketMoE.Runtime.Generate
import PocketMoE.Runtime.Incremental
import Mathlib.Data.Fintype.Basic

/-!
# What a request reads

Nothing resets the buffers of a model between two requests. Two sessions of the same blocks, each
with what earlier requests left in it, go through the same request side by side. `Alike` says, for a
compressor, a layer and a session, that the same `p` tokens of the request went through both: the
slots that these positions take hold the same keys, and the compressors follow the same tokens. A
call keeps it, and then every index row denotes slots and cells on which both agree, so that both
queries attend the same rows (`Block.Alike.reads`).

What can go wrong is the first group of overlapping windows. Its predecessor's rows are filled in by
a first call that completes the group, while token by token they are whatever the state held.
`Separate` excludes that, and the fused indexer's result for a query that has no cell to select;
`isolated` is the result, and `not_isolated_one` a prompt of one token that is not isolated.
-/

namespace PocketMoE.Runtime
open PocketMoE.Tensor PocketMoE.Ring PocketMoE.Lib

variable {T X Q K : Type} {d : Nat}

/-! ## The window -/

section Window

variable {win startPos seqlen : Nat} {mem mem' : Nat → K}

lemma writeWindow_agree (kv : List K) (agree : Agree win mem mem' startPos) :
    Agree win (writeWindow win mem startPos kv) (writeWindow win mem' startPos kv)
      (startPos + kv.length) := by
  by_cases first : startPos = 0
  · subst first
    intro slot lt le
    rw [Nat.zero_add] at le
    simp only [writeWindow, if_true]
    split_ifs with short
    · exact storeRows_congr fun outside => absurd outside (by omega)
    · have cut : kv.length % win < win := Nat.mod_lt _ (by omega)
      -- the first part of the last window lies behind the cutoff, the second one below it
      refine storeRows_congr fun low => storeRows_congr fun high => ?_
      simp only [length_slice] at low high
      omega
  · simp only [writeWindow, if_neg first]
    exact agree.writeRows kv

lemma mem_maskFuture {entry : Int} {i : Nat} {row : List Int} (some_ : 0 ≤ entry)
    (member : entry ∈ maskFuture win startPos seqlen i row) : entry ∈ row := by
  rw [maskFuture_eq] at member
  obtain ⟨other, inside, rfl⟩ := List.mem_map.mp member
  split_ifs at some_ ⊢ with gone
  · exact absurd some_ (by decide)
  · exact inside

lemma mem_decodeWindowRow {curPos : Nat} {entry : Int} (hw : 0 < win) (some_ : 0 ≤ entry)
    (member : entry ∈ decodeWindowRow win curPos) :
    entry.toNat < win ∧ entry.toNat < curPos + 1 := by
  rw [decodeWindowRow_eq hw] at member
  rcases List.mem_append.mp member with slot | pad
  · obtain ⟨p, inside, rfl⟩ := List.mem_map.mp slot
    rw [mem_windowPositions] at inside
    rw [Int.toNat_natCast]
    exact ⟨Nat.mod_lt p hw, (Nat.mod_le p win).trans_lt (Nat.lt_succ_of_le inside.2)⟩
  · rw [(List.mem_replicate.mp pad).2] at some_
    exact absurd some_ (by decide)

lemma mem_getWindowTopkIdxs {i : Nat} {entry : Int} (hw : 0 < win) (lt : i < seqlen)
    (some_ : 0 ≤ entry)
    (member : entry ∈ ((getWindowTopkIdxs win seqlen startPos)[i]?).getD []) :
    entry.toNat < startPos + seqlen ∧ (startPos ≠ 0 → entry.toNat < win) := by
  by_cases first : startPos = 0
  · subst first
    simp only [getWindowTopkIdxs, if_true, List.getElem?_map, List.getElem?_range lt,
      Option.map_some, Option.getD_some, prefillWindowRow, List.mem_map, List.mem_range] at member
    obtain ⟨j, -, rfl⟩ := member
    refine ⟨?_, fun pos => absurd rfl pos⟩
    split_ifs at some_ ⊢ with late
    · exact absurd some_ (by decide)
    · omega
  · simp only [getWindowTopkIdxs, if_neg first, List.getElem?_map, List.getElem?_range lt,
      Option.map_some, Option.getD_some] at member
    have row : entry ∈ decodeWindowRow win (startPos + i) := by
      split_ifs at member with many
      · exact mem_maskFuture some_ member
      · exact member
    obtain ⟨slot, pos⟩ := mem_decodeWindowRow hw some_ row
    exact ⟨by omega, fun _ => slot⟩

end Window

/-! ## The cells -/

/-- A row whose unmasked entries are among the first `count` cells. -/
def CellRow (offset count : Nat) (row : List Int) : Prop :=
  ∀ entry ∈ row, 0 ≤ entry → ∃ g, g < count ∧ entry.toNat = offset + g

lemma getCompressTopkIdxs_cellRow (ratio offset : Nat) {seqlen startPos i : Nat} (lt : i < seqlen) :
    CellRow offset ((startPos + seqlen) / ratio)
      (((getCompressTopkIdxs ratio seqlen startPos offset)[i]?).getD []) := by
  have count : (startPos + i + 1) / ratio ≤ (startPos + seqlen) / ratio :=
    Nat.div_le_div_right (by omega)
  have plain {m : Nat} (le : m ≤ (startPos + seqlen) / ratio) :
      CellRow offset ((startPos + seqlen) / ratio)
        ((List.range m).map fun c => ((offset + c : Nat) : Int)) := by
    intro entry member _
    obtain ⟨g, inside, rfl⟩ := List.mem_map.mp member
    exact ⟨g, (List.mem_range.mp inside).trans_le le, Int.toNat_natCast _⟩
  simp only [getCompressTopkIdxs]
  split_ifs with first single
  · subst first
    intro entry member some_
    simp only [List.getElem?_map, List.getElem?_range lt, Option.map_some, Option.getD_some,
      List.mem_map, List.mem_range] at member
    obtain ⟨g, inside, rfl⟩ := member
    split_ifs at some_ ⊢ with late
    · exact absurd some_ (by decide)
    · exact ⟨g, by rwa [Nat.zero_add], Int.toNat_natCast _⟩
  · obtain rfl : i = 0 := by omega
    exact plain (by simpa using count)
  · simp only [List.getElem?_map, List.getElem?_range lt, Option.map_some, Option.getD_some]
    intro entry member some_
    rcases List.mem_append.mp member with cell | pad
    · exact plain count entry cell some_
    · rw [(List.mem_replicate.mp pad).2] at some_
      exact absurd some_ (by decide)

namespace Indexer

lemma SelectionExact.cellRow {indexTopk ratio q offset n : Nat} {row : List Int} (hr : 0 < ratio)
    (exact : SelectionExact indexTopk ratio q offset row) (le : q + 1 ≤ n) :
    CellRow offset (n / ratio) row := by
  intro entry member some_
  have unmasked : entry ∈ row.filter (· ≠ -1) := by
    refine List.mem_filter.mpr ⟨member, ?_⟩
    have : entry ≠ -1 := by omega
    simpa using this
  obtain ⟨g, visible, rfl⟩ := exact.2.2 entry unmasked
  rw [visibleCells_eq hr, List.mem_range] at visible
  refine ⟨g, visible.trans_le (Nat.div_le_div_right le), ?_⟩
  rw [Int.toNat_natCast, Nat.add_comm]

variable {C : Type} [LinearOrder K] [Zero K] {ix : Indexer Q C K} {q : List Q} {startPos : Nat}

lemma forward_congr {kvCache kvCache' : Nat → C}
    (same : ∀ g, g < (startPos + q.length) / ix.compressRatio → kvCache g = kvCache' g)
    (offset : Nat) {junk junk' : Int} (written : ix.takesFused startPos q.length →
      min ix.indexTopk ((startPos + 1) / 4) ≠ 0) :
    ix.forward q kvCache startPos offset junk = ix.forward q kvCache' startPos offset junk' := by
  have window : (List.range ((startPos + q.length) / ix.compressRatio)).map kvCache =
      (List.range ((startPos + q.length) / ix.compressRatio)).map kvCache' :=
    List.map_congr_left fun g member => same g (List.mem_range.mp member)
  by_cases fused : ix.takesFused startPos q.length
  · obtain ⟨-, -, single, four⟩ := id fused
    rw [single, four] at same
    simp only [forward, if_pos fused, fusedDecode_eq four, if_neg (written fused)]
    have scores (qi : Q) : ((List.range ((startPos + 1) / 4)).map fun t =>
        ix.fusedScore qi (kvCache t)) = (List.range ((startPos + 1) / 4)).map fun t =>
        ix.fusedScore qi (kvCache' t) :=
      List.map_congr_left fun g member => by rw [same g (List.mem_range.mp member)]
    simp only [scores]
  · simp only [forward, if_neg fused, window]

lemma forward_cellRow {kvCache : Nat → C} {offset : Nat} {junk : Int} {i : Nat}
    (written : ix.takesFused startPos q.length → min ix.indexTopk ((startPos + 1) / 4) ≠ 0)
    (lt : i < q.length) :
    CellRow offset ((startPos + q.length) / ix.compressRatio)
      (((ix.forward q kvCache startPos offset junk)[i]?).getD []) := by
  by_cases fused : ix.takesFused startPos q.length
  · obtain ⟨-, -, single, four⟩ := id fused
    obtain ⟨qi, rfl⟩ := List.length_eq_one_iff.mp single
    obtain rfl : i = 0 := by simpa using lt
    have exact : SelectionExact ix.indexTopk ix.compressRatio startPos offset
        (ix.fusedDecode qi kvCache startPos offset junk) := fusedDecode_exact four (written fused)
    simp only [forward, if_pos fused, List.map_cons, List.getElem?_cons_zero, Option.getD_some]
    exact exact.cellRow ix.ratio_pos le_rfl
  · obtain ⟨row, here, exact⟩ : ∃ row, (ix.forward q kvCache startPos offset junk)[i]? = some row ∧
        SelectionExact ix.indexTopk ix.compressRatio (startPos + i) offset row :=
      plainRow_exact fused lt
    rw [here, Option.getD_some]
    exact exact.cellRow ix.ratio_pos (by omega)

end Indexer

/-! ## The compressors -/

namespace Compressor

variable [Field K] {c : Compressor X K} {s s' : c.State} {p : Nat}

/-- Two states that the same `p` tokens went through, once there is one. -/
def Alike (c : Compressor X K) (p : Nat) (s s' : c.State) : Prop :=
  p ≠ 0 → ∃ (old old' : Nat → Fin c.headDim → K) (seen : List X), seen ≠ [] ∧ seen.length = p ∧
    ∀ tok, (List.range p).map tok = seen → c.Follows tok old s p ∧ c.Follows tok old' s' p

lemma Alike.cell (alike : c.Alike p s s') {g : Nat} (lt : g < p / c.compressRatio) :
    s.kvCache g = s'.kvCache g := by
  have some_ : p ≠ 0 := by
    rintro rfl
    rw [Nat.zero_div] at lt
    exact absurd lt (Nat.not_lt_zero g)
  obtain ⟨old, old', seen, ne, rfl, follows⟩ := alike some_
  obtain ⟨tok, same⟩ := exists_map_range ne
  obtain ⟨here, there⟩ := follows tok same.symm
  rw [here.cells, there.cells, if_pos lt, if_pos lt]

lemma Alike.step (alike : c.Alike p s s') (some_ : p ≠ 0) (x : X) :
    c.Alike (p + 1) (c.step s x p).1 (c.step s' x p).1 := by
  intro _
  obtain ⟨old, old', seen, ne, rfl, follows⟩ := alike some_
  refine ⟨old, old', seen ++ [x], by simp, by simp, fun tok same => ?_⟩
  rw [List.range_succ, List.map_append] at same
  obtain ⟨before, last⟩ := List.append_inj same (by simp)
  obtain rfl : tok seen.length = x := by simpa using last
  exact ⟨step_follows (follows tok before).1, step_follows (follows tok before).2⟩

lemma Alike.steps (alike : c.Alike p s s') (some_ : p ≠ 0) (x : List X) :
    c.Alike (p + x.length) (c.steps s p x) (c.steps s' p x) := by
  induction x generalizing s s' p with
  | nil => exact alike
  | cons x rest ih =>
    rw [List.length_cons, Nat.add_comm rest.length, ← Nat.add_assoc]
    exact ih (alike.step some_ x) (Nat.succ_ne_zero p)

lemma Alike.prefill (s s' : c.State) {x : List X} (ne : x ≠ [])
    (own : c.overlap → c.compressRatio ≤ x.length) :
    c.Alike x.length (c.prefill s x).1 (c.prefill s' x).1 := by
  refine fun _ => ⟨s.kvCache, s'.kvCache, x, ne, rfl, fun tok same => ?_⟩
  rw [← same, List.length_map, List.length_range]
  constructor
  all_goals exact prefill_follows _ tok x.length fun ov short => absurd (own ov) (by omega)

lemma Alike.advance {x : List X} (alike : c.Alike p s s') (ne : x ≠ [])
    (own : p = 0 → c.overlap → c.compressRatio ≤ x.length) :
    c.Alike (p + x.length) (c.advance s p x) (c.advance s' p x) := by
  by_cases first : p = 0
  · subst first
    rw [Nat.zero_add]
    exact Alike.prefill s s' ne (own rfl)
  · simp only [Compressor.advance, if_neg first]
    exact alike.steps first x

end Compressor

/-! ## A layer -/

/-- A call of a request whose first call covers `first` tokens and whose last one ends at `limit` or
before. -/
structure InRequest (first limit startPos seqlen : Nat) : Prop where
  some_ : 0 < seqlen
  opens : startPos = 0 → seqlen = first
  later : startPos ≠ 0 → first ≤ startPos
  fits : startPos + seqlen ≤ limit

namespace Compression

variable [Field K] [LinearOrder K] {m : Compression X Q K d} {first limit p : Nat}
  {s s' : m.State} {x : List X}

/-- A layer keeps a request apart from earlier ones. When windows overlap, its first call has to fill
a group, unless nothing is ever compressed; and then the fused kernel must not be asked. -/
def Separate (first limit : Nat) : Compression X Q K d → Prop
  | none => True
  | static _ _ _ => True
  | indexed _ _ _ ix =>
    4 ≤ first ∨ limit < 4 ∧ (ix.selector.fusedC4IndexerEnabled → limit ≤ first)

/-- Buffers that the same `p` tokens went through, as far as the request reads them. -/
def Alike (limit p : Nat) : (m : Compression X Q K d) → m.State → m.State → Prop
  | none, _, _ => True
  | static c _ _, s, s' => c.Alike p s s'
  | indexed c _ _ ix, s, s' =>
    limit < 4 ∨ c.Alike p s.1 s'.1 ∧ ix.compressor.Alike p s.2.compressor s'.2.compressor

lemma Alike.start : m.Alike limit 0 s s' := by
  cases m with
  | none => trivial
  | static c head apart => exact fun some_ => absurd rfl some_
  | indexed c head ov ix =>
    exact Or.inr ⟨fun some_ => absurd rfl some_, fun some_ => absurd rfl some_⟩

lemma Alike.advance (alike : m.Alike limit p s s') (separate : m.Separate first limit)
    (call : InRequest first limit p x.length) :
    m.Alike limit (p + x.length) (m.advance s p x) (m.advance s' p x) := by
  have ne : x ≠ [] := List.ne_nil_of_length_pos call.some_
  cases m with
  | none => trivial
  | static c head apart => exact Compressor.Alike.advance alike ne fun _ ov => absurd ov apart
  | indexed c head ov ix =>
    rcases alike with short | ⟨here, there⟩
    · exact Or.inl short
    · rcases separate with fills | ⟨short, -⟩
      · right
        exact ⟨here.advance ne fun opens _ => by rw [ov, call.opens opens]; exact fills,
          there.advance ne fun opens _ => by rw [ix.overlap, call.opens opens]; exact fills⟩
      · exact Or.inl short

lemma Alike.cell (alike : m.Alike limit p s s') (fits : p ≤ limit) {g : Nat}
    (lt : g < p / m.compressRatio) : m.cell s g = m.cell s' g := by
  cases m with
  | none => rfl
  | static c head apart => simp only [Compression.cell, Compressor.Alike.cell alike lt]
  | indexed c head ov ix =>
    rcases alike with short | ⟨here, -⟩
    · have lt : g < p / c.compressRatio := lt
      rw [ov] at lt
      omega
    · obtain ⟨s, t⟩ := s
      obtain ⟨s', t'⟩ := s'
      funext j
      exact congrFun (here.cell lt) (j.cast head.symm)

omit [Field K] in
lemma Separate.written {c : Compressor X K} {head : c.headDim = d} {ov : c.overlap}
    {ix : LayerIndexer X Q K} (separate : (indexed c head ov ix).Separate first limit)
    (call : InRequest first limit p x.length) (fused : ix.selector.takesFused p x.length) :
    min ix.selector.indexTopk ((p + 1) / 4) ≠ 0 := by
  obtain ⟨enabled, later, single, -⟩ := fused
  have := call.later later
  have := call.fits
  have := ix.topk_pos
  rcases separate with fills | ⟨-, once⟩
  · omega
  · have := once enabled
    omega

lemma Alike.compressTopkIdxs (alike : m.Alike limit (p + x.length) s s')
    (separate : m.Separate first limit) (call : InRequest first limit p x.length) (offset : Nat) :
    m.compressTopkIdxs s p x offset = m.compressTopkIdxs s' p x offset := by
  cases m with
  | none => rfl
  | static c head apart => rfl
  | indexed c head ov ix =>
    have fits := call.fits
    have len : (x.mapIdx fun i x => ix.query (p + i) x).length = x.length := List.length_mapIdx
    refine Indexer.forward_congr (fun g lt => ?_) offset fun fused =>
      separate.written call (len ▸ fused)
    rw [len, ix.four] at lt
    rcases alike with short | ⟨-, there⟩
    · omega
    · exact there.cell (ix.overlap.symm ▸ lt)

lemma compressTopkIdxs_cellRow (s : m.State) (separate : m.Separate first limit)
    (call : InRequest first limit p x.length) (offset : Nat) {i : Nat} (lt : i < x.length) :
    CellRow offset ((p + x.length) / m.compressRatio)
      (((m.compressTopkIdxs s p x offset)[i]?).getD []) := by
  cases m with
  | none =>
    intro entry member
    simp [Compression.compressTopkIdxs, lt] at member
  | static c head apart => exact getCompressTopkIdxs_cellRow c.compressRatio offset lt
  | indexed c head ov ix =>
    have len : (x.mapIdx fun i x => ix.query (p + i) x).length = x.length := List.length_mapIdx
    rw [show (indexed c head ov ix).compressRatio = 4 from ov, ← ix.four, ← len]
    exact Indexer.forward_cellRow (fun fused => separate.written call (len ▸ fused)) (len.symm ▸ lt)

end Compression

lemma attended_congr {α : Type} {buffer buffer' : Nat → α} {row : List Int}
    (same : ∀ entry ∈ row, 0 ≤ entry → buffer entry.toNat = buffer' entry.toNat) :
    attended buffer row = attended buffer' row := by
  refine List.filterMap_congr fun entry member => ?_
  split_ifs with masked
  · rfl
  · rw [same entry member (by omega)]

namespace Block

variable [Field K] [LinearOrder K] {b : Block X Q K d} {first limit p : Nat} {s s' : b.State}
  {x : List X}

/-- Buffers of a layer that the same `p` tokens went through, as far as the request reads them. -/
structure Alike (b : Block X Q K d) (limit p : Nat) (s s' : b.State) : Prop where
  ring : Agree b.windowSize s.ring s'.ring p
  compressed : b.compression.Alike limit p s.compressed s'.compressed

lemma Alike.write (alike : b.Alike limit p s s') (separate : b.compression.Separate first limit)
    (call : InRequest first limit p x.length) :
    b.Alike limit (p + x.length) (b.write s p x) (b.write s' p x) := by
  refine ⟨?_, alike.compressed.advance separate call⟩
  have len : (b.kvRows p x).length = x.length := List.length_mapIdx
  have rows := writeWindow_agree (b.kvRows p x) alike.ring
  rwa [len] at rows

lemma Alike.start : b.Alike limit 0 s s' :=
  ⟨fun _ _ none_ => absurd none_ (Nat.not_lt_zero _), .start⟩

lemma Alike.window (alike : b.Alike limit (p + x.length) s s') {slot : Nat}
    (lt : slot < p + x.length) (inside : p ≠ 0 → slot < b.windowSize) :
    b.buffer s p x slot = b.buffer s' p x slot := by
  simp only [buffer, keyBuffer]
  by_cases opens : p = 0
  · rw [if_pos opens, if_pos opens, if_pos (by omega), if_pos (by omega)]
  · rw [if_neg opens, if_neg opens, if_pos (inside opens), if_pos (inside opens)]
    exact alike.ring slot (inside opens) lt

lemma Alike.cell (alike : b.Alike limit (p + x.length) s s') (fits : p + x.length ≤ limit) {g : Nat}
    (lt : g < (p + x.length) / b.compression.compressRatio) :
    b.buffer s p x (compressOffset b.windowSize x.length p + g) =
      b.buffer s' p x (compressOffset b.windowSize x.length p + g) := by
  have same := alike.compressed.cell fits lt
  by_cases opens : p = 0
  · have inside : x.length + g < x.length + x.length / b.compression.compressRatio := by
      rw [opens, Nat.zero_add] at lt
      exact Nat.add_lt_add_left lt _
    rw [compressOffset, if_pos opens]
    simp only [buffer, keyBuffer, if_pos opens, if_pos inside, Nat.add_sub_cancel_left, same,
      if_neg (Nat.not_lt.mpr (Nat.le_add_right x.length g))]
  · rw [compressOffset, if_neg opens]
    simp only [buffer, keyBuffer, if_neg opens, Nat.add_sub_cancel_left, same,
      if_neg (Nat.not_lt.mpr (Nat.le_add_right b.windowSize g))]

lemma Alike.reads (alike : b.Alike limit (p + x.length) s s')
    (separate : b.compression.Separate first limit) (call : InRequest first limit p x.length) :
    b.reads s p x = b.reads s' p x := by
  refine List.map_congr_left fun i member => ?_
  have lt := List.mem_range.mp member
  have cells := alike.compressed.compressTopkIdxs separate call
    (compressOffset b.windowSize x.length p)
  have rows : b.topkIdxs s p x i = b.topkIdxs s' p x i := by simp only [topkIdxs, cells]
  rw [← rows]
  refine attended_congr fun entry member some_ => ?_
  rcases List.mem_append.mp member with window | compressed
  · obtain ⟨written, inside⟩ := mem_getWindowTopkIdxs b.windowSize_pos lt some_ window
    exact alike.window written inside
  · obtain ⟨g, complete, here⟩ := Compression.compressTopkIdxs_cellRow s.compressed separate call
      (compressOffset b.windowSize x.length p) lt entry compressed some_
    rw [here]
    exact alike.cell call.fits complete

lemma Alike.forward (alike : b.Alike limit p s s') (separate : b.compression.Separate first limit)
    (call : InRequest first limit p x.length) :
    b.Alike limit (p + x.length) (b.forward s p x).1 (b.forward s' p x).1 ∧
      (b.forward s p x).2 = (b.forward s' p x).2 := by
  have written := alike.write separate call
  refine ⟨written, ?_⟩
  simp only [Block.forward, written.reads separate call]

lemma length_forward (b : Block X Q K d) (s : b.State) (p : Nat) (x : List X) :
    (b.forward s p x).2.1.length = x.length :=
  List.length_mapIdx

end Block

/-! ## A request -/

section Requests

variable [Field K] [LinearOrder K] {first limit p : Nat} {session session' : Session X Q K d}

/-- A layer of two sessions. -/
inductive SlotAlike (first limit p : Nat) : (Σ b : Block X Q K d, b.State) →
    (Σ b : Block X Q K d, b.State) → Prop
  | mk {b : Block X Q K d} {s s' : b.State} :
    b.compression.Separate first limit →
    b.Alike limit p s s' →
    SlotAlike first limit p ⟨b, s⟩ ⟨b, s'⟩

/-- Sessions that the same `p` tokens of a request went through. -/
abbrev SessionAlike (first limit p : Nat) (session session' : Session X Q K d) : Prop :=
  List.Forall₂ (SlotAlike first limit p) session session'

lemma SessionAlike.runLocalLayers (alike : SessionAlike first limit p session session') {x : List X}
    (call : InRequest first limit p x.length) :
    SessionAlike first limit (p + x.length) (Transformer.runLocalLayers p session x).1
        (Transformer.runLocalLayers p session' x).1 ∧
      (Transformer.runLocalLayers p session x).2 = (Transformer.runLocalLayers p session' x).2 := by
  induction alike generalizing x with
  | nil => exact ⟨.nil, rfl⟩
  | cons here _ ih =>
    obtain @⟨b, s, s', separate, alike⟩ := here
    obtain ⟨next, out⟩ := alike.forward separate call
    have len := Block.length_forward b s p x
    obtain ⟨all, last⟩ := ih (len.symm ▸ call)
    simp only [Transformer.runLocalLayers, ← out, last, and_true]
    exact .cons (.mk separate next) (len ▸ all)

variable {m : Transformer T X Q K d}

/-- The pieces of a request from position `p` on. -/
def Pieces (first limit : Nat) : Nat → List (List T) → Prop
  | _, [] => True
  | p, piece :: rest =>
    InRequest first limit p piece.length ∧ Pieces first limit (p + piece.length) rest

lemma SessionAlike.forwardPieces (alike : SessionAlike first limit p session session') (x : List X)
    {pieces : List (List T)} (calls : Pieces first limit p pieces) :
    SessionAlike first limit (p + pieces.flatten.length) (m.forwardPieces session p x pieces).1
        (m.forwardPieces session' p x pieces).1 ∧
      (m.forwardPieces session p x pieces).2 = (m.forwardPieces session' p x pieces).2 := by
  induction pieces generalizing session session' p x with
  | nil => exact ⟨alike, rfl⟩
  | cons piece rest ih =>
    obtain ⟨call, calls⟩ := calls
    rw [← List.length_map m.embed] at call
    obtain ⟨next, out⟩ := alike.runLocalLayers call
    rw [List.length_map] at next
    obtain ⟨all, last⟩ := ih next (m.forward session p piece).2.1 calls
    simp only [Transformer.forward] at all last
    simp only [Transformer.forwardPieces, Transformer.forward, ← out, ← last, and_true]
    rwa [List.flatten_cons, List.length_append, ← Nat.add_assoc]

lemma SessionAlike.loop [DecidableEq T] (r : Request T X)
    (alike : SessionAlike first limit p session session') {pieces : List (List T)} {tokens : List T}
    {left : Nat} (calls : 0 < left → Pieces first limit p pieces)
    (ends : p + pieces.flatten.length = tokens.length) (some_ : 0 < tokens.length)
    (le : first ≤ tokens.length) (fits : tokens.length + left ≤ limit + 1) :
    (m.loop r session p pieces tokens left).2 = (m.loop r session' p pieces tokens left).2 := by
  induction left generalizing session session' p pieces tokens with
  | zero => rfl
  | succ left ih =>
    obtain ⟨next, out⟩ := alike.forwardPieces (m := m) [] (calls (Nat.succ_pos left))
    rw [ends] at next
    simp only [Transformer.loop, ← out]
    cases (m.forwardPieces session p [] pieces).2.1.getLast? with
    | none => rfl
    | some h =>
      dsimp only
      split_ifs with stop
      · rfl
      · have single : 0 < left → Pieces first limit tokens.length [[r.nextToken tokens h]] :=
          fun more => ⟨⟨Nat.one_pos, fun none_ => absurd none_ some_.ne', fun _ => le,
            show tokens.length + 1 ≤ limit from by omega⟩, trivial⟩
        have longer : (tokens ++ [r.nextToken tokens h]).length = tokens.length + 1 := by simp
        have rest := ih next single longer.symm (longer ▸ Nat.succ_pos _) (by omega) (by omega)
        simp only [← rest]

/-! ## The pieces of a prompt -/

/-- How many tokens the first call of a request covers. -/
def Request.firstCall (r : Request T X) : Nat :=
  if r.Chunked then r.prefillChunkTokens else r.prompt.length

omit [LinearOrder K] [Field K] in
lemma pieces_of_flatten {pieces : List (List T)} (ne : ∀ piece ∈ pieces, piece ≠ [])
    (opens : p = 0 → ∀ piece ∈ pieces.head?, piece.length = first)
    (later : p ≠ 0 → first ≤ p) (fits : p + pieces.flatten.length ≤ limit) :
    Pieces first limit p pieces := by
  induction pieces generalizing p with
  | nil => trivial
  | cons piece rest ih =>
    obtain ⟨some_, others⟩ := List.forall_mem_cons.mp ne
    have pos := List.length_pos_of_ne_nil some_
    have here : p = 0 → piece.length = first := fun none_ => opens none_ piece rfl
    rw [List.flatten_cons, List.length_append] at fits
    refine ⟨⟨pos, here, later, by omega⟩, ih others (fun none_ => by omega) (fun _ => ?_) (by omega)⟩
    rcases Nat.eq_zero_or_pos p with none_ | before
    · have := here none_
      omega
    · have := later before.ne'
      omega

namespace Request

lemma flatten_pieces (r : Request T X) : r.pieces.flatten = r.prompt := by
  rw [pieces]
  split_ifs with chunked
  · have all := overChunks_map chunked.2.1 id r.prompt
    rw [List.map_id] at all
    refine Eq.trans ?_ all
    simp only [overChunks, List.map_id, List.flatMap_def]
  · simp

lemma pieces_ne (r : Request T X) : ∀ piece ∈ r.pieces, piece ≠ [] := by
  rw [pieces]
  split_ifs with chunked
  · intro piece member
    obtain ⟨i, inside, rfl⟩ := List.mem_map.mp member
    apply List.ne_nil_of_length_pos
    have lt := List.mem_range.mp inside
    obtain ⟨-, pos, -⟩ := chunked
    rw [Nat.lt_div_iff_mul_lt pos] at lt
    rw [length_slice, Nat.add_mul, Nat.one_mul, Nat.mul_comm i] at *
    omega
  · intro piece member
    rw [List.mem_singleton.mp member]
    exact r.prompt_ne

lemma head_pieces (r : Request T X) : ∀ piece ∈ r.pieces.head?, piece.length = r.firstCall := by
  intro piece member
  rw [pieces] at member
  rw [firstCall]
  split_ifs at member ⊢ with chunked
  · obtain ⟨-, pos, more⟩ := chunked
    have some_ : 0 < (r.prompt.length + r.prefillChunkTokens - 1) / r.prefillChunkTokens :=
      Nat.div_pos (by omega) pos
    obtain ⟨k, count⟩ := Nat.exists_eq_succ_of_ne_zero some_.ne'
    simp only [count, Nat.succ_eq_add_one, List.range_succ_eq_map] at member
    obtain rfl : slice r.prompt (0 * r.prefillChunkTokens) ((0 + 1) * r.prefillChunkTokens) = piece := by
      simpa using member
    rw [length_slice]
    omega
  · obtain rfl : r.prompt = piece := by simpa using member
    rfl

end Request

/-! ## Requests on one model -/

lemma Request.firstCall_le (r : Request T X) : r.firstCall ≤ r.prompt.length := by
  rw [Request.firstCall]
  split_ifs with chunked
  · exact chunked.2.2.le
  · exact le_rfl

lemma SessionAlike.generate [DecidableEq T] {r : Request T X}
    (alike : SessionAlike r.firstCall (m.totalLen r - 1) 0 session session') :
    (m.generate session r).map Prod.snd = (m.generate session' r).map Prod.snd := by
  have some_ := List.length_pos_of_ne_nil r.prompt_ne
  have flat : r.pieces.flatten.length = r.prompt.length := by rw [r.flatten_pieces]
  simp only [Transformer.generate]
  split_ifs with accepted
  · have total : r.prompt.length ≤ m.totalLen r := Nat.le_min.mpr ⟨accepted, Nat.le_add_left _ _⟩
    have calls : 0 < m.totalLen r - r.prompt.length →
        Pieces r.firstCall (m.totalLen r - 1) 0 r.pieces :=
      fun more => pieces_of_flatten r.pieces_ne (fun _ => r.head_pieces)
        (fun absurd_ => absurd rfl absurd_) (by omega)
    have out := alike.loop (m := m) r calls (by omega) some_ r.firstCall_le
      (show r.prompt.length + (m.totalLen r - r.prompt.length) ≤ m.totalLen r - 1 + 1 by omega)
    simp only [Option.map_some, out]
  · rfl

lemma map_fst_runLocalLayers (session : Session X Q K d) (p : Nat) (x : List X) :
    (Transformer.runLocalLayers p session x).1.map Sigma.fst = session.map Sigma.fst := by
  induction session generalizing x with
  | nil => rfl
  | cons slot rest ih => simp only [Transformer.runLocalLayers, List.map_cons, ih]

lemma map_fst_forwardPieces (session : Session X Q K d) (p : Nat) (x : List X)
    (pieces : List (List T)) :
    (m.forwardPieces session p x pieces).1.map Sigma.fst = session.map Sigma.fst := by
  induction pieces generalizing session p x with
  | nil => rfl
  | cons piece rest ih =>
    simp only [Transformer.forwardPieces, ih, Transformer.forward, map_fst_runLocalLayers]

lemma map_fst_loop [DecidableEq T] (r : Request T X) (session : Session X Q K d) (p : Nat)
    (pieces : List (List T)) (tokens : List T) (left : Nat) :
    (m.loop r session p pieces tokens left).1.map Sigma.fst = session.map Sigma.fst := by
  induction left generalizing session p pieces tokens with
  | zero => rfl
  | succ left ih =>
    have before := map_fst_forwardPieces (m := m) session p [] pieces
    simp only [Transformer.loop]
    cases (m.forwardPieces session p [] pieces).2.1.getLast? with
    | none => exact before
    | some h =>
      dsimp only
      split_ifs with stop
      · exact before
      · exact (ih _ _ _ _).trans before

lemma map_fst_serve [DecidableEq T] (session : Session X Q K d) (earlier : List (Request T X)) :
    (m.serve session earlier).map Sigma.fst = session.map Sigma.fst := by
  induction earlier generalizing session with
  | nil => rfl
  | cons r rest ih =>
    rw [Transformer.serve, ih, Transformer.generate]
    split_ifs with accepted
    · exact map_fst_loop r session 0 _ _ _
    · rfl

lemma SessionAlike.start {session session' : Session X Q K d}
    (same : session.map Sigma.fst = session'.map Sigma.fst)
    (separate : ∀ b ∈ session'.map Sigma.fst, b.compression.Separate first limit) :
    SessionAlike first limit 0 session session' := by
  induction session generalizing session' with
  | nil =>
    obtain rfl := List.map_eq_nil_iff.mp same.symm
    exact .nil
  | cons slot rest ih =>
    cases session' with
    | nil => cases same
    | cons slot' rest' =>
      obtain ⟨b, s⟩ := slot
      obtain ⟨b', s'⟩ := slot'
      obtain ⟨here, others⟩ := List.forall_mem_cons.mp separate
      obtain ⟨block, blocks⟩ := List.cons.inj same
      obtain rfl : b = b' := block
      exact .cons (.mk here .start) (ih blocks others)

/-- Whatever requests came before and whatever fresh memory holds: a request attends the same rows and
returns the same completion as on a model that has just been constructed. -/
def Isolated [DecidableEq T] (m : Transformer T X Q K d) (r : Request T X) : Prop :=
  ∀ (junk junk' : Nat → Int) (earlier : List (Request T X)),
    (m.generate (m.serve (m.fresh junk) earlier) r).map Prod.snd =
      (m.generate (m.fresh junk') r).map Prod.snd

/-- A request is isolated when every layer keeps it apart, or when it calls the model not even
once. -/
theorem isolated [DecidableEq T] (m : Transformer T X Q K d) (r : Request T X)
    (apart : m.totalLen r ≤ r.prompt.length ∨
      ∀ b ∈ m.layers, b.compression.Separate r.firstCall (m.totalLen r - 1)) : Isolated m r := by
  intro junk junk' earlier
  rcases apart with none_ | separate
  · simp only [Transformer.generate, Nat.sub_eq_zero_of_le none_, Transformer.loop]
    split_ifs <;> rfl
  · refine SessionAlike.generate (.start (map_fst_serve _ earlier |>.trans ?_) ?_)
    · simp [Transformer.fresh, Function.comp_def]
    · simpa [Transformer.fresh, Function.comp_def] using separate

end Requests

/-! ## A prompt shorter than a group -/

/-- A compressor of overlapping windows that takes the mean of its scored rows. -/
def meanCompressor : Compressor ℚ ℚ where
  compressRatio := 4
  ratio_pos := Compressor.ratio_four_pos
  headDim := 1
  ape := fun _ _ => 0
  wkv := fun x _ => x
  wgate := fun _ _ => 0
  expo := fun _ => 1
  finish := fun _ cell => cell

/-- The layer of such a compressor, with an indexer that takes any cell and a window of four. -/
def meanBlock : Block ℚ Unit ℚ 1 where
  windowSize := 4
  windowSize_pos := Compressor.ratio_four_pos
  compression := .indexed meanCompressor rfl rfl
    { compressor := meanCompressor
      overlap := rfl
      query := fun _ _ => ()
      selector :=
        { compressRatio := 4
          ratio_pos := Compressor.ratio_four_pos
          indexTopk := 8
          prefillChunkTokens := 512
          chunk_pos := Indexer.chunk_512_pos
          fusedC4IndexerEnabled := false
          scoresReduced := false
          score := fun _ _ => 0
          fusedScore := fun _ _ => 0
          topk := .repeatedMax _
          c4Topk := .repeatedMax _ }
      four := rfl
      topk_pos := by decide }
  wkv := fun _ x _ => x
  attend := fun _ x _ => x

/-- A model of one layer. -/
def meanModel : Transformer Nat ℚ Unit ℚ 1 where
  maxSeqLen := 16
  layers := [meanBlock]
  embed := fun t => t

/-- A greedy request for four tokens, all of them 1. -/
def askFour (prompt : List Nat) (prompt_ne : prompt ≠ []) : Request Nat ℚ where
  prompt := prompt
  prompt_ne := prompt_ne
  maxNewTokens := 4
  eosId := 0
  needsLogits := false
  prefillChunkTokens := 0
  nextToken := fun _ _ => 1

/-- A prompt that fills a group. -/
theorem isolated_four : Isolated meanModel (askFour [1, 1, 1, 1] (by decide)) :=
  isolated meanModel _ <| Or.inr fun _ member => by
    rw [List.mem_singleton.mp member]
    exact Or.inl (by decide)

/-- A prompt of one token after a prompt of four: the first cell of the second request averages the
tokens of the first one. -/
theorem not_isolated_one : ¬ Isolated meanModel (askFour [1] (by decide)) := by
  intro isolated
  have same := isolated (fun _ => 0) (fun _ => 0) [askFour [5, 5, 5, 5] (by decide)]
  revert same
  decide +kernel

end PocketMoE.Runtime
