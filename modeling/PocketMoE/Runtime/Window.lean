import PocketMoE.Lib.Ring
import PocketMoE.Lib.Tensor

/-!
# Window attention

Model of the sliding-window half of `Attention.forward` and of `get_window_topk_idxs`
(`runtime.py`). Rows of a batch are treated alike, so one batch row is modelled. `K` is the type of
the keys (`kv` rows); the ring cache is the first `window_size` rows of `Attention.kv_cache`.

`windowKeys` resolves an index row against the buffer that `sparse_attn` is given: the keys of the
chunk itself at position 0, the ring cache afterwards, as it stands once the whole chunk has been
written. `Written` is what the earlier calls of a request leave in the ring.

The main result is `windowKeys_eq`: the row of position `q` denotes the keys of the positions
`q - w + 1 .. q` that no later position of the chunk has overwritten.
-/

namespace PocketMoE.Runtime
open PocketMoE.Tensor PocketMoE.Ring

/-! ## The index rows -/

/-- Row of a query in a prefill that starts at position 0 (`get_window_topk_idxs`, first branch). -/
def prefillWindowRow (windowSize seqlen base : Nat) : List Int :=
  (List.range (min seqlen windowSize)).map fun j : Nat =>
    let entry : Int := max ((base : Int) - windowSize + 1) 0 + (j : Int)
    if entry > base then -1 else entry

/-- Row of a query at a positive position, before the later slots are masked. -/
def decodeWindowRow (windowSize curPos : Nat) : List Int :=
  if windowSize - 1 ≤ curPos then
    let cur := curPos % windowSize
    (List.range' (cur + 1) (windowSize - (cur + 1)) ++ List.range (cur + 1)).map Int.ofNat
  else
    (List.range (curPos + 1)).map Int.ofNat ++ List.replicate (windowSize - curPos - 1) (-1)

/-- `torch.where(row == future_slot, -1, row)`. -/
def maskSlot (slot : Nat) (row : List Int) : List Int :=
  row.map fun entry : Int => if entry = slot then -1 else entry

/-- Mask the slots of the positions that come after query `i` in the same chunk. -/
def maskFuture (windowSize startPos seqlen i : Nat) (row : List Int) : List Int :=
  (List.range' (i + 1) (seqlen - (i + 1))).foldl
    (fun row j => maskSlot ((startPos + j) % windowSize) row) row

/-- The index matrix of a chunk (`get_window_topk_idxs`). -/
def getWindowTopkIdxs (windowSize seqlen startPos : Nat) : List (List Int) :=
  if startPos = 0 then
    (List.range seqlen).map (prefillWindowRow windowSize seqlen)
  else
    (List.range seqlen).map fun i =>
      let row := decodeWindowRow windowSize (startPos + i)
      if 1 < seqlen then maskFuture windowSize startPos seqlen i row else row

/-! ## The ring cache -/

variable {K : Type}

/-- The window write of `Attention.forward`: the last `win` keys of a prefill, rotated so that
position `p` lands in slot `p % win`, or the keys of a later chunk one position after another. -/
def writeWindow (win : Nat) (kvCache : Nat → K) (startPos : Nat) (kv : List K) : Nat → K :=
  if startPos = 0 then
    if kv.length ≤ win then
      storeRows kvCache 0 kv
    else
      let cutoff := kv.length % win
      let last := slice kv (kv.length - win) kv.length
      storeRows (storeRows kvCache cutoff (slice last 0 (win - cutoff))) 0
        (slice last (win - cutoff) win)
  else
    writeRows win kvCache startPos kv

/-- The keys an index row denotes in a buffer; `-1` entries are masked (`sparse_attn`). -/
def attended (buffer : Nat → K) (row : List Int) : List K :=
  row.filterMap fun idx => if idx < 0 then none else some (buffer idx.toNat)

/-- The keys of the chunk `startPos .. startPos + seqlen - 1`, `key p` being that of position `p`. -/
def chunkKeys (key : Nat → K) (startPos seqlen : Nat) : List K :=
  (List.range seqlen).map fun i => key (startPos + i)

/-- The keys that window attention reads for query `i` of a chunk, from the chunk's own keys at
position 0 and otherwise from the cache after the chunk has been written. -/
def windowKeys (win : Nat) (kvCache : Nat → K) (key : Nat → K) (startPos seqlen i : Nat) : List K :=
  let kv := chunkKeys key startPos seqlen
  let row := ((getWindowTopkIdxs win seqlen startPos)[i]?).getD []
  if startPos = 0 then
    attended (fun j => (kv[j]?).getD (kvCache j)) row
  else
    attended (writeWindow win kvCache startPos kv) row

/-- `kvCache` is a ring cache as `n` positions of a request leave it: forward calls on chunks of any
positive length, one after another from position 0, over whatever the cache held before. -/
inductive Written (win : Nat) (key : Nat → K) : Nat → (Nat → K) → Prop where
  | fresh (kvCache : Nat → K) : Written win key 0 kvCache
  | call {n kvCache} (seqlen : Nat) :
    Written win key n kvCache →
    0 < seqlen →
    Written win key (n + seqlen) (writeWindow win kvCache n (chunkKeys key n seqlen))

/-! ## What the ring holds -/

variable {win n : Nat} {key : Nat → K} {kvCache : Nat → K}

@[simp] lemma length_chunkKeys (startPos seqlen : Nat) :
    (chunkKeys key startPos seqlen).length = seqlen := by
  simp [chunkKeys]

lemma writeWindow_long {seqlen slot : Nat} (long : win < seqlen) (hs : slot < win) :
    writeWindow win kvCache 0 (chunkKeys key 0 seqlen) slot =
      if slot < seqlen % win then key (seqlen - seqlen % win + slot)
      else key (seqlen - win + (slot - seqlen % win)) := by
  have cut : seqlen % win < win := Nat.mod_lt _ (by omega)
  have last : slice (chunkKeys key 0 seqlen) (seqlen - win) seqlen =
      (List.range win).map fun i => key (seqlen - win + i) := by
    simp only [chunkKeys]
    rw [slice_map_range _ le_rfl, show seqlen - (seqlen - win) = win from by omega]
    simp
  simp only [writeWindow, length_chunkKeys, Nat.not_le.mpr long, if_true, if_false, last]
  rw [slice_map_range _ (by omega), slice_map_range _ le_rfl, storeRows_range, storeRows_range]
  rw [show win - (win - seqlen % win) = seqlen % win from by omega]
  by_cases low : slot < seqlen % win
  · simp only [low, Nat.zero_le, Nat.zero_add, and_self, if_true, Nat.sub_zero]
    congr 1
    omega
  · simp [low, Nat.not_lt.mp low, show slot < seqlen % win + (win - seqlen % win) from by omega]

lemma writeWindow_prefill {seqlen : Nat} :
    Ring.Holds win key (writeWindow win kvCache 0 (chunkKeys key 0 seqlen)) 0 seqlen := by
  intro p _ lt near
  by_cases long : win < seqlen
  · have hs : p % win < win := Nat.mod_lt _ (by omega)
    have cut : seqlen % win < win := Nat.mod_lt _ (by omega)
    rw [writeWindow_long long hs]
    -- `p` is `t` positions into the last window; its slot is `seqlen % win + t`, wrapped once
    obtain ⟨t, rfl⟩ : ∃ t, p = seqlen - win + t := ⟨p - (seqlen - win), by omega⟩
    have wrap : (seqlen - win + t) % win = (seqlen % win + t) % win := by
      rw [Nat.mod_add_mod, ← Nat.add_mod_right (seqlen - win + t) win]
      congr 1
      omega
    rw [wrap]
    by_cases low : seqlen % win + t < win
    · rw [Nat.mod_eq_of_lt low, if_neg (by omega)]
      congr 1
      omega
    · rw [Nat.mod_eq_sub_mod (by omega), Nat.mod_eq_of_lt (by omega), if_pos (by omega)]
      congr 1
      omega
  · have small : p % win = p := Nat.mod_eq_of_lt (by omega)
    have le : (chunkKeys key 0 seqlen).length ≤ win := by simpa using Nat.not_lt.mp long
    simp only [writeWindow, le, if_true, small]
    simp only [chunkKeys]
    rw [storeRows_range]
    simp [lt]

lemma writeWindow_chunk (seqlen : Nat) (hold : Ring.Holds win key kvCache 0 n) (pos : 0 < n) :
    Ring.Holds win key (writeWindow win kvCache n (chunkKeys key n seqlen)) 0 (n + seqlen) := by
  simp only [writeWindow, if_neg (Nat.pos_iff_ne_zero.mp pos)]
  exact hold.writeRows

lemma Written.holds (written : Written win key n kvCache) : Ring.Holds win key kvCache 0 n := by
  induction written with
  | fresh kvCache => exact .start
  | @call n kvCache seqlen written pos ih =>
    rcases Nat.eq_zero_or_pos n with rfl | hn
    · simpa using writeWindow_prefill
    · exact writeWindow_chunk seqlen ih hn

/-! ## What an index row denotes -/

/-- The positions `max(0, q - win + 1) .. q` that the query at position `q` should see. -/
def windowPositions (win q : Nat) : List Nat :=
  List.range' (q + 1 - win) (q + 1 - (q + 1 - win))

lemma mem_windowPositions {p q : Nat} : p ∈ windowPositions win q ↔ q + 1 ≤ p + win ∧ p ≤ q := by
  simp only [windowPositions, List.mem_range'_1]
  omega

lemma attended_prefix {buffer : Nat → K} {lo c m : Nat} {row : Nat → Int} (le : c ≤ m)
    (low : ∀ j, j < c → row j = (lo + j : Nat)) (high : ∀ j, c ≤ j → j < m → row j = -1) :
    attended buffer ((List.range m).map row) = (List.range' lo c).map buffer := by
  obtain ⟨k, rfl⟩ := Nat.exists_eq_add_of_le le
  rw [List.range_add, List.map_append, attended, List.filterMap_append]
  have masked : List.filterMap (fun idx : Int => if idx < 0 then none else some (buffer idx.toNat))
      (((List.range k).map (c + ·)).map row) = [] := by
    rw [List.filterMap_eq_nil_iff]
    intro idx member
    simp only [List.mem_map, List.mem_range] at member
    obtain ⟨_, ⟨j, lt, rfl⟩, rfl⟩ := member
    simp [high (c + j) (by omega) (by omega)]
  rw [masked, List.append_nil, List.filterMap_map, List.range'_eq_map_range, List.map_map,
    ← List.filterMap_eq_map]
  apply List.filterMap_congr
  intro j lt
  have := low j (List.mem_range.mp lt)
  simp only [Function.comp_apply, this]
  rw [if_neg (by omega), Int.toNat_natCast]

lemma attended_prefillWindowRow {buffer : Nat → K} {seqlen base : Nat} (hw : 0 < win)
    (lt : base < seqlen) :
    attended buffer (prefillWindowRow win seqlen base) = (windowPositions win base).map buffer := by
  have first : max ((base : Int) - win + 1) 0 = ((base + 1 - win : Nat) : Int) := by omega
  simp only [prefillWindowRow, windowPositions, first]
  apply attended_prefix
  · omega
  · intro j hj
    rw [if_neg (by omega)]
    omega
  · intro j hj _
    rw [if_pos (by omega)]

lemma decodeWindowRow_eq {q : Nat} (hw : 0 < win) :
    decodeWindowRow win q =
      (windowPositions win q).map (fun p => ((p % win : Nat) : Int)) ++
        List.replicate (win - (q + 1)) (-1) := by
  by_cases full : win - 1 ≤ q
  · have hq : q % win < win := Nat.mod_lt _ hw
    rw [show win - (q + 1) = 0 from by omega, List.replicate_zero, List.append_nil]
    simp only [decodeWindowRow, if_pos full, windowPositions]
    rw [show q + 1 - (q + 1 - win) = (win - (q % win + 1)) + (q % win + 1) from by omega,
      ← List.range'_append_1, List.map_append, List.map_append]
    -- the window starts right after the slot of `q`, one turn earlier
    have wrap : ∀ t, (q + 1 - win + t) % win = (q % win + 1 + t) % win := by
      intro t
      rw [Nat.add_assoc (q % win), Nat.mod_add_mod, ← Nat.add_mod_right (q + 1 - win + t) win]
      congr 1
      omega
    generalize q % win = cur at hq wrap ⊢
    congr 1
    · rw [List.range'_eq_map_range, List.range'_eq_map_range, List.map_map, List.map_map]
      apply List.map_congr_left
      intro t member
      have := List.mem_range.mp member
      simp only [Function.comp_apply, wrap, Int.ofNat_eq_natCast]
      rw [Nat.mod_eq_of_lt (by omega)]
    · rw [List.range_eq_range', List.range'_eq_map_range, List.range'_eq_map_range, List.map_map,
        List.map_map]
      apply List.map_congr_left
      intro t member
      have := List.mem_range.mp member
      simp only [Function.comp_apply, Int.ofNat_eq_natCast]
      rw [Nat.add_assoc, wrap, show cur + 1 + (win - (cur + 1) + t) = t + win from by omega,
        Nat.add_mod_right, Nat.mod_eq_of_lt (by omega), Nat.zero_add]
  · simp only [decodeWindowRow, if_neg full, windowPositions]
    rw [show q + 1 - win = 0 from by omega, Nat.sub_zero, ← List.range_eq_range',
      show win - q - 1 = win - (q + 1) from by omega]
    congr 1
    apply List.map_congr_left
    intro p member
    have := List.mem_range.mp member
    rw [Nat.mod_eq_of_lt (by omega), Int.ofNat_eq_natCast]

lemma maskFuture_eq (win startPos seqlen i : Nat) (row : List Int) :
    maskFuture win startPos seqlen i row = row.map fun entry : Int =>
      if ∃ j ∈ List.range' (i + 1) (seqlen - (i + 1)), entry = (((startPos + j) % win : Nat) : Int)
      then -1 else entry := by
  simp only [maskFuture]
  generalize List.range' (i + 1) (seqlen - (i + 1)) = later
  induction later generalizing row with
  | nil => simp
  | cons j later ih =>
    rw [List.foldl_cons, ih, maskSlot, List.map_map]
    apply List.map_congr_left
    intro entry _
    simp only [Function.comp_apply, List.exists_mem_cons_iff]
    by_cases here : entry = (((startPos + j) % win : Nat) : Int)
    · have : (-1 : Int) ≠ (((startPos + j) % win : Nat) : Int) := by omega
      simp [here]
    · simp only [here, if_false, false_or]

lemma taken_iff {startPos i p : Nat} (seqlen : Nat) (low : startPos + i + 1 ≤ p + win)
    (high : p ≤ startPos + i) :
    (∃ j ∈ List.range' (i + 1) (seqlen - (i + 1)), p % win = (startPos + j) % win) ↔
      p + win < startPos + seqlen := by
  constructor
  · rintro ⟨j, member, e⟩
    rw [List.mem_range'_1] at member
    by_contra far
    exact slot_ne (show p < startPos + j from by omega) (show startPos + j < p + win from by omega) e
  · intro lt
    refine ⟨p + win - startPos, ?_, ?_⟩
    · rw [List.mem_range'_1]
      omega
    · rw [show startPos + (p + win - startPos) = p + win from by omega, Nat.add_mod_right]

/-- What window attention reads for query `i` of a chunk at a positive position: the keys of its
window whose slot no later position of the chunk has taken. -/
theorem windowKeys_eq {startPos seqlen i : Nat} (hw : 0 < win) (pos : 0 < startPos)
    (hold : Ring.Holds win key kvCache 0 startPos) (lt : i < seqlen) :
    windowKeys win kvCache key startPos seqlen i =
      ((windowPositions win (startPos + i)).filter
        fun p => startPos + seqlen ≤ p + win).map key := by
  have chunk := writeWindow_chunk seqlen hold pos
  have row : ((getWindowTopkIdxs win seqlen startPos)[i]?).getD [] =
      maskFuture win startPos seqlen i (decodeWindowRow win (startPos + i)) := by
    simp only [getWindowTopkIdxs, if_neg (Nat.pos_iff_ne_zero.mp pos), List.getElem?_map,
      List.getElem?_range lt, Option.map_some, Option.getD_some]
    split_ifs with many
    · rfl
    · simp [maskFuture, show seqlen - (i + 1) = 0 from by omega]
  simp only [windowKeys, if_neg (Nat.pos_iff_ne_zero.mp pos), row]
  rw [maskFuture_eq, decodeWindowRow_eq hw, List.map_append, attended, List.filterMap_append]
  have pad : List.filterMap (fun idx : Int => if idx < 0 then none else
      some (writeWindow win kvCache startPos (chunkKeys key startPos seqlen) idx.toNat))
      ((List.replicate (win - (startPos + i + 1)) (-1)).map fun entry : Int =>
        if ∃ j ∈ List.range' (i + 1) (seqlen - (i + 1)),
          entry = (((startPos + j) % win : Nat) : Int) then -1 else entry) = [] := by
    rw [List.filterMap_eq_nil_iff]
    intro idx member
    simp only [List.map_replicate, List.mem_replicate, ite_self] at member
    simp [member.2]
  rw [pad, List.append_nil, List.map_map, List.filterMap_map, ← List.filterMap_eq_map,
    List.filterMap_filter]
  apply List.filterMap_congr
  intro p member
  rw [mem_windowPositions] at member
  have taken := taken_iff seqlen member.1 member.2
  simp only [Function.comp_apply, Int.ofNat_inj, taken]
  by_cases gone : p + win < startPos + seqlen
  · simp [gone]
  · have seen := chunk p (Nat.zero_le p) (by omega) (by omega)
    rw [if_neg gone, if_neg (by omega), Int.toNat_natCast, seen]
    simp [Nat.not_lt.mp gone]

/-- What window attention reads for a query of a prefill at position 0: its whole window. -/
theorem windowKeys_prefill {seqlen i : Nat} (hw : 0 < win) (lt : i < seqlen) :
    windowKeys win kvCache key 0 seqlen i = (windowPositions win i).map key := by
  have row : ((getWindowTopkIdxs win seqlen 0)[i]?).getD [] = prefillWindowRow win seqlen i := by
    simp [getWindowTopkIdxs, List.getElem?_range lt]
  simp only [windowKeys, if_true, row]
  rw [attended_prefillWindowRow hw lt]
  apply List.map_congr_left
  intro p member
  rw [mem_windowPositions] at member
  simp [chunkKeys, List.getElem?_range (show p < seqlen from by omega)]

/-! ## Which chunks see their whole window -/

/-- Every query of the chunk reads exactly the keys of its window, each once. -/
def WindowExact (win : Nat) (key : Nat → K) (kvCache : Nat → K) (startPos seqlen : Nat) : Prop :=
  ∀ i, i < seqlen →
    (windowKeys win kvCache key startPos seqlen i).Perm
      ((windowPositions win (startPos + i)).map key)

lemma WindowExact.fits {startPos seqlen : Nat} (hw : 0 < win) (pos : 0 < startPos)
    (many : 1 < seqlen) (hold : Ring.Holds win key kvCache 0 startPos)
    (exact : WindowExact win key kvCache startPos seqlen) : startPos + seqlen ≤ win := by
  have count := (exact 0 (by omega)).length_eq
  rw [windowKeys_eq hw pos hold (by omega)] at count
  simp only [List.length_map, Nat.add_zero] at count
  rw [List.length_filter_eq_length_iff] at count
  -- the oldest position the first query should see is the first one to lose its slot
  have oldest := count (startPos + 1 - win) (by rw [mem_windowPositions]; omega)
  simp only [decide_eq_true_eq] at oldest
  omega

/-- A chunk keeps the windows of its queries intact iff it starts the request, is one token long or
fits below the end of the ring. -/
theorem windowExact_iff {startPos seqlen : Nat} (hw : 0 < win) (hs : 0 < seqlen)
    (written : Written win key startPos kvCache) :
    WindowExact win key kvCache startPos seqlen ↔
      startPos = 0 ∨ seqlen = 1 ∨ startPos + seqlen ≤ win := by
  constructor
  · intro exact
    by_contra other
    have := exact.fits hw (by omega) (by omega) written.holds
    omega
  · intro safe i lt
    rcases Nat.eq_zero_or_pos startPos with rfl | pos
    · rw [Nat.zero_add, windowKeys_prefill hw lt]
    · rw [windowKeys_eq hw pos written.holds lt, List.filter_eq_self.mpr]
      intro p member
      rw [mem_windowPositions] at member
      simp only [decide_eq_true_eq]
      omega

/-- A restored prefix of three positions and a draft of one, in a window of eight. -/
theorem windowExact_iff_fits :
    WindowExact 8 id (writeWindow 8 (fun _ => 0) 0 (chunkKeys id 0 3)) 3 2 ↔
      3 = 0 ∨ 2 = 1 ∨ 3 + 2 ≤ 8 :=
  windowExact_iff (by decide) (by decide) (.call 3 (.fresh _) (by decide))

/-- The second chunk of a prefill by 256 tokens overwrites the whole ring of 128 slots before its
first query looks into it. -/
theorem windowExact_second_chunk :
    Written 128 id 256 (writeWindow 128 (fun _ => 0) 0 (chunkKeys id 0 256)) ∧
      ¬ WindowExact 128 id (writeWindow 128 (fun _ => 0) 0 (chunkKeys id 0 256)) 256 256 := by
  have written : Written 128 id 256 (writeWindow 128 (fun _ => 0) 0 (chunkKeys id 0 256)) :=
    .call 256 (.fresh _) (by decide)
  refine ⟨written, fun exact => ?_⟩
  have := exact.fits (by decide) (by decide) (by decide) written.holds
  omega

end PocketMoE.Runtime
