import Mathlib.Algebra.Order.Ring.Rat
import Mathlib.Data.List.FinRange
import PocketMoE.Lib.Collective
import PocketMoE.Lib.FirstMax
import PocketMoE.Runtime.TpRange

/-!
# Logits of a sharded vocabulary

`distributed_argmax_local_logits` and `gather_sharded_logits` (`tp_logits.py`) are programs of a
rank that has the logits of its range of the vocabulary. Every rank ends with the token of the whole
row, or with the whole rows (`sharded_logits`). Leading dimensions are flattened: logits are a list
of rows, one for each position.
-/

namespace PocketMoE.Runtime
open PocketMoE.Lib PocketMoE.Tensor

/-- A row of `width` logits for each position. -/
@[ext]
structure Logits (α : Type) where
  width : Nat
  rows : List (List α)
  widths : ∀ row ∈ rows, row.length = width

variable {α : Type}

namespace Logits

/-- `logits[..., start : start + count]`. -/
def narrow (logits : Logits α) (start count : Nat) : Logits α where
  width := min (start + count) logits.width - start
  rows := logits.rows.map fun row => slice row start (start + count)
  widths := by
    intro row member
    obtain ⟨whole, member', rfl⟩ := List.mem_map.mp member
    rw [length_slice, logits.widths whole member']

/-- `torch.cat((logits, pad), dim=-1)` with a tensor of `extra` columns. -/
def pad (logits : Logits α) (extra : Nat) (junk : Nat → Nat → α) : Logits α where
  width := logits.width + extra
  rows := logits.rows.mapIdx fun p row => row ++ (List.range extra).map (junk p)
  widths := by
    intro row member
    obtain ⟨p, inside, rfl⟩ := List.mem_mapIdx.mp member
    rw [List.length_append, List.length_map, List.length_range,
      logits.widths _ (List.getElem_mem inside)]

/-- `torch.cat(parts, dim=-1)`. -/
def cat (parts : List (Logits α)) : Option (Logits α) :=
  match parts with
  | [] => none
  | first :: rest =>
    if _h : ∀ part ∈ first :: rest, part.rows.length = first.rows.length then
      some {
        width := ((first :: rest).map width).sum
        rows := (List.range first.rows.length).map fun p =>
          (first :: rest).flatMap fun part => part.rows.getD p []
        widths := by
          intro row member
          obtain ⟨p, inside, rfl⟩ := List.mem_map.mp member
          rw [List.length_flatMap]
          refine congrArg List.sum (List.map_congr_left fun part member' => ?_)
          have within : p < part.rows.length := by
            rw [_h part member']
            exact List.mem_range.mp inside
          rw [List.getD_eq_getElem?_getD, List.getElem?_eq_getElem within]
          exact part.widths _ (List.getElem_mem within) }
    else none

end Logits

/-- A tensor in a collective. -/
inductive VocabTensor (α : Type) where
  | floats (values : List α)
  | longs (values : List Nat)
  | matrix (logits : Logits α)

/-- `all_gather` of tensors of one type and shape. -/
inductive GatherOp where
  | floats (shape : List Nat)
  | longs (shape : List Nat)

/-- The operation in which a rank takes part with a tensor. -/
def VocabTensor.gather : VocabTensor α → GatherOp
  | .floats values => .floats [values.length]
  | .longs values => .longs [values.length]
  | .matrix logits => .floats [logits.rows.length, logits.width]

/-- All ranks get the tensors of all ranks in order. -/
def GatherOp.combine {world : Nat} (_op : GatherOp)
    (tensors : Fin world → List (VocabTensor α)) : List (VocabTensor α) :=
  (List.finRange world).flatMap tensors

abbrev VocabProg (α R : Type) := Prog GatherOp (List (VocabTensor α)) R

def allGather {R : Type} (tensor : VocabTensor α)
    (next : List (VocabTensor α) → VocabProg α R) : VocabProg α R :=
  .call tensor.gather [tensor] next

def floatsOf (tensors : List (VocabTensor α)) : List (List α) :=
  tensors.filterMap fun
    | .floats values => some values
    | _ => none

def longsOf (tensors : List (VocabTensor α)) : List (List Nat) :=
  tensors.filterMap fun
    | .longs values => some values
    | _ => none

def matricesOf (tensors : List (VocabTensor α)) : List (Logits α) :=
  tensors.filterMap fun
    | .matrix logits => some logits
    | _ => none

/-! ## `tp_logits.py` -/

/-- `distributed_argmax_local_logits`. `torch` is `max` and `argmax`; `dist` is the world size, if
`torch.distributed` is there and initialised. -/
def distributedArgmaxLocalLogits [LinearOrder α] [Inhabited α] (torch : ArgMax α)
    (dist : Option Nat) (logits : Logits α) (rowStart : Nat) : VocabProg α (List Nat) :=
  if logits.width = 0 then .raise
  else
    let localValues := logits.rows.map fun row => row.getD (torch.index row) default
    let localIndices := logits.rows.map fun row => torch.index row + rowStart
    if 1 < dist.getD 1 then
      allGather (.floats localValues) fun allValues =>
        allGather (.longs localIndices) fun allIndices =>
          .ret ((List.range localIndices.length).map fun p =>
            let bestRank := torch.index ((floatsOf allValues).map (·.getD p default))
            ((longsOf allIndices).map (·.getD p 0)).getD bestRank 0)
    else .ret localIndices

/-- `gather_sharded_logits`; `junk` is what uninitialised memory holds. -/
def gatherShardedLogits (dist : Option Nat) (junk : Nat → Nat → α) (logits : Logits α)
    (fullOutDim rowStart : Nat) : VocabProg α (Logits α) :=
  if logits.width = fullOutDim ∧ rowStart = 0 then .ret logits
  else if ¬ 1 < dist.getD 1 then .ret logits
  else
    allGather (.longs [logits.width]) fun allN =>
      let sizes := (longsOf allN).map (·.getD 0 0)
      let maxN := sizes.foldr max 0
      let logitsSend :=
        if logits.width < maxN then logits.pad (maxN - logits.width) junk else logits
      allGather (.matrix logitsSend) fun gathered =>
        let parts := List.zipWith (fun part size => part.narrow 0 size) (matricesOf gathered)
          sizes
        match Logits.cat parts with
        | some whole => .ret whole
        | none => .raise

/-! ## Gathered tensors -/

variable {world : Nat} {R : Type}

lemma combine_singles (op : GatherOp) (tensor : Nat → VocabTensor α) :
    op.combine (fun rank : Fin world => [tensor rank]) = (List.range world).map tensor := by
  rw [GatherOp.combine, ← List.map_eq_flatMap, ← List.map_coe_finRange_eq_range, List.map_map]
  rfl

lemma completes_allGather_iff [Nonempty (Fin world)] {tensor : Nat → VocabTensor α}
    {next : Fin world → List (VocabTensor α) → VocabProg α R} {op : GatherOp}
    (same : ∀ rank < world, (tensor rank).gather = op) {results : Fin world → R} :
    Completes GatherOp.combine (fun rank : Fin world => allGather (tensor rank) (next rank))
        results ↔
      Completes GatherOp.combine (fun rank => next rank ((List.range world).map tensor))
        results := by
  have entered (rank : Fin world) :
      allGather (tensor rank) (next rank) = .call op [tensor rank] (next rank) := by
    rw [allGather, same rank rank.isLt]
  rw [completes_call_iff entered, combine_singles]

lemma floatsOf_map (values : Nat → List α) (ranks : List Nat) :
    floatsOf (ranks.map fun r => .floats (values r)) = ranks.map values := by
  rw [floatsOf, List.filterMap_map]
  exact congrFun List.filterMap_eq_map' _

lemma longsOf_map (values : Nat → List Nat) (ranks : List Nat) :
    longsOf (ranks.map fun r => (.longs (values r) : VocabTensor α)) = ranks.map values := by
  rw [longsOf, List.filterMap_map]
  exact congrFun List.filterMap_eq_map' _

lemma matricesOf_map (logits : Nat → Logits α) (ranks : List Nat) :
    matricesOf (ranks.map fun r => .matrix (logits r)) = ranks.map logits := by
  rw [matricesOf, List.filterMap_map]
  exact congrFun List.filterMap_eq_map' _

/-! ## The parts of a row -/

/-- The part of a row that a rank has. -/
def rowPart (world rank : Nat) (row : List α) : List α :=
  slice row (cutAt row.length world rank) (cutAt row.length world (rank + 1))

lemma flatten_rowPart (n : Nat) (row : List α) :
    ((List.range n).map fun r => rowPart world r row).flatten =
      row.take (cutAt row.length world n) := by
  rw [← List.flatMap_def]
  exact flatMap_cuts (cutAt_zero _ _) row fun r _ => cutAt_mono _ _ r.le_succ

lemma length_rowPart {rank : Nat} (member : rank < world) (row : List α) :
    (rowPart world rank row).length = partSize row.length world rank := by
  rw [rowPart, length_slice, Nat.min_eq_left (cutAt_le member), partSize]

lemma rowPart_ne_nil {rank : Nat} {row : List α} (enough : world ≤ row.length)
    (member : rank < world) : rowPart world rank row ≠ [] := by
  have size := cutAt_lt_succ (Nat.zero_lt_of_lt member) enough rank
  refine List.ne_nil_of_length_pos ?_
  rw [length_rowPart member, partSize]
  omega

lemma firstMaxAt_index [LinearOrder α] [Inhabited α] (torch : ArgMax α) {row : List α}
    (nonempty : row ≠ []) :
    FirstMaxAt row (torch.index row) (row.getD (torch.index row) default) := by
  obtain ⟨a, max⟩ := torch.spec row nonempty
  rwa [List.getD_eq_getElem?_getD, max.here, Option.getD_some]

lemma index_rowPart [LinearOrder α] [Inhabited α] (torch : ArgMax α) {row : List α}
    (pos : 0 < world) (enough : world ≤ row.length) :
    ((List.range world).map fun r =>
        torch.index (rowPart world r row) + cutAt row.length world r).getD
      (torch.index ((List.range world).map fun r =>
        (rowPart world r row).getD (torch.index (rowPart world r row)) default)) 0 =
      torch.index row := by
  let top := fun r => (torch.index (rowPart world r row),
    (rowPart world r row).getD (torch.index (rowPart world r row)) default)
  have tops : PartMaxima ((List.range world).map fun r => rowPart world r row)
      ((List.range world).map top) := by
    rw [PartMaxima, List.forall₂_map_left_iff, List.forall₂_map_right_iff, List.forall₂_same]
    intro r member
    exact firstMaxAt_index torch (rowPart_ne_nil enough (List.mem_range.mp member))
  have values : ((List.range world).map top).map Prod.snd = (List.range world).map fun r =>
      (rowPart world r row).getD (torch.index (rowPart world r row)) default := by
    rw [List.map_map]
    rfl
  obtain ⟨a, best⟩ := torch.spec ((List.range world).map fun r =>
    (rowPart world r row).getD (torch.index (rowPart world r row)) default) (by
      simpa [List.range_eq_nil] using pos.ne')
  generalize torch.index ((List.range world).map fun r =>
    (rowPart world r row).getD (torch.index (rowPart world r row)) default) = k at best ⊢
  have member : k < world := by simpa using best.inside
  have value : (top k).2 = a := by
    have here := best.here
    rw [List.getElem?_map, List.getElem?_range member] at here
    exact Option.some.inj here
  have here : ((List.range world).map top)[k]? = some ((top k).1, a) := by
    rw [List.getElem?_map, List.getElem?_range member, ← value]
    rfl
  -- the parts before the best one end where it starts
  have token := PartMaxima.flatten tops (values ▸ best) here
  rw [← List.map_take, List.take_range, Nat.min_eq_left member.le, flatten_rowPart,
    flatten_rowPart, cutAt_self pos, List.take_length, List.length_take,
    Nat.min_eq_left (cutAt_le member.le)] at token
  obtain ⟨b, max⟩ := torch.spec row (List.ne_nil_of_length_pos (pos.trans_le enough))
  rw [List.getD_eq_getElem?_getD, List.getElem?_map, List.getElem?_range member,
    (max.unique token).1, Nat.add_comm]
  rfl

/-! ## The shards -/

/-- The logits of the range of a rank. -/
def Logits.shard (logits : Logits α) (world rank : Nat) : Logits α :=
  logits.narrow (cutAt logits.width world rank) (partSize logits.width world rank)

namespace Logits

lemma rows_shard (logits : Logits α) (world rank : Nat) :
    (logits.shard world rank).rows = logits.rows.map (rowPart world rank) := by
  refine List.map_congr_left fun row member => ?_
  rw [rowPart, logits.widths row member, ← cutAt_add_partSize]

lemma width_shard (logits : Logits α) {rank : Nat} (member : rank < world) :
    (logits.shard world rank).width = partSize logits.width world rank := by
  calc (logits.shard world rank).width
      = min (cutAt logits.width world rank + partSize logits.width world rank) logits.width -
          cutAt logits.width world rank := rfl
    _ = partSize logits.width world rank := by
      rw [cutAt_add_partSize, Nat.min_eq_left (cutAt_le member), partSize]

lemma width_shard_pos {logits : Logits α} (enough : world ≤ logits.width) {rank : Nat}
    (member : rank < world) : 0 < (logits.shard world rank).width := by
  have size := cutAt_lt_succ (Nat.zero_lt_of_lt member) enough rank
  rw [width_shard logits member, partSize]
  omega

lemma rowPart_one (row : List α) : rowPart 1 0 row = row := by
  rw [rowPart, cutAt_zero, cutAt_self Nat.one_pos, slice, List.take_length, List.drop_zero]

lemma shard_one (logits : Logits α) : logits.shard 1 0 = logits := by
  refine Logits.ext ?_ ?_
  · rw [width_shard logits Nat.one_pos, partSize, cutAt_zero, cutAt_self Nat.one_pos, Nat.sub_zero]
  · rw [rows_shard]
    exact (List.map_congr_left fun row _ => rowPart_one row).trans (List.map_id _)

end Logits

lemma map_getD {β : Type} (f : Nat → List α → β) (ranks : List Nat) {rows : List (List α)} {p : Nat}
    (inside : p < rows.length) (d : β) :
    (ranks.map fun r => rows.map (f r)).map (·.getD p d) = ranks.map fun r => f r rows[p] := by
  rw [List.map_map]
  refine List.map_congr_left fun r _ => ?_
  rw [Function.comp_apply, List.getD_eq_getElem?_getD, List.getElem?_map,
    List.getElem?_eq_getElem inside]
  rfl

lemma distributedArgmaxLocalLogits_iff [LinearOrder α] [Inhabited α] (torch : ArgMax α)
    {logits : Logits α} (pos : 0 < world) (enough : world ≤ logits.width) {dist : Option Nat}
    (group : dist.getD 1 = world) (results : Fin world → List Nat) :
    Completes GatherOp.combine (fun rank : Fin world => distributedArgmaxLocalLogits torch dist
        (logits.shard world rank) (cutAt logits.width world rank)) results ↔
      results = fun _ => logits.rows.map torch.index := by
  have : Nonempty (Fin world) := ⟨⟨0, pos⟩⟩
  have some_ (rank : Fin world) : (logits.shard world rank).width ≠ 0 :=
    (Logits.width_shard_pos enough rank.isLt).ne'
  simp only [distributedArgmaxLocalLogits, if_neg (some_ _), group, logits.rows_shard,
    List.map_map, List.length_map]
  rcases Nat.lt_or_ge 1 world with many | one
  · have values : ∀ rank < world, (VocabTensor.floats (logits.rows.map
        ((fun row => row.getD (torch.index row) default) ∘ rowPart world rank))).gather =
          .floats [logits.rows.length] := by
      intro rank member
      rw [VocabTensor.gather, List.length_map]
    have indices : ∀ rank < world, (VocabTensor.longs (logits.rows.map
        ((fun row => torch.index row + cutAt logits.width world rank) ∘ rowPart world rank)) :
          VocabTensor α).gather = .longs [logits.rows.length] := by
      intro rank member
      rw [VocabTensor.gather, List.length_map]
    simp only [if_pos many]
    rw [completes_allGather_iff values, completes_allGather_iff indices]
    refine completes_ret_iff fun rank => congrArg Prog.ret ?_
    rw [floatsOf_map, longsOf_map]
    refine List.ext_getElem (by simp) fun p inside inside' => ?_
    rw [List.length_map] at inside'
    have member := List.getElem_mem inside'
    rw [List.getElem_map, List.getElem_map, List.getElem_range, map_getD _ _ inside',
      map_getD _ _ inside']
    simp only [Function.comp_apply, ← logits.widths _ member]
    exact index_rowPart torch pos (logits.widths _ member ▸ enough)
  · obtain rfl : world = 1 := by omega
    refine completes_ret_iff fun rank => ?_
    rw [if_neg (lt_irrefl 1)]
    refine congrArg Prog.ret (List.map_congr_left fun row member => ?_)
    rw [Subsingleton.elim rank 0]
    have whole : torch.index (rowPart 1 0 row) + cutAt logits.width 1 0 = torch.index row := by
      rw [Logits.rowPart_one, cutAt_zero, Nat.add_zero]
    exact whole

namespace Logits

/-- What a rank sends. -/
def padTo (logits : Logits α) (maxN : Nat) (junk : Nat → Nat → α) : Logits α :=
  if logits.width < maxN then logits.pad (maxN - logits.width) junk else logits

lemma length_padTo (logits : Logits α) (maxN : Nat) (junk : Nat → Nat → α) :
    (logits.padTo maxN junk).rows.length = logits.rows.length := by
  unfold padTo
  split_ifs
  · exact List.length_mapIdx
  · rfl

lemma width_padTo {logits : Logits α} {maxN : Nat} (le : logits.width ≤ maxN)
    (junk : Nat → Nat → α) : (logits.padTo maxN junk).width = maxN := by
  unfold padTo
  split_ifs with less
  · exact Nat.add_sub_of_le le
  · exact Nat.le_antisymm le (Nat.not_lt.mp less)

lemma narrow_padTo (logits : Logits α) (maxN : Nat) (junk : Nat → Nat → α) :
    (logits.padTo maxN junk).narrow 0 logits.width = logits := by
  have front (row : List α) (member : row ∈ logits.rows) (more : List α) :
      slice (row ++ more) 0 (0 + logits.width) = row := by
    rw [Nat.zero_add, slice, List.drop_zero, ← logits.widths row member, List.take_left]
  unfold padTo
  split_ifs with less
  · refine Logits.ext ?_ ?_
    · show min (0 + logits.width) (logits.width + (maxN - logits.width)) - 0 = logits.width
      omega
    · refine List.ext_getElem (by simp [narrow, pad]) fun p inside inside' => ?_
      simp only [narrow, pad, List.getElem_map, List.getElem_mapIdx]
      exact front _ (List.getElem_mem inside') _
  · refine Logits.ext ?_ ?_
    · show min (0 + logits.width) logits.width - 0 = logits.width
      omega
    · refine (List.map_congr_left fun row member => ?_).trans (List.map_id _)
      have same := front row member []
      rwa [List.append_nil] at same

lemma cat_eq {parts : List (Logits α)} {n : Nat} (some_ : parts ≠ [])
    (rows : ∀ part ∈ parts, part.rows.length = n) {whole : Logits α}
    (width : whole.width = (parts.map width).sum)
    (eq : whole.rows = (List.range n).map fun p => parts.flatMap fun part => part.rows.getD p []) :
    cat parts = some whole := by
  cases parts with
  | nil => exact absurd rfl some_
  | cons first rest =>
    have first_ := rows first List.mem_cons_self
    subst first_
    rw [cat, dif_pos rows]
    exact congrArg some (Logits.ext width.symm eq.symm)

lemma cat_shards {logits : Logits α} (pos : 0 < world) :
    cat ((List.range world).map (logits.shard world)) = some logits := by
  refine cat_eq (n := logits.rows.length) ?_ ?_ ?_ ?_
  · simpa [List.range_eq_nil] using pos.ne'
  · refine List.forall_mem_map.mpr fun r _ => ?_
    rw [rows_shard, List.length_map]
  · rw [List.map_map]
    refine (sum_partSize pos logits.width).symm.trans ?_
    refine congrArg List.sum (List.map_congr_left fun r member => ?_)
    exact (width_shard logits (List.mem_range.mp member)).symm
  · refine List.ext_getElem (by simp) fun p inside inside' => ?_
    rw [List.getElem_map, List.getElem_range, List.flatMap_map, List.flatMap_def]
    have parts : (List.range world).map (fun r => (logits.shard world r).rows.getD p []) =
        (List.range world).map fun r => rowPart world r logits.rows[p] := by
      refine List.map_congr_left fun r _ => ?_
      rw [rows_shard, List.getD_eq_getElem?_getD, List.getElem?_map,
        List.getElem?_eq_getElem inside]
      rfl
    rw [parts, flatten_rowPart, cutAt_self pos, List.take_length]

end Logits

lemma le_foldr_max {sizes : List Nat} {n : Nat} (member : n ∈ sizes) : n ≤ sizes.foldr max 0 := by
  induction sizes with
  | nil => cases member
  | cons size sizes ih =>
    rcases List.mem_cons.mp member with rfl | later
    · exact Nat.le_max_left ..
    · exact (ih later).trans (Nat.le_max_right ..)

lemma partSize_lt {total rank : Nat} (many : 1 < world) (enough : world ≤ total)
    (member : rank < world) : partSize total world rank < total := by
  have grows := cutAt_lt_succ (Nat.zero_lt_of_lt many) enough
  have last : cutAt total world (rank + 1) ≤ total := cutAt_le member
  rcases Nat.eq_zero_or_pos rank with rfl | later
  · have first := (grows 1).trans_le (cutAt_le many)
    rw [partSize, cutAt_zero]
    exact first
  · have before : cutAt total world 0 < cutAt total world rank :=
      (grows 0).trans_le (cutAt_mono total world later)
    rw [partSize]
    omega

lemma gatherShardedLogits_iff {logits : Logits α} (pos : 0 < world)
    (enough : world ≤ logits.width) {dist : Option Nat} (group : dist.getD 1 = world)
    (junk : Nat → Nat → Nat → α) (results : Fin world → Logits α) :
    Completes GatherOp.combine (fun rank : Fin world => gatherShardedLogits dist (junk rank)
        (logits.shard world rank) logits.width (cutAt logits.width world rank)) results ↔
      results = fun _ => logits := by
  have : Nonempty (Fin world) := ⟨⟨0, pos⟩⟩
  simp only [gatherShardedLogits, group]
  rcases Nat.lt_or_ge 1 world with many | one
  · have part (rank : Fin world) :
        ¬ ((logits.shard world rank).width = logits.width ∧ cutAt logits.width world rank = 0) := by
      rw [Logits.width_shard logits rank.isLt]
      exact fun both => absurd both.1 (partSize_lt many enough rank.isLt).ne
    have widths : ∀ rank < world, (VocabTensor.longs [(logits.shard world rank).width] :
        VocabTensor α).gather = .longs [1] := fun _ _ => rfl
    simp only [if_neg (part _), if_neg (not_not.mpr many)]
    rw [completes_allGather_iff widths, longsOf_map]
    have sizes : ((List.range world).map fun r => [(logits.shard world r).width]).map (·.getD 0 0) =
        (List.range world).map fun r => (logits.shard world r).width := by
      rw [List.map_map]
      rfl
    simp only [sizes]
    generalize longest :
      ((List.range world).map fun r => (logits.shard world r).width).foldr max 0 = maxN
    have le : ∀ r < world, (logits.shard world r).width ≤ maxN := by
      intro r member
      rw [← longest]
      exact le_foldr_max (List.mem_map_of_mem (List.mem_range.mpr member))
    have sent : ∀ rank < world, (VocabTensor.matrix ((logits.shard world rank).padTo maxN
        (junk rank))).gather = .floats [logits.rows.length, maxN] := by
      intro rank member
      rw [VocabTensor.gather, Logits.length_padTo, Logits.width_padTo (le rank member),
        Logits.rows_shard, List.length_map]
    refine (completes_allGather_iff sent).trans (completes_ret_iff fun rank => ?_)
    rw [matricesOf_map, List.zipWith_map, List.zipWith_self]
    simp only [Logits.narrow_padTo]
    rw [Logits.cat_shards pos]
  · obtain rfl : world = 1 := by omega
    refine completes_ret_iff fun rank => ?_
    rw [Subsingleton.elim rank 0]
    have whole : logits.shard 1 0 = logits := Logits.shard_one logits
    have start : cutAt logits.width 1 0 = 0 := cutAt_zero ..
    exact (if_pos ⟨congrArg Logits.width whole, start⟩).trans (congrArg Prog.ret whole)

/-! ## The head of the model -/

variable {W X : Type}

/-- The ranges of the ranks follow each other and are the vocabulary, and every rank ends with the
first of the largest logits of each row, or with all logits. -/
theorem sharded_logits [LinearOrder α] [Inhabited α] (torch : ArgMax α) {world : Nat}
    (pos : 0 < world) (logits : Logits α) (enough : world ≤ logits.width) {dist : Option Nat}
    (group : dist.getD 1 = world) (junk : Nat → Nat → Nat → α) :
    ∃ start count : Nat → Nat,
      (∀ rank < world, 0 < count rank ∧
        tpVocabRowRange logits.width world rank = .ok (start rank, count rank)) ∧
      ((List.range world).flatMap fun rank => List.range' (start rank) (count rank)) =
        List.range logits.width ∧
      (∃ tokens, List.Forall₂ (fun row token => ∃ a, FirstMaxAt row token a) logits.rows tokens ∧
        ∀ results : Fin world → List Nat,
          Completes GatherOp.combine (fun rank : Fin world => distributedArgmaxLocalLogits torch
              dist (logits.narrow (start rank) (count rank)) (start rank)) results ↔
            results = fun _ => tokens) ∧
      ∀ results : Fin world → Logits α,
        Completes GatherOp.combine (fun rank : Fin world => gatherShardedLogits dist (junk rank)
            (logits.narrow (start rank) (count rank)) logits.width (start rank)) results ↔
          results = fun _ => logits := by
  refine ⟨cutAt logits.width world, partSize logits.width world, fun rank member => ⟨?_, ?_⟩,
    ?_, ⟨logits.rows.map torch.index, ?_, ?_⟩, ?_⟩
  · have size := cutAt_lt_succ pos enough rank
    rw [partSize]
    omega
  · exact tpRange_eq _ _ _ (pos.trans_le enough) member
  · have part : ∀ rank ∈ List.range world, List.range' (cutAt logits.width world rank)
        (partSize logits.width world rank) = slice (List.range logits.width)
          (cutAt logits.width world rank) (cutAt logits.width world (rank + 1)) := by
      intro rank member
      have le : cutAt logits.width world (rank + 1) ≤ logits.width :=
        cutAt_le (List.mem_range.mp member)
      rw [slice, List.take_range, Nat.min_eq_left le, List.range_eq_range', List.drop_range',
        Nat.zero_add, Nat.mul_one, partSize]
    have whole := flatMap_cuts (cutAt_zero logits.width world) (List.range logits.width)
      fun rank (_ : rank < world) => cutAt_mono _ _ rank.le_succ
    rw [cutAt_self pos, List.take_of_length_le List.length_range.le] at whole
    exact (congrArg List.flatten (List.map_congr_left part)).trans whole
  · rw [List.forall₂_map_right_iff, List.forall₂_same]
    intro row member
    refine torch.spec row (List.ne_nil_of_length_pos ?_)
    exact logits.widths row member ▸ pos.trans_le enough
  · exact distributedArgmaxLocalLogits_iff torch pos enough group
  · exact gatherShardedLogits_iff pos enough group junk

/-- Three ranks share four logits, and the last two of them hold the largest. -/
theorem sharded_logits_tie :
    let logits : Logits ℚ := ⟨4, [[1, 0, 7, 7], [2, 2, 1, 2]], by decide⟩
    ∃ start count : Nat → Nat,
      (∀ rank < 3, 0 < count rank ∧
        tpVocabRowRange 4 3 rank = .ok (start rank, count rank)) ∧
      ((List.range 3).flatMap fun rank => List.range' (start rank) (count rank)) =
        List.range 4 ∧
      (∃ tokens, List.Forall₂ (fun row token => ∃ a, FirstMaxAt row token a) logits.rows tokens ∧
        ∀ results : Fin 3 → List Nat,
          Completes GatherOp.combine (fun rank : Fin 3 => distributedArgmaxLocalLogits
              (ArgMax.scan ℚ) (some 3) (logits.narrow (start rank) (count rank)) (start rank))
              results ↔
            results = fun _ => tokens) ∧
      ∀ results : Fin 3 → Logits ℚ,
        Completes GatherOp.combine (fun rank : Fin 3 => gatherShardedLogits (some 3)
            (fun _ i => (i : ℚ)) (logits.narrow (start rank) (count rank)) 4 (start rank)) results ↔
          results = fun _ => logits :=
  sharded_logits (ArgMax.scan ℚ) (show 0 < 3 by decide) ⟨4, [[1, 0, 7, 7], [2, 2, 1, 2]], by decide⟩
    (show 3 ≤ 4 by decide) (show (some 3).getD 1 = 3 from rfl) fun _ _ i => (i : ℚ)

end PocketMoE.Runtime
