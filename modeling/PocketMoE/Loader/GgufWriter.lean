import Mathlib.Algebra.Group.Int.Defs
import PocketMoE.Lib.Blocks
import PocketMoE.Loader.GgufAgreement

/-!
# Writing GGUF files in Python

What the writers of GGUF files share: a file opened for writing is the bytes that were written, `struct`
refuses numbers that do not fit, and `_pad_file` fills up to the alignment. Each lemma says what has been
appended when a step succeeds.
-/

namespace PocketMoE.Loader.Python
open PocketMoE.Lib

/-- The exceptions of the writers. -/
inductive WriteError where
  | structError
  | unicodeEncodeError
  | fileTooLarge
  | eof
  | zeroDivision
  | keyError
  | runtimeError
  | valueError
  | reading (e : PyError)
deriving DecidableEq

/-- A step of a writer; the state is what has been written. -/
abbrev Write := StateT (List Byte) (Except WriteError)

/-- `f.write`; a position has 63 bits. -/
def fwrite (data : List Byte) : Write Unit := fun file =>
  if 2 ^ 63 ≤ file.length + data.length then .error .fileTooLarge else .ok ((), file ++ data)

/-- `struct.pack`, for an unsigned format of some bytes. -/
def structPack (width : Nat) (n : Int) : Except WriteError (List Byte) :=
  if 0 ≤ n ∧ n < 256 ^ width then .ok (leBytes width n.toNat) else .error .structError

/-- `f.write(struct.pack(..))`. -/
def writeStruct (width : Nat) (n : Int) : Write Unit := do
  let data ← structPack width n
  fwrite data

/-- `str.encode("utf-8")`, which refuses surrogates. -/
def encodeStrict (s : Text) : Except WriteError (List Byte) :=
  if s.all (IsScalar ·) then .ok (encodeUtf8 s) else .error .unicodeEncodeError

/-- `_pad_file`. -/
def padFile (alignment : Int) : Write Unit := fun file =>
  match alignUp file.length alignment with
  | .error e => .error (.reading e)
  | .ok padded =>
    if file.length < padded then fwrite (List.replicate (padded.toNat - file.length) 0) file
    else .ok ((), file)

/-- The records of the tensors one after another. -/
def writeAll {α : Type} (w : α → Write Unit) : List α → Write Unit
  | [] => pure ()
  | a :: as => do
    w a
    writeAll w as

/-! ## What is appended -/

/-- Bytes of a kind are appended when a step succeeds, and the positions still have 63 bits. -/
def Appends {α : Type} (w : Write α) (P : List Byte → Prop) : Prop :=
  ∀ ⦃file a file'⦄, file.length < 2 ^ 63 → w file = .ok (a, file') →
    file'.length < 2 ^ 63 ∧ ∃ l, file' = file ++ l ∧ P l

namespace Appends

variable {α β : Type} {w : Write α} {k : α → Write β} {P Q : List Byte → Prop}

lemma of_imp (appends : Appends w P) (imp : ∀ l, P l → Q l) : Appends w Q := by
  intro file a file' small wrote
  obtain ⟨small', l, split, fits⟩ := appends small wrote
  exact ⟨small', l, split, imp l fits⟩

lemma bind (first : Appends w P) (rest : ∀ a, Appends (k a) Q) :
    Appends (w >>= k) fun l => ∃ l₁ l₂, l = l₁ ++ l₂ ∧ P l₁ ∧ Q l₂ := by
  intro file b file' small wrote
  obtain ⟨a, mid, here, there⟩ := run_bind_ok.mp wrote
  obtain ⟨small, l₁, rfl, fits⟩ := first small here
  obtain ⟨small, l₂, rfl, fits'⟩ := rest a small there
  exact ⟨small, l₁ ++ l₂, List.append_assoc .., l₁, l₂, rfl, fits, fits'⟩

lemma lift {x : Except WriteError α} (rest : ∀ a, x = .ok a → Appends (k a) P) :
    Appends (liftM x >>= k) P := by
  intro file b file' small wrote
  obtain ⟨a, mid, here, there⟩ := run_bind_ok.mp wrote
  cases x with
  | error e => cases here
  | ok a' =>
    cases here
    exact rest a rfl small there

lemma pure (a : α) : Appends (pure a) fun l => l = [] := by
  intro file b file' small wrote
  obtain ⟨-, rfl⟩ := run_pure_ok.mp wrote
  exact ⟨small, [], (List.append_nil _).symm, rfl⟩

end Appends

lemma appends_fwrite (data : List Byte) : Appends (fwrite data) fun l => l = data := by
  intro file a file' _ wrote
  unfold fwrite at wrote
  split_ifs at wrote with large
  cases wrote
  refine ⟨?_, data, rfl, rfl⟩
  rw [List.length_append]
  exact Nat.lt_of_not_le large

lemma structPack_ok {width : Nat} {n : Int} {data : List Byte} (packed : structPack width n = .ok data) :
    (0 ≤ n ∧ n.toNat < 256 ^ width) ∧ data = leBytes width n.toNat := by
  unfold structPack at packed
  split_ifs at packed with fits
  cases packed
  obtain ⟨nonneg, lt⟩ := fits
  refine ⟨⟨nonneg, ?_⟩, rfl⟩
  apply Int.ofNat_lt.mp
  rw [Int.toNat_of_nonneg nonneg, Int.natCast_pow]
  exact lt

lemma appends_struct (width : Nat) (n : Int) : Appends (writeStruct width n) fun l =>
    (0 ≤ n ∧ n.toNat < 256 ^ width) ∧ l = leBytes width n.toNat := by
  refine .lift fun data packed => (appends_fwrite data).of_imp ?_
  rintro l rfl
  exact structPack_ok packed

lemma appends_nat (width n : Nat) : Appends (writeStruct width n) fun l =>
    n < 256 ^ width ∧ l = leBytes width n := by
  refine (appends_struct width n).of_imp fun l => ?_
  rw [Int.toNat_natCast]
  rintro ⟨⟨-, fits⟩, rfl⟩
  exact ⟨fits, rfl⟩

lemma encodeStrict_ok {s : Text} {data : List Byte} (encoded : encodeStrict s = .ok data) :
    (∀ c ∈ s, IsScalar c) ∧ data = encodeUtf8 s := by
  unfold encodeStrict at encoded
  split_ifs at encoded with scalars
  cases encoded
  exact ⟨forall_code scalars, rfl⟩

lemma appends_all {α : Type} {w : α → Write Unit} {C : α → Prop} {f : α → List Byte} {as : List α}
    (each : ∀ a ∈ as, Appends (w a) fun l => C a ∧ l = f a) :
    Appends (writeAll w as) fun l => (∀ a ∈ as, C a) ∧ l = as.flatMap f := by
  induction as with
  | nil =>
    refine (Appends.pure ()).of_imp ?_
    rintro l rfl
    exact ⟨nofun, rfl⟩
  | cons a as ih =>
    obtain ⟨first, others⟩ := List.forall_mem_cons.mp each
    refine (first.bind fun _ => ih others).of_imp ?_
    rintro _ ⟨l₁, l₂, rfl, ⟨fits, rfl⟩, all, rfl⟩
    exact ⟨List.forall_mem_cons.mpr ⟨fits, all⟩, List.flatMap_cons.symm⟩

/-! ## Reading it back -/

lemma read_eq {py : Builtins} {bytes : List Byte} {version pos : Nat} {a s : Int}
    {metadata : List (Text × PyValue)} {records : List (Text × List Nat × Nat × Nat)}
    (isGguf : bytes.take 4 = magic)
    (header : readHeader bytes 4 = .ok ((version, metadata, records), pos))
    (taken : toInt py ((metadata.lookup (text "general.alignment")).getD (.int 32)) = .ok a)
    (aligned : alignUp pos a = .ok s) :
    read py bytes = .ok {
      version, tensorCount := records.length, metadataCount := metadata.length, metadata,
      tensors := records.map (tensorInfo s), dataStart := s, alignment := a, size := bytes.length } := by
  rw [Python.read, if_neg (not_not.mpr isGguf), header]
  show (toInt py _ >>= _) = _
  rw [taken]
  show (alignUp pos a >>= _) = _
  rw [aligned]
  rfl

/-! ## The alignment -/

lemma alignUp_eq {alignment : Nat} (pos : 1 ≤ alignment) (n : Nat) :
    alignUp n alignment = .ok (roundUp alignment n : Nat) := by
  unfold alignUp
  rw [if_neg (by omega)]
  have top : (n : Int) + alignment - 1 = (n + alignment - 1 : Nat) := by omega
  rw [top, Int.fdiv_eq_ediv_of_nonneg _ (by omega)]
  unfold roundUp
  push_cast
  rfl

lemma padFile_ok {alignment : Nat} (pos : 1 ≤ alignment) {file file' : List Byte} {a : Unit}
    (small : file.length < 2 ^ 63) (padded : padFile alignment file = .ok (a, file')) :
    file'.length < 2 ^ 63 ∧ file' = filled alignment 0 file := by
  unfold padFile at padded
  rw [alignUp_eq pos] at padded
  dsimp only at padded
  split_ifs at padded with short
  · rw [Int.toNat_natCast] at padded
    obtain ⟨small', l, rfl, rfl⟩ := appends_fwrite _ small padded
    exact ⟨small', rfl⟩
  · cases padded
    refine ⟨small, ?_⟩
    have none : roundUp alignment file.length - file.length = 0 := by omega
    rw [filled, none, List.replicate_zero, List.append_nil]

lemma blocks_ok {α : Type} {alignment : Nat} (pos : 1 ≤ alignment) {w : α → Write Unit} {C : α → Prop}
    {block : α → List Byte} {as : List α} (appends : ∀ a ∈ as, Appends (w a) fun l => C a ∧ l = block a)
    {file file' : List Byte} {u : Unit} (small : file.length < 2 ^ 63) (dvd : alignment ∣ file.length)
    (wrote : writeAll (fun a => do w a; padFile alignment) as file = .ok (u, file')) :
    file'.length < 2 ^ 63 ∧ (∀ a ∈ as, C a) ∧
      file' = file ++ (as.map block).flatMap (filled alignment 0) := by
  induction as generalizing file with
  | nil =>
    obtain ⟨-, rfl⟩ := run_pure_ok.mp wrote
    exact ⟨small, nofun, (List.append_nil _).symm⟩
  | cons a as ih =>
    obtain ⟨first, others⟩ := List.forall_mem_cons.mp appends
    obtain ⟨u', mid, both, there⟩ := run_bind_ok.mp wrote
    obtain ⟨v, mid', here, padded⟩ := run_bind_ok.mp both
    obtain ⟨small, l, rfl, holds, rfl⟩ := first small here
    obtain ⟨small, rfl⟩ := padFile_ok pos small padded
    -- the file is filled up as the block is
    have next : filled alignment 0 (file ++ block a) = file ++ filled alignment 0 (block a) := by
      rw [filled, filled, List.length_append, roundUp_add pos dvd, Nat.add_sub_add_left,
        List.append_assoc]
    have dvd' : alignment ∣ (file ++ filled alignment 0 (block a)).length := by
      rw [List.length_append, length_filled pos]
      exact Nat.dvd_add dvd (dvd_roundUp ..)
    rw [next] at small there
    obtain ⟨small, all, rfl⟩ := ih others small dvd' there
    refine ⟨small, List.forall_mem_cons.mpr ⟨holds, all⟩, ?_⟩
    rw [List.map_cons, List.flatMap_cons, List.append_assoc]

lemma writeAll_map {α β : Type} (w : α → Write Unit) (f : β → α) (bs : List β) :
    writeAll w (bs.map f) = writeAll (fun b => w (f b)) bs := by
  induction bs with
  | nil => rfl
  | cons b bs ih => rw [List.map_cons, writeAll, writeAll, ih]

end PocketMoE.Loader.Python
