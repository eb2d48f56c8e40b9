import Mathlib.Algebra.Group.Int.Defs
import PocketMoE.Lib.Bpe
import PocketMoE.Lib.Bytes

/-!
# The tokenizer of the C++ engine

Model of `tokenizer.cpp`: the tables that `from_gguf` makes, `encode_basic` with the pre-tokens and the
merges, and `decode_tokens`. A `std::string` is its list of bytes.
-/

namespace PocketMoE.Engine
open PocketMoE.Lib

/-! ## The alphabet of bytes -/

/-- `utf8_codepoint`. -/
def utf8Codepoint (cp : Nat) : List Byte :=
  if cp ≤ 0x7F then [Fin.ofNat 256 cp]
  else if cp ≤ 0x7FF then [Fin.ofNat 256 (0xC0 ||| cp >>> 6), Fin.ofNat 256 (0x80 ||| cp &&& 0x3F)]
  else [Fin.ofNat 256 (0xE0 ||| cp >>> 12), Fin.ofNat 256 (0x80 ||| cp >>> 6 &&& 0x3F),
    Fin.ofNat 256 (0x80 ||| cp &&& 0x3F)]

/-- The bytes that stand for themselves (`byte_alphabet`, the first loops). -/
def printableBytes : List Nat := List.range' 0x21 94 ++ List.range' 0xA1 12 ++ List.range' 0xAE 82

/-- The other bytes, in their order. -/
def otherBytes : List Nat := (List.range 256).filter (· ∉ printableBytes)

/-- `bs` of `byte_alphabet`. -/
def alphabetBytes : List Nat := printableBytes ++ otherBytes

/-- `cs` of `byte_alphabet`. -/
def alphabetCodes : List Nat :=
  printableBytes ++ (List.range otherBytes.length).map (256 + ·)

/-- `byte_alphabet`, for a byte. -/
def symbol (b : Byte) : List Byte :=
  utf8Codepoint (alphabetCodes.getD (alphabetBytes.idxOf b.1) 0)

/-- The symbol that a text begins with. The table of `byte_decoder` has no order; only one of its
entries can match (`symbol_unique`). -/
@[irreducible]
def symbolAt (s : List Byte) : Option Byte := (List.finRange 256).find? fun b => symbol b <+: s

/-! ## Pre-tokens -/

/-- `ByteTokenClass`. -/
inductive ByteTokenClass where
  | space
  | whitespace
  | letter
  | number
  | other
deriving DecidableEq

/-- `utf8_char_len`. -/
def utf8CharLen (c : Byte) : Nat :=
  if c.1 &&& 0x80 = 0 then 1
  else if c.1 &&& 0xE0 = 0xC0 then 2
  else if c.1 &&& 0xF0 = 0xE0 then 3
  else if c.1 &&& 0xF8 = 0xF0 then 4
  else 1

/-- `byte_token_class`. -/
def byteTokenClass (c : Byte) : ByteTokenClass :=
  if c = 0x20 then .space
  else if c = 0x0A ∨ c = 0x0D ∨ c = 0x09 ∨ c = 0x0B ∨ c = 0x0C then .whitespace
  else if c.1 < 128 then
    if 0x41 ≤ c ∧ c ≤ 0x5A ∨ 0x61 ≤ c ∧ c ≤ 0x7A then .letter
    else if 0x30 ≤ c ∧ c ≤ 0x39 then .number
    else .other
  else .letter

/-- The characters of one class at the beginning of a text, and what is left; `skip` bytes of a
character are still to be passed over. -/
def takeRun (cls : ByteTokenClass) : Nat → List Byte → List Byte × List Byte
  | _, [] => ([], [])
  | skip + 1, c :: rest => ((takeRun cls skip rest).1.cons c, (takeRun cls skip rest).2)
  | 0, c :: rest =>
    if byteTokenClass c = cls then
      let run := takeRun cls (utf8CharLen c - 1) rest
      (c :: run.1, run.2)
    else ([], c :: rest)

/-- The loop of `bytelevel_pretokens`, with the pending space. -/
def pretokensFrom : Nat → List Byte → List Byte → List (List Byte)
  | 0, _, _ => []
  | _ + 1, _, [] => []
  | fuel + 1, pending, c :: rest =>
    match byteTokenClass c with
    | .space =>
      let run := (c :: rest).takeWhile (· = 0x20)
      let left := (c :: rest).dropWhile (· = 0x20)
      if left = [] then run :: pretokensFrom fuel pending left
      else if 1 < run.length then
        List.replicate (run.length - 1) 0x20 :: pretokensFrom fuel [0x20] left
      else pretokensFrom fuel [0x20] left
    | .whitespace =>
      let run := (c :: rest).takeWhile fun c => byteTokenClass c = .whitespace
      let left := (c :: rest).dropWhile fun c => byteTokenClass c = .whitespace
      run :: pretokensFrom fuel pending left
    | cls =>
      let run := takeRun cls 0 (c :: rest)
      (pending ++ run.1) :: pretokensFrom fuel [] run.2

/-- `bytelevel_pretokens`. -/
def bytelevelPretokens (text : List Byte) : List (List Byte) := pretokensFrom text.length [] text

/-! ## The tables -/

/-- `Tokenizer`. Of several entries of a table with one key, the first one here is the last one set. -/
structure Tokenizer where
  idToToken : List (List Byte)
  tokenToId : List (List Byte × Int)
  mergeRank : List ((List Byte × List Byte) × Int)
  specialTokenIds : List Bool
  specialTokenIdList : List Int

/-- `split_merge`. -/
def splitMerge (merge : List Byte) : Except String (List Byte × List Byte) :=
  if 0x20 ∈ merge then
    .ok (merge.takeWhile (· ≠ 0x20), (merge.dropWhile (· ≠ 0x20)).tail)
  else .error "bad BPE merge"

/-- `from_gguf`, for the three arrays of the metadata. -/
def Tokenizer.fromGguf (tokens merges : List (List Byte)) (tokenTypes : List Int) :
    Except String Tokenizer := do
  if tokens.length ≠ tokenTypes.length then
    .error "GGUF tokenizer tokens/token_type length mismatch"
  else
    let pairs ← merges.mapM splitMerge
    let numbered := tokens.zipIdx.map fun entry => (entry.1, (entry.2 : Int))
    let special := tokenTypes.map fun type => decide (type ≠ 1)
    return {
      idToToken := tokens
      tokenToId := numbered.reverse
      mergeRank := (pairs.zipIdx.map fun entry => (entry.1, (entry.2 : Int))).reverse
      specialTokenIds := special
      specialTokenIdList := (special.zipIdx.filter Prod.fst).map fun entry => (entry.2 : Int) }

section
variable (tok : Tokenizer)

/-- The bytes of an ASCII literal. -/
def ascii (s : String) : List Byte := s.toList.map fun c => Fin.ofNat 256 c.toNat

/-- `token`. -/
def Tokenizer.token (id : Int) : List Byte :=
  if id < 0 then ascii "<invalid>"
  else
    match tok.idToToken[id.toNat]? with
    | none => ascii "<invalid>"
    | some tok => if tok = [] then ascii "<empty>" else tok

/-- `is_special_token`. -/
def Tokenizer.isSpecialToken (id : Int) : Bool :=
  0 ≤ id && tok.specialTokenIds.getD id.toNat false

/-! ## Decoding -/

/-- `piece.size() >= 2 && piece.front() == '<' && piece.back() == '>'`. -/
def angled (piece : List Byte) : Bool :=
  2 ≤ piece.length && piece.head? = some 0x3C && piece.getLast? = some 0x3E

/-- A piece, symbol by symbol; a byte that begins none is kept. -/
def decodeSymbols : Nat → List Byte → List Byte
  | 0, _ => []
  | _ + 1, [] => []
  | fuel + 1, c :: rest =>
    (symbolAt (c :: rest)).elim (c :: decodeSymbols fuel rest) fun b =>
      b :: decodeSymbols fuel ((c :: rest).drop (symbol b).length)

/-- A token that is passed over. -/
def Tokenizer.skipped (id : Int) : Bool := tok.isSpecialToken id || angled (tok.token id)

/-- `decode_tokens`. -/
def Tokenizer.decodeTokens (ids : List Int) (skipSpecialTokens : Bool) : List Byte :=
  ids.flatMap fun id =>
    if skipSpecialTokens && tok.skipped id then []
    else decodeSymbols (tok.token id).length (tok.token id)

/-! ## Encoding -/

/-- `std::numeric_limits<int>::max()`. -/
def intMax : Int := 2 ^ 31 - 1

/-- `append_bpe_pretoken`, the merges. -/
def Tokenizer.bpe (pretoken : List Byte) : List (List Byte) :=
  Bpe.mergeAll (fun a b => tok.mergeRank.lookup (a, b)) intMax pretoken.length
    (pretoken.map symbol)

/-- The number of a piece. -/
def Tokenizer.pieceId (piece : List Byte) : Except (List Byte) Int :=
  match tok.tokenToId.lookup piece with
  | none => .error piece
  | some id => .ok id

/-- `append_bpe_pretoken`; the error is the piece that is missing. -/
def Tokenizer.encodePretoken (pretoken : List Byte) : Except (List Byte) (List Int) :=
  (tok.bpe pretoken).mapM tok.pieceId

/-- `append_bpe_segment`. -/
def Tokenizer.encodeSegment (segment : List Byte) : Except (List Byte) (List Int) := do
  let ids ← (bytelevelPretokens segment).mapM tok.encodePretoken
  return ids.flatten

/-- `longest_special_at`, for the text at a position. -/
def Tokenizer.longestSpecialAt (text : List Byte) : Option (Int × Nat) :=
  tok.specialTokenIdList.foldl (fun best id =>
    match if id < 0 then none else tok.idToToken[id.toNat]? with
    | none => best
    | some token =>
      if token ≠ [] ∧ token <+: text ∧ (best.map Prod.snd).getD 0 < token.length then
        some (id, token.length)
      else best) none

/-- The loop of `encode_basic`, with the segment so far. -/
def Tokenizer.encodeFrom : Nat → List Byte → List Byte → Except (List Byte) (List Int)
  | fuel + 1, segment, c :: rest =>
    match tok.longestSpecialAt (c :: rest) with
    | some (id, len) => do
      let ids ← tok.encodeSegment segment
      let more ← Tokenizer.encodeFrom fuel [] ((c :: rest).drop len)
      return ids ++ id :: more
    | none => Tokenizer.encodeFrom fuel (segment ++ [c]) rest
  | _, segment, _ => tok.encodeSegment segment

/-- `encode_basic`. -/
def Tokenizer.encodeBasic (text : List Byte) (addBos : Bool) : Except (List Byte) (List Int) := do
  let ids ← tok.encodeFrom text.length [] text
  return (if addBos then [0] else []) ++ ids

end

end PocketMoE.Engine
