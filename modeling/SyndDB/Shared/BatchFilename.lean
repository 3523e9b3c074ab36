import SyndDB.Framework.Text

namespace SyndDB.Shared

open Octets Text

def parseU64 (text : Bytes) : Option UInt64 := (parseUnsigned 64 text).toOption.map UInt64.ofNat

def batchExtension : Bytes := ascii ".cbor.zst"

/-- `_` -/
def underscore : UInt8 := 95

def parseBatchFilename (filename : Bytes) : Option (UInt64 × UInt64) := do
  let withoutExt ← stripSuffix batchExtension filename
  match withoutExt.splitOn underscore with
  | start :: finish :: parts =>
      let start ← parseU64 start
      let finish ← parseU64 finish
      if parts.isEmpty then some (start, finish) else none
  | _ => none

def formatBatchFilename (startSequence endSequence : UInt64) : Bytes :=
  paddedDecimal 12 startSequence.toNat ++ underscore :: paddedDecimal 12 endSequence.toNat ++
    batchExtension

theorem parseU64_paddedDecimal (width : Nat) (x : UInt64) :
    parseU64 (paddedDecimal width x.toNat) = some x := by
  rw [parseU64, parseUnsigned_paddedDecimal 64 width x.toNat x.toNat_lt]
  exact congrArg some UInt64.ofNat_toNat

theorem underscore_not_digit (width n : Nat) : underscore ∉ paddedDecimal width n := by
  intro member
  have digit := (decimalDigit_isSome _).mp (paddedDecimal_digits width n _ member)
  exact absurd digit.2 (by decide)

theorem parse_format (s e : UInt64) : parseBatchFilename (formatBatchFilename s e) =
    some (s, e) := by
  have parts : (paddedDecimal 12 s.toNat ++ underscore :: paddedDecimal 12 e.toNat).splitOn
      underscore = [paddedDecimal 12 s.toNat, paddedDecimal 12 e.toNat] := by
    rw [List.splitOn_append_cons_self_of_not_mem (underscore_not_digit 12 _),
      List.splitOn_eq_singleton (underscore_not_digit 12 _)]
  rw [parseBatchFilename, formatBatchFilename, stripSuffix_append]
  simp only [Option.bind_eq_bind, Option.bind_some, parts, parseU64_paddedDecimal,
    List.isEmpty_nil, if_true]

example : parseBatchFilename (ascii "000000000001_000000000050.cbor.zst") = some (1, 50) := by
  decide

/-- The range `r` comes before `r'`. -/
def RangeBefore (r r' : UInt64 × UInt64) : Prop := r.1 < r'.1 ∨ r.1 = r'.1 ∧ r.2 < r'.2

theorem format_lt_iff (s e s' e' : UInt64) (hs : s.toNat < 10 ^ 12) (he : e.toNat < 10 ^ 12)
    (hs' : s'.toNat < 10 ^ 12) (he' : e'.toNat < 10 ^ 12) :
    formatBatchFilename s e < formatBatchFilename s' e' ↔ RangeBefore (s, e) (s', e') := by
  have length (x y : UInt64) (hx : x.toNat < 10 ^ 12) (hy : y.toNat < 10 ^ 12) :
      (paddedDecimal 12 x.toNat).length = (paddedDecimal 12 y.toNat).length := by
    rw [length_paddedDecimal 12 _ (by decide) hx, length_paddedDecimal 12 _ (by decide) hy]
  have middle : ¬underscore < underscore := by decide
  have last : ¬batchExtension < batchExtension := List.lt_irrefl _
  rw [formatBatchFilename, formatBatchFilename, List.append_assoc, List.append_assoc,
    append_lt_append_iff _ _ _ _ (length s s' hs hs'), List.cons_append, List.cons_append,
    List.cons_lt_cons_iff, append_lt_append_iff _ _ _ _ (length e e' he he'),
    paddedDecimal_lt_iff 12 _ _ (by decide) hs hs', paddedDecimal_lt_iff 12 _ _ (by decide) he he',
    paddedDecimal_inj, RangeBefore, UInt64.lt_iff_toNat_lt, UInt64.lt_iff_toNat_lt,
    UInt64.toNat_inj]
  simp only [middle, last, and_false, or_false, true_and, false_or]

/-- File names are read back for all ranges, and sorted like the ranges where the numbers
fit the padding. -/
theorem batch_filenames_ordered :
    (∀ s e, parseBatchFilename (formatBatchFilename s e) = some (s, e)) ∧
    (∀ s e s' e' : UInt64, s.toNat < 10 ^ 12 → e.toNat < 10 ^ 12 → s'.toNat < 10 ^ 12 →
      e'.toNat < 10 ^ 12 →
      (formatBatchFilename s e < formatBatchFilename s' e' ↔ RangeBefore (s, e) (s', e'))) ∧
    ∀ ranges : List (UInt64 × UInt64), (∀ r ∈ ranges, r.1.toNat < 10 ^ 12 ∧ r.2.toNat < 10 ^ 12) →
      ((ranges.map fun r => formatBatchFilename r.1 r.2).Pairwise (· < ·) ↔
        ranges.Pairwise RangeBefore) := by
  refine ⟨parse_format, format_lt_iff, ?_⟩
  intro ranges fit
  rw [List.pairwise_map]
  refine List.Pairwise.iff_of_mem ?_
  intro r r' hr hr'
  exact format_lt_iff r.1 r.2 r'.1 r'.2 (fit r hr).1 (fit r hr).2 (fit r' hr').1 (fit r' hr').2

theorem batch_filenames_ordered_listing :
    formatBatchFilename 1 50 < formatBatchFilename 51 100 ∧
      ([(1, 50), (51, 51), (51, 100), (999999999999, 999999999999)].map fun r : UInt64 × UInt64 =>
        formatBatchFilename r.1 r.2).Pairwise (· < ·) :=
  ⟨(batch_filenames_ordered.2.1 1 50 51 100 (by decide) (by decide) (by decide) (by decide)).mpr
      (Or.inl (by decide)),
    (batch_filenames_ordered.2.2 _ (by simp)).mpr (by unfold RangeBefore; decide)⟩

end SyndDB.Shared
