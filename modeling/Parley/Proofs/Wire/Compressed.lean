import Parley.Wire.Compressed

/-!
# Compressed payloads unpack to what was packed

A block of literals unpacks to them (`Lz4.decode?_literals`), and the search for copies is only
trusted where its block unpacks. So every packed block does (`Lz4.decode?_encode`). A block that
unpacks, however it came about, is restored wherever its size is accepted
(`Compressed.decompress_block`). What becomes of any payload with a size is
`Compressed.decompress_of_announces`.
-/

namespace Parley

namespace Lz4

/-! ## Lengths -/

theorem prolong_prolongation (acc n : Nat) (rest : Bytes) :
    prolong acc (prolongation n ++ rest) = some (acc + n, rest) := by
  -- all bytes but the last are 255, and the last is less
  have hsteps : ∀ (k acc r : Nat), r < 255 →
      prolong acc (List.replicate k 255 ++ [UInt8.ofNat r] ++ rest) =
        some (acc + 255 * k + r, rest) := by
    intro k
    induction k with
    | zero =>
      intro acc r hr
      have hb : (UInt8.ofNat r).toNat = r := UInt8.toNat_ofNat_of_lt' (show r < 256 by omega)
      have hne : UInt8.ofNat r ≠ 255 := by
        intro he
        have := congrArg UInt8.toNat he
        rw [hb] at this
        exact absurd this (Nat.ne_of_lt hr)
      show prolong acc (UInt8.ofNat r :: rest) = _
      rw [prolong, if_neg hne, hb, Nat.mul_zero, Nat.add_zero]
    | succ k ih =>
      intro acc r hr
      rw [List.replicate_succ, List.cons_append, List.cons_append, prolong, if_pos rfl, ih _ r hr]
      have hsum : acc + 255 + 255 * k + r = acc + 255 * (k + 1) + r := by omega
      rw [hsum]
  have hsum : acc + 255 * (n / 255) + n % 255 = acc + n := by omega
  rw [prolongation, hsteps _ _ _ (Nat.mod_lt n (by decide)), hsum]

theorem splitLength_nibble_le (n : Nat) : (splitLength n).1 ≤ 15 := by
  unfold splitLength
  split
  · show n ≤ 15
    omega
  · exact Nat.le_refl 15

/-- A length is read back from its four bits and the bytes that prolong it. -/
theorem readLength_splitLength (n : Nat) (rest : Bytes) :
    readLength 0 (splitLength n).1 ((splitLength n).2 ++ rest) = some (n, rest) := by
  have hmargin : Bytes.isShorter 0 rest = false := rfl
  unfold splitLength readLength
  by_cases h : n < 15
  · rw [if_pos h, if_neg (by show n ≠ 15; omega)]
    rfl
  · have hsum : 15 + (n - 15) = n := by omega
    rw [if_neg h, if_pos rfl, prolong_prolongation, hsum]
    rfl

/-! ## Blocks -/

/-- Close to an end, a sequence without room for a copy has to end the block. -/
theorem sequences_last {size fuel : Nat} {token : UInt8} {rest more : Bytes}
    {out : Array UInt8} {n : Nat}
    (hfar : (decide (token.toNat / 16 ≠ 15) && isFarFromEnds size out rest) = false)
    (hn : readLength 0 (token.toNat / 16) rest = some (n, more))
    (hroom : size < out.size + n + outputMargin) (hlength : more.length = n)
    (hfit : out.size + n ≤ size) :
    sequences size (fuel + 1) (token :: rest) out = some (out ++ more.toArray) := by
  simp only [sequences, hfar, bind, Option.bind, hn, Bool.not_false, Bool.true_and, hroom,
    decide_true, Bool.true_or, if_true, hlength, hfit, and_self]

theorem lt_of_splitLength {n : Nat} (h : (splitLength n).1 ≠ 15) : n < 15 := by
  unfold splitLength at h
  by_cases hn : n < 15
  · exact hn
  · rw [if_neg hn] at h
    exact absurd rfl h

/-- The only sequence of a block of literals is no quick one. -/
theorem not_isFarFromEnds {n : Nat} (rest : Bytes) (h : (splitLength n).1 ≠ 15) :
    isFarFromEnds n #[] rest = false := by
  have hlt := lt_of_splitLength h
  have hsize : decide ((#[] : Array UInt8).size + 32 ≤ n) = false := by
    rw [decide_eq_false_iff_not]
    show ¬ 0 + 32 ≤ n
    omega
  rw [isFarFromEnds, hsize, Bool.false_and]

theorem sequences_literals (fuel : Nat) (bs : Bytes) :
    sequences bs.length (fuel + 1) (literals bs) #[] = some bs.toArray := by
  have hnibble := splitLength_nibble_le bs.length
  have htoken : (UInt8.ofNat ((splitLength bs.length).1 * 16)).toNat / 16 =
      (splitLength bs.length).1 := by
    rw [UInt8.toNat_ofNat_of_lt' (show _ < 256 by omega), Nat.mul_div_cancel _ (by decide)]
  have hfar : ((splitLength bs.length).1 ≠ 15 && isFarFromEnds bs.length #[]
      ((splitLength bs.length).2 ++ bs)) = false := by
    by_cases h : (splitLength bs.length).1 = 15
    · simp [h]
    · rw [not_isFarFromEnds _ h, Bool.and_false]
  have hend : bs.length < (#[] : Array UInt8).size + bs.length + outputMargin := by
    show bs.length < 0 + bs.length + 12
    omega
  have hread := readLength_splitLength bs.length bs
  rw [← htoken] at hfar hread
  have hall : sequences bs.length (fuel + 1) (literals bs) #[] = some (#[] ++ bs.toArray) :=
    sequences_last hfar hread hend rfl (by simp)
  rw [hall, Array.empty_append]

/-- A block of literals unpacks to them. -/
theorem decode?_literals (bs : Bytes) : decode? bs.length (literals bs) = some bs := by
  cases bs with
  | nil => rfl
  | cons b bs =>
    have hsequences := sequences_literals (literals (b :: bs)).length (b :: bs)
    have hne : (b :: bs).length ≠ 0 := Nat.succ_ne_zero _
    rw [decode?, if_neg hne, hsequences]
    rfl

/-- Every packed block unpacks to what was packed. -/
theorem decode?_encode (bs : Bytes) : decode? bs.length (encode bs) = some bs := by
  rcases encode_eq_or bs with h | h
  · exact h
  · rw [h]
    exact decode?_literals bs

end Lz4

namespace Compressed

theorem signed32_of_lt {n : Nat} (h : n < 2147483648) : signed32 n = n := by
  rw [signed32, if_pos h]

/-- A payload that consists of a size, which is not negative, and a block. -/
def Announces (bs : Bytes) (size : Nat) (block : Bytes) : Prop :=
  bs = Bytes.ofNatLE 4 size ++ block ∧ size < 2147483648

/-- The size is looked at first, against the limit and against that of the format. -/
theorem decompress_of_announces {bs block : Bytes} {size : Nat} (h : Announces bs size block)
    (limit : Nat) :
    decompress limit bs =
      if limit < size then .error (.frameTooLarge size limit)
      else if sizeLimit < size then .error (.malformedFrame .hugeSize)
      else (Lz4.decode? size block).elim (.error (.malformedFrame .corrupt)) .ok := by
  obtain ⟨rfl, hlt⟩ := h
  have hsigned : signed32 size = size := signed32_of_lt hlt
  have hword : size < Bytes.wordCount 4 := Nat.lt_trans hlt (by decide)
  have hpos : ¬ (size : Int) < 0 := by omega
  rw [decompress, Bytes.takeLE?_ofNatLE_append, Nat.mod_eq_of_lt hword]
  simp only [hsigned, Int.toNat_natCast, if_neg hpos]
  cases Lz4.decode? size block with
  | none => rfl
  | some out => rfl

/-- A block behind its unpacked size is unpacked if the limit admits the size, and refused
otherwise. -/
theorem decompress_block {size : Nat} (hsize : size ≤ sizeLimit) {block out : Bytes}
    (h : Lz4.decode? size block = some out) (limit : Nat) :
    decompress limit (Bytes.ofNatLE 4 size ++ block) =
      if limit < size then .error (.frameTooLarge size limit) else .ok out := by
  have hannounces : Announces (Bytes.ofNatLE 4 size ++ block) size block :=
    ⟨rfl, Nat.lt_of_le_of_lt hsize (by decide)⟩
  rw [decompress_of_announces hannounces, if_neg (Nat.not_lt.mpr hsize), h, Option.elim_some]

end Compressed

end Parley
