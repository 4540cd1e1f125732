import Parley.Text.Utf8

/-!
# UTF-8 reads back what it wrote

A character is at most four bytes, and the first of them tells how many (`lead`). So the reader
takes exactly the bytes of a character off the front (`decodeFrom_encodeChar`), and a whole text
is read back (`decode_encode`).
-/

namespace Parley

namespace Utf8

/-! ## First bytes -/

theorem lead_single {b : UInt8} (h : b.toNat < 0x80) : lead b = .single := by
  unfold lead
  rw [if_pos (UInt8.lt_iff_toNat_lt.mpr h)]

theorem lead_double {b : UInt8} (h : 0xC2 ≤ b.toNat) (h' : b.toNat < 0xE0) : lead b = .double := by
  simp only [lead, UInt8.lt_iff_toNat_lt]
  rw [if_neg (by simp; omega), if_neg (by simp; omega), if_pos (by simpa using h')]

/-- The range of the second byte of three. -/
def tripleRange (b : UInt8) : UInt8 × UInt8 :=
  (if b = 0xE0 then 0xA0 else 0x80, if b = 0xED then 0x9F else 0xBF)

theorem lead_triple {b : UInt8} (h : 0xE0 ≤ b.toNat) (h' : b.toNat < 0xF0) :
    lead b = .triple (tripleRange b).1 (tripleRange b).2 := by
  simp only [lead, tripleRange, UInt8.lt_iff_toNat_lt]
  rw [if_neg (by simp; omega), if_neg (by simp; omega), if_neg (by simp; omega)]
  by_cases h0 : b = 0xE0
  · simp [h0]
  · by_cases hd : b = 0xED
    · simp [hd]
    · rw [if_neg h0, if_neg hd, if_pos (by simpa using h'), if_neg h0, if_neg hd]

/-- The range of the second byte of four. -/
def quadrupleRange (b : UInt8) : UInt8 × UInt8 :=
  (if b = 0xF0 then 0x90 else 0x80, if b = 0xF4 then 0x8F else 0xBF)

theorem lead_quadruple {b : UInt8} (h : 0xF0 ≤ b.toNat) (h' : b.toNat < 0xF5) :
    lead b = .quadruple (quadrupleRange b).1 (quadrupleRange b).2 := by
  have hE0 : b ≠ 0xE0 := by rintro rfl; simp at h
  have hED : b ≠ 0xED := by rintro rfl; simp at h
  simp only [lead, quadrupleRange, UInt8.lt_iff_toNat_lt]
  rw [if_neg (by simp; omega), if_neg (by simp; omega), if_neg (by simp; omega), if_neg hE0,
    if_neg hED, if_neg (by simp; omega)]
  by_cases h0 : b = 0xF0
  · simp [h0]
  · by_cases h4 : b = 0xF4
    · simp [h4]
    · have hlt : b.toNat < 0xF4 := by
        have hne : b.toNat ≠ 0xF4 := fun he => h4 (UInt8.toNat_inj.mp he)
        omega
      rw [if_neg h0, if_pos (by simpa using hlt), if_neg h0, if_neg h4]

/-! ## Continuation bytes -/

theorem isContinuation_ofNat {n : Nat} (h : n < 64) :
    isContinuation (UInt8.ofNat (0x80 + n)) = true := by
  have hb := UInt8.toNat_ofNat_of_lt' (show 0x80 + n < 256 by omega)
  rw [isContinuation, Bool.and_eq_true, decide_eq_true_eq, decide_eq_true_eq,
    UInt8.le_iff_toNat_le, UInt8.le_iff_toNat_le, hb]
  refine ⟨?_, ?_⟩
  · show 128 ≤ 0x80 + n
    omega
  · show 0x80 + n ≤ 191
    omega

theorem low6_ofNat {n : Nat} (h : n < 64) : low6 (UInt8.ofNat (0x80 + n)) = n := by
  have hb := UInt8.toNat_ofNat_of_lt' (show 0x80 + n < 256 by omega)
  unfold low6
  omega

/-! ## Whole sequences -/

theorem decodeFrom_single (index : Nat) {b : UInt8} (rest : Bytes) (h : lead b = .single) :
    decodeFrom index (b :: rest) = (Char.ofNat b.toNat :: ·) <$> decodeFrom (index + 1) rest := by
  rw [decodeFrom.eq_def]
  simp only [h]

theorem decodeFrom_double (index : Nat) {b b₁ : UInt8} (rest : Bytes) (h : lead b = .double)
    (h₁ : isContinuation b₁ = true) :
    decodeFrom index (b :: b₁ :: rest) =
      (Char.ofNat ((b.toNat - 0xC0) * 64 + low6 b₁) :: ·) <$> decodeFrom (index + 2) rest := by
  rw [decodeFrom.eq_def]
  simp [h, h₁]

theorem decodeFrom_triple (index : Nat) {b b₁ b₂ low high : UInt8} (rest : Bytes)
    (h : lead b = .triple low high) (hlow : low ≤ b₁) (hhigh : b₁ ≤ high)
    (h₂ : isContinuation b₂ = true) :
    decodeFrom index (b :: b₁ :: b₂ :: rest) =
      (Char.ofNat ((b.toNat - 0xE0) * 4096 + low6 b₁ * 64 + low6 b₂) :: ·) <$>
        decodeFrom (index + 3) rest := by
  rw [decodeFrom.eq_def]
  simp [h, h₂, UInt8.not_lt.mpr hlow, UInt8.not_lt.mpr hhigh]

theorem decodeFrom_quadruple (index : Nat) {b b₁ b₂ b₃ low high : UInt8} (rest : Bytes)
    (h : lead b = .quadruple low high) (hlow : low ≤ b₁) (hhigh : b₁ ≤ high)
    (h₂ : isContinuation b₂ = true) (h₃ : isContinuation b₃ = true) :
    decodeFrom index (b :: b₁ :: b₂ :: b₃ :: rest) =
      (Char.ofNat ((b.toNat - 0xF0) * 262144 + low6 b₁ * 4096 + low6 b₂ * 64 + low6 b₃) :: ·) <$>
        decodeFrom (index + 4) rest := by
  rw [decodeFrom.eq_def]
  simp [h, h₂, h₃, UInt8.not_lt.mpr hlow, UInt8.not_lt.mpr hhigh]

/-! ## Characters -/

/-- No character is a surrogate, or beyond the last one. -/
theorem toNat_valid (c : Char) : c.toNat < 0xD800 ∨ (0xDFFF < c.toNat ∧ c.toNat < 0x110000) :=
  c.valid

/-- The second of three bytes keeps out overlong forms and surrogates. -/
theorem tripleRange_of_valid {n : Nat} (h : 0x800 ≤ n) (h' : n < 0x10000)
    (hvalid : n < 0xD800 ∨ 0xDFFF < n) :
    let b := UInt8.ofNat (0xE0 + n / 4096)
    let b₁ := UInt8.ofNat (0x80 + n / 64 % 64)
    (tripleRange b).1 ≤ b₁ ∧ b₁ ≤ (tripleRange b).2 := by
  intro b b₁
  have hb : b.toNat = 0xE0 + n / 4096 := UInt8.toNat_ofNat_of_lt' (show _ < 256 by omega)
  have hb₁ : b₁.toNat = 0x80 + n / 64 % 64 := UInt8.toNat_ofNat_of_lt' (show _ < 256 by omega)
  rw [UInt8.le_iff_toNat_le, UInt8.le_iff_toNat_le, hb₁]
  unfold tripleRange
  dsimp only
  constructor
  · split
    · -- after 0xE0 a lower byte would be an overlong form, which `h` excludes
      rename_i h0
      have hzero : n / 4096 = 0 := by
        have := congrArg UInt8.toNat h0
        rw [hb] at this
        exact Nat.add_left_cancel (n := 0xE0) this
      show 0xA0 ≤ 0x80 + n / 64 % 64
      omega
    · show 0x80 ≤ 0x80 + n / 64 % 64
      omega
  · split
    · -- after 0xED a higher byte would be a surrogate, which `hvalid` excludes
      rename_i hd
      have hsurrogates : n / 4096 = 0xD := by
        have := congrArg UInt8.toNat hd
        rw [hb] at this
        exact Nat.add_left_cancel (n := 0xE0) this
      show 0x80 + n / 64 % 64 ≤ 0x9F
      omega
    · show 0x80 + n / 64 % 64 ≤ 0xBF
      omega

/-- The second of four bytes keeps out overlong forms and what is beyond the last character. -/
theorem quadrupleRange_of_valid {n : Nat} (h : 0x10000 ≤ n) (h' : n < 0x110000) :
    let b := UInt8.ofNat (0xF0 + n / 262144)
    let b₁ := UInt8.ofNat (0x80 + n / 4096 % 64)
    (quadrupleRange b).1 ≤ b₁ ∧ b₁ ≤ (quadrupleRange b).2 := by
  intro b b₁
  have hb : b.toNat = 0xF0 + n / 262144 := UInt8.toNat_ofNat_of_lt' (show _ < 256 by omega)
  have hb₁ : b₁.toNat = 0x80 + n / 4096 % 64 := UInt8.toNat_ofNat_of_lt' (show _ < 256 by omega)
  rw [UInt8.le_iff_toNat_le, UInt8.le_iff_toNat_le, hb₁]
  unfold quadrupleRange
  dsimp only
  constructor
  · split
    · -- the same after 0xF0
      rename_i h0
      have hzero : n / 262144 = 0 := by
        have := congrArg UInt8.toNat h0
        rw [hb] at this
        exact Nat.add_left_cancel (n := 0xF0) this
      show 0x90 ≤ 0x80 + n / 4096 % 64
      omega
    · show 0x80 ≤ 0x80 + n / 4096 % 64
      omega
  · split
    · -- after 0xF4 a higher byte would be beyond the last character
      rename_i h4
      have hlast : n / 262144 = 4 := by
        have := congrArg UInt8.toNat h4
        rw [hb] at this
        exact Nat.add_left_cancel (n := 0xF0) this
      show 0x80 + n / 4096 % 64 ≤ 0x8F
      omega
    · show 0x80 + n / 4096 % 64 ≤ 0xBF
      omega

/-- The bytes of a character are read as that character, whatever follows. -/
theorem decodeFrom_encodeChar (index : Nat) (c : Char) (rest : Bytes) :
    decodeFrom index (encodeChar c ++ rest) =
      (c :: ·) <$> decodeFrom (index + (encodeChar c).length) rest := by
  have hvalid := toNat_valid c
  have hback : Char.ofNat c.toNat = c := Char.ofNat_toNat c
  generalize hn : c.toNat = n at hvalid hback
  have hlow : n % 64 < 64 := Nat.mod_lt n (by decide)
  unfold encodeChar encodeCode
  rw [hn]
  -- one case for each number of bytes; the first byte tells the reader which it is
  by_cases h1 : n < 0x80
  · have hb := UInt8.toNat_ofNat_of_lt' (show n < 256 by omega)
    rw [if_pos h1, List.singleton_append, decodeFrom_single _ _ (lead_single (by omega)), hb, hback]
    rfl
  rw [if_neg h1]
  by_cases h2 : n < 0x800
  · have hb := UInt8.toNat_ofNat_of_lt' (show 0xC0 + n / 64 < 256 by omega)
    have hvalue : (0xC0 + n / 64 - 0xC0) * 64 + n % 64 = n := by omega
    rw [if_pos h2, List.cons_append, List.cons_append,
      decodeFrom_double _ _ (lead_double (by omega) (by omega)) (isContinuation_ofNat hlow), hb,
      low6_ofNat hlow, hvalue, hback]
    rfl
  rw [if_neg h2]
  have hmid : n / 64 % 64 < 64 := Nat.mod_lt _ (by decide)
  by_cases h3 : n < 0x10000
  · have hb := UInt8.toNat_ofNat_of_lt' (show 0xE0 + n / 4096 < 256 by omega)
    have hvalue : (0xE0 + n / 4096 - 0xE0) * 4096 + n / 64 % 64 * 64 + n % 64 = n := by omega
    obtain ⟨hge, hle⟩ := tripleRange_of_valid (n := n) (by omega) h3 (by omega)
    rw [if_pos h3, List.cons_append, List.cons_append, List.cons_append,
      decodeFrom_triple _ _ (lead_triple (by omega) (by omega)) hge hle (isContinuation_ofNat hlow),
      hb, low6_ofNat hmid, low6_ofNat hlow, hvalue, hback]
    rfl
  · have hhigh : n / 4096 % 64 < 64 := Nat.mod_lt _ (by decide)
    have hb := UInt8.toNat_ofNat_of_lt' (show 0xF0 + n / 262144 < 256 by omega)
    have hvalue : (0xF0 + n / 262144 - 0xF0) * 262144 + n / 4096 % 64 * 4096 +
        n / 64 % 64 * 64 + n % 64 = n := by omega
    obtain ⟨hge, hle⟩ := quadrupleRange_of_valid (n := n) (by omega) (by omega)
    rw [if_neg h3, List.cons_append, List.cons_append, List.cons_append, List.cons_append,
      decodeFrom_quadruple _ _ (lead_quadruple (by omega) (by omega)) hge hle
        (isContinuation_ofNat hmid) (isContinuation_ofNat hlow),
      hb, low6_ofNat hhigh, low6_ofNat hmid, low6_ofNat hlow, hvalue, hback]
    rfl

/-- A text is read back from its bytes. -/
theorem decode_encode (text : String) : decode (encode text) = .ok text := by
  -- the index moves on with every character, so it is general in the induction
  have hchars : ∀ (cs : List Char) (index : Nat),
      decodeFrom index (cs.flatMap encodeChar) = .ok cs := by
    intro cs
    induction cs with
    | nil => intro index; rfl
    | cons c cs ih =>
      intro index
      rw [List.flatMap_cons, decodeFrom_encodeChar, ih]
      rfl
  rw [decode, encode, hchars]
  exact congrArg Except.ok (String.ofList_toList)

theorem decode?_encode (text : String) : decode? (encode text) = some text := by
  rw [decode?, decode_encode]

end Utf8

end Parley
