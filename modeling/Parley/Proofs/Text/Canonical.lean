import Parley.Proofs.Text.Utf8

/-!
# A text has one form in bytes

The first byte of a character and the range of the second keep out every form but the shortest, and
everything that is no character. So the bytes that are read as a text are those that would be written
for it (`Utf8.encode_of_decode`).

- `Utf8.lead_spec`: what a first byte promises, by its number.
- `Utf8.encodeChar_of_single` and its fellows: the bytes of a character are the ones it was read from.
-/

namespace Parley

namespace Utf8

/-! ## First bytes -/

/-- What a first byte promises depends on where its number lies. -/
theorem lead_spec (b : UInt8) :
    (b.toNat < 0x80 ∧ lead b = .single) ∨
    lead b = .bad ∨
    (0xC2 ≤ b.toNat ∧ b.toNat < 0xE0 ∧ lead b = .double) ∨
    (0xE0 ≤ b.toNat ∧ b.toNat < 0xF0 ∧ lead b = .triple (tripleRange b).1 (tripleRange b).2) ∨
    (0xF0 ≤ b.toNat ∧ b.toNat < 0xF5 ∧
      lead b = .quadruple (quadrupleRange b).1 (quadrupleRange b).2) := by
  by_cases h1 : b.toNat < 0x80
  · exact .inl ⟨h1, lead_single h1⟩
  by_cases h2 : b.toNat < 0xC2
  · refine .inr (.inl ?_)
    simp only [lead, UInt8.lt_iff_toNat_lt]
    rw [if_neg (by simpa using h1), if_pos (by simpa using h2)]
  by_cases h3 : b.toNat < 0xE0
  · exact .inr (.inr (.inl ⟨by omega, h3, lead_double (by omega) h3⟩))
  by_cases h4 : b.toNat < 0xF0
  · exact .inr (.inr (.inr (.inl ⟨by omega, h4, lead_triple (by omega) h4⟩)))
  by_cases h5 : b.toNat < 0xF5
  · exact .inr (.inr (.inr (.inr ⟨by omega, h5, lead_quadruple (by omega) h5⟩)))
  · refine .inr (.inl ?_)
    have hne (n : UInt8) (hn : n.toNat < 0xF5) : b ≠ n := by
      rintro rfl
      exact h5 hn
    simp only [lead, UInt8.lt_iff_toNat_lt]
    rw [if_neg (by simp; omega), if_neg (by simp; omega), if_neg (by simp; omega),
      if_neg (hne 0xE0 (by decide)), if_neg (hne 0xED (by decide)), if_neg (by simp; omega),
      if_neg (hne 0xF0 (by decide)), if_neg (by simp; omega), if_neg (hne 0xF4 (by decide))]

theorem lt_of_lead_single {b : UInt8} (h : lead b = .single) : b.toNat < 0x80 := by
  have hspec := lead_spec b
  simp only [h, reduceCtorEq, and_false, or_false, and_true] at hspec
  exact hspec

theorem bounds_of_lead_double {b : UInt8} (h : lead b = .double) :
    0xC2 ≤ b.toNat ∧ b.toNat < 0xE0 := by
  have hspec := lead_spec b
  simp only [h, reduceCtorEq, and_false, or_false, false_or, and_true] at hspec
  exact hspec

theorem bounds_of_lead_triple {b low high : UInt8} (h : lead b = .triple low high) :
    0xE0 ≤ b.toNat ∧ b.toNat < 0xF0 ∧ low = (tripleRange b).1 ∧ high = (tripleRange b).2 := by
  have hspec := lead_spec b
  simp only [h, reduceCtorEq, and_false, or_false, false_or, Lead.triple.injEq] at hspec
  exact hspec

theorem bounds_of_lead_quadruple {b low high : UInt8} (h : lead b = .quadruple low high) :
    0xF0 ≤ b.toNat ∧ b.toNat < 0xF5 ∧
      low = (quadrupleRange b).1 ∧ high = (quadrupleRange b).2 := by
  have hspec := lead_spec b
  simp only [h, reduceCtorEq, and_false, false_or, Lead.quadruple.injEq] at hspec
  exact hspec

/-! ## Bytes behind the first -/

theorem isContinuation_iff {b : UInt8} :
    isContinuation b = true ↔ 0x80 ≤ b.toNat ∧ b.toNat ≤ 0xBF := by
  rw [isContinuation, Bool.and_eq_true, decide_eq_true_eq, decide_eq_true_eq,
    UInt8.le_iff_toNat_le, UInt8.le_iff_toNat_le]
  rfl

/-- Where the second of three bytes lies: where it makes up neither an overlong form nor a
surrogate. -/
theorem bounds_of_tripleRange {b b₁ : UInt8} (hlow : (tripleRange b).1 ≤ b₁)
    (hhigh : b₁ ≤ (tripleRange b).2) :
    0x80 ≤ b₁.toNat ∧ b₁.toNat ≤ 0xBF ∧ (b.toNat = 0xE0 → 0xA0 ≤ b₁.toNat) ∧
      (b.toNat = 0xED → b₁.toNat ≤ 0x9F) := by
  have heq (n : UInt8) : b = n ↔ b.toNat = n.toNat := UInt8.toNat_inj.symm
  simp only [tripleRange, heq, UInt8.le_iff_toNat_le] at hlow hhigh
  split at hlow <;> split at hhigh <;> simp_all <;> omega

/-- Where the second of four bytes lies: where it makes up neither an overlong form nor a number
beyond the last character. -/
theorem bounds_of_quadrupleRange {b b₁ : UInt8} (hlow : (quadrupleRange b).1 ≤ b₁)
    (hhigh : b₁ ≤ (quadrupleRange b).2) :
    0x80 ≤ b₁.toNat ∧ b₁.toNat ≤ 0xBF ∧ (b.toNat = 0xF0 → 0x90 ≤ b₁.toNat) ∧
      (b.toNat = 0xF4 → b₁.toNat ≤ 0x8F) := by
  have heq (n : UInt8) : b = n ↔ b.toNat = n.toNat := UInt8.toNat_inj.symm
  simp only [quadrupleRange, heq, UInt8.le_iff_toNat_le] at hlow hhigh
  split at hlow <;> split at hhigh <;> simp_all <;> omega

/-! ## Characters -/

theorem encodeChar_ofNat {n : Nat} (h : n < 0xD800 ∨ (0xDFFF < n ∧ n < 0x110000)) :
    encodeChar (Char.ofNat n) = encodeCode n := by
  have hvalid : n.isValidChar := h
  have hback : (Char.ofNat n).toNat = n := by
    unfold Char.ofNat
    rw [dif_pos hvalid]
    rfl
  rw [encodeChar, hback]

theorem ofNat_eq {n : Nat} {b : UInt8} (h : n = b.toNat) : UInt8.ofNat n = b := by
  rw [h, UInt8.ofNat_toNat]

theorem encodeChar_of_single {b : UInt8} (h : lead b = .single) :
    encodeChar (Char.ofNat b.toNat) = [b] := by
  have hb := lt_of_lead_single h
  rw [encodeChar_ofNat (by omega), encodeCode, if_pos hb, ofNat_eq rfl]

theorem encodeChar_of_double {b b₁ : UInt8} (h : lead b = .double)
    (h₁ : isContinuation b₁ = true) :
    encodeChar (Char.ofNat ((b.toNat - 0xC0) * 64 + low6 b₁)) = [b, b₁] := by
  have hb := bounds_of_lead_double h
  have hb₁ := isContinuation_iff.mp h₁
  generalize hn : (b.toNat - 0xC0) * 64 + low6 b₁ = n
  unfold low6 at hn
  rw [encodeChar_ofNat (by omega), encodeCode, if_neg (by omega), if_pos (by omega),
    ofNat_eq (b := b) (by omega), ofNat_eq (b := b₁) (by omega)]

theorem encodeChar_of_triple {b b₁ b₂ low high : UInt8} (h : lead b = .triple low high)
    (hlow : low ≤ b₁) (hhigh : b₁ ≤ high) (h₂ : isContinuation b₂ = true) :
    encodeChar (Char.ofNat ((b.toNat - 0xE0) * 4096 + low6 b₁ * 64 + low6 b₂)) = [b, b₁, b₂] := by
  obtain ⟨hge, hlt, rfl, rfl⟩ := bounds_of_lead_triple h
  obtain ⟨hge₁, hle₁, hlong, hsurrogate⟩ := bounds_of_tripleRange hlow hhigh
  have hb₂ := isContinuation_iff.mp h₂
  generalize hn : (b.toNat - 0xE0) * 4096 + low6 b₁ * 64 + low6 b₂ = n
  unfold low6 at hn
  -- overlong forms are below this, and surrogates above or below that
  have hlong : 0x800 ≤ n := by omega
  have hvalid : n < 0xD800 ∨ 0xDFFF < n := by omega
  rw [encodeChar_ofNat (by omega), encodeCode, if_neg (by omega), if_neg (by omega),
    if_pos (by omega), ofNat_eq (b := b) (by omega), ofNat_eq (b := b₁) (by omega),
    ofNat_eq (b := b₂) (by omega)]

theorem encodeChar_of_quadruple {b b₁ b₂ b₃ low high : UInt8} (h : lead b = .quadruple low high)
    (hlow : low ≤ b₁) (hhigh : b₁ ≤ high) (h₂ : isContinuation b₂ = true)
    (h₃ : isContinuation b₃ = true) :
    encodeChar (Char.ofNat ((b.toNat - 0xF0) * 262144 + low6 b₁ * 4096 + low6 b₂ * 64 +
      low6 b₃)) = [b, b₁, b₂, b₃] := by
  obtain ⟨hge, hlt, rfl, rfl⟩ := bounds_of_lead_quadruple h
  obtain ⟨hge₁, hle₁, hlong, hlast⟩ := bounds_of_quadrupleRange hlow hhigh
  have hb₂ := isContinuation_iff.mp h₂
  have hb₃ := isContinuation_iff.mp h₃
  generalize hn : (b.toNat - 0xF0) * 262144 + low6 b₁ * 4096 + low6 b₂ * 64 + low6 b₃ = n
  unfold low6 at hn
  have hlong : 0x10000 ≤ n := by omega
  have hlast : n < 0x110000 := by omega
  rw [encodeChar_ofNat (by omega), encodeCode, if_neg (by omega), if_neg (by omega),
    if_neg (by omega), ofNat_eq (b := b) (by omega), ofNat_eq (b := b₁) (by omega),
    ofNat_eq (b := b₂) (by omega), ofNat_eq (b := b₃) (by omega)]

/-! ## Texts -/

/-- Characters that are read after another one are written after it. -/
theorem flatMap_encodeChar_of_map {c : Char} {bytes rest : Bytes} {r : Except Fault (List Char)}
    {cs : List Char} (hc : encodeChar c = bytes) (h : (c :: ·) <$> r = .ok cs)
    (ih : ∀ cs, r = .ok cs → cs.flatMap encodeChar = rest) :
    cs.flatMap encodeChar = bytes ++ rest := by
  cases hr : r with
  | error fault =>
    rw [hr] at h
    cases h
  | ok tail =>
    rw [hr] at h
    obtain rfl : c :: tail = cs := Except.ok.inj h
    rw [List.flatMap_cons, hc, ih tail hr]

theorem flatMap_encodeChar_of_decodeFrom {index : Nat} {bs : Bytes} {cs : List Char}
    (h : decodeFrom index bs = .ok cs) : cs.flatMap encodeChar = bs := by
  fun_induction decodeFrom index bs generalizing cs with
  | case1 =>
    cases h
    rfl
  | case3 index b rest hlead ih =>
    exact flatMap_encodeChar_of_map (encodeChar_of_single hlead) h fun _ => ih
  | case6 index b hlead b₁ rest h₁ ih =>
    refine flatMap_encodeChar_of_map (encodeChar_of_double hlead ?_) h fun _ => ih
    simpa using h₁
  | case11 index b low high hlead b₁ h₁ b₂ rest h₂ ih =>
    simp only [Bool.or_eq_true, decide_eq_true_eq, not_or, UInt8.not_lt] at h₁
    refine flatMap_encodeChar_of_map (encodeChar_of_triple hlead h₁.1 h₁.2 ?_) h fun _ => ih
    simpa using h₂
  | case18 index b low high hlead b₁ h₁ b₂ h₂ b₃ rest h₃ ih =>
    simp only [Bool.or_eq_true, decide_eq_true_eq, not_or, UInt8.not_lt] at h₁
    refine flatMap_encodeChar_of_map (encodeChar_of_quadruple hlead h₁.1 h₁.2 ?_ ?_) h fun _ => ih
    · simpa using h₂
    · simpa using h₃
  | _ => cases h

/-- The bytes that a text is read from are the ones that are written for it. -/
theorem encode_of_decode {bs : Bytes} {text : String} (h : decode bs = .ok text) :
    encode text = bs := by
  unfold decode at h
  cases hchars : decodeFrom 0 bs with
  | error fault =>
    rw [hchars] at h
    cases h
  | ok cs =>
    rw [hchars] at h
    obtain rfl : String.ofList cs = text := Except.ok.inj h
    rw [encode, String.toList_ofList]
    exact flatMap_encodeChar_of_decodeFrom hchars

end Utf8

end Parley
