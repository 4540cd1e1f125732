import Parley.Json.Reader

/-!
# JSON reads back what it wrote

A tree is read back from its compact text if it is exact: every number in it kept its value and no
text holds a control character as it is (`Json.parse?_render`).

- Texts: an escaped byte is read as one piece (`readPieces_escape`), so is the whole content
  (`readText_escape`).
- Numbers: the digits are those of the number (`readNumber_renderInt`), if no digit follows them.
- Trees: a value is read up to where its text ends (`readValue_render`) if what follows closes it,
  by induction on the rounds of the reader. Each byte pays for two of them.
-/

namespace Parley

namespace Json

/-! ## Texts -/

/-- The piece that an escaped byte is read as. -/
def pieceOf (b : UInt8) : Piece :=
  if b = ascii '"' || b = ascii '\\' || b < 32 then .unit b.toNat else .byte b

theorem unit?_hexDigit :
    ∀ n < 32, unit? (ascii '0') (ascii '0') (hexDigit (UInt8.ofNat n / 16))
      (hexDigit (UInt8.ofNat n % 16)) = some n := by
  decide

/-- An escape of one letter is read as the byte it stands for. -/
theorem readPieces_short {e : UInt8} {n : Nat} (hu : e ≠ ascii 'u') (h : shortEscape? e = some n)
    (rest : Bytes) :
    readPieces (ascii '\\' :: e :: rest) =
      (readPieces rest).map fun (pieces, rest) => (.unit n :: pieces, rest) := by
  have hq : ¬ ascii '\\' = ascii '"' := by decide
  rw [readPieces.eq_def]
  simp only [hq, hu, h, if_false, if_true]
  cases readPieces rest <;> rfl

/-- An escape of four digits is read as the byte it stands for. -/
theorem readPieces_control {b : UInt8} (h : b < 32) (rest : Bytes) :
    readPieces ([ascii '\\', ascii 'u', ascii '0', ascii '0', hexDigit (b / 16),
      hexDigit (b % 16)] ++ rest) =
      (readPieces rest).map fun (pieces, rest) => (.unit b.toNat :: pieces, rest) := by
  have hq : ¬ ascii '\\' = ascii '"' := by decide
  have hunit := unit?_hexDigit b.toNat h
  rw [UInt8.ofNat_toNat] at hunit
  rw [List.cons_append, readPieces.eq_def]
  simp only [List.cons_append, List.nil_append, hq, hunit, if_false, if_true]
  cases readPieces rest <;> rfl

/-- A byte that stands for itself is read as it is. -/
theorem readPieces_plain {b : UInt8} (hq : b ≠ ascii '"') (hs : b ≠ ascii '\\') (rest : Bytes) :
    readPieces (b :: rest) =
      (readPieces rest).map fun (pieces, rest) => (.byte b :: pieces, rest) := by
  rw [readPieces.eq_def]
  simp only [hq, hs, if_false]
  cases readPieces rest <;> rfl

/-- An escaped byte is read as one piece. -/
theorem readPieces_escape (b : UInt8) (rest : Bytes) :
    readPieces (escape b ++ rest) =
      (readPieces rest).map fun (pieces, rest) => (pieceOf b :: pieces, rest) := by
  unfold escape
  by_cases h1 : b = ascii '"'
  · subst h1
    exact readPieces_short (by decide) rfl rest
  rw [if_neg h1]
  by_cases h2 : b = ascii '\\'
  · subst h2
    exact readPieces_short (by decide) rfl rest
  rw [if_neg h2]
  by_cases h3 : b = 8
  · subst h3
    exact readPieces_short (by decide) rfl rest
  rw [if_neg h3]
  by_cases h4 : b = 9
  · subst h4
    exact readPieces_short (by decide) rfl rest
  rw [if_neg h4]
  by_cases h5 : b = 10
  · subst h5
    exact readPieces_short (by decide) rfl rest
  rw [if_neg h5]
  by_cases h6 : b = 12
  · subst h6
    exact readPieces_short (by decide) rfl rest
  rw [if_neg h6]
  by_cases h7 : b = 13
  · subst h7
    exact readPieces_short (by decide) rfl rest
  rw [if_neg h7]
  by_cases h8 : b < 32
  · have hpiece : pieceOf b = .unit b.toNat := by simp [pieceOf, h8]
    rw [if_pos h8, readPieces_control h8, hpiece]
  · have hpiece : pieceOf b = .byte b := by simp [pieceOf, h1, h2, h8]
    rw [if_neg h8, List.singleton_append, readPieces_plain h1 h2, hpiece]

theorem readPieces_flatMap (content rest : Bytes) :
    readPieces (content.flatMap escape ++ ascii '"' :: rest) = some (content.map pieceOf, rest) := by
  induction content with
  | nil =>
    rw [List.flatMap_nil, List.nil_append, readPieces.eq_def]
    rfl
  | cons b content ih =>
    rw [List.flatMap_cons, List.append_assoc, readPieces_escape, ih]
    rfl

/-- A byte that is escaped is one of ASCII, and no half of a pair. -/
theorem assemble_pieceOf (b : UInt8) (pieces : List Piece) :
    assemble (pieceOf b :: pieces) = b :: assemble pieces := by
  by_cases h : b = ascii '"' || b = ascii '\\' || b < 32
  · -- below 0x80 a unit is one byte, and it is no surrogate that would wait for another
    have hlt : b.toNat < 0x80 := by
      simp only [Bool.or_eq_true, decide_eq_true_eq] at h
      rcases h with (rfl | rfl) | h
      · decide
      · decide
      · have := UInt8.lt_iff_toNat_lt.mp h
        exact Nat.lt_trans this (by decide)
    have hcode : Utf8.encodeCode b.toNat = [b] := by
      rw [Utf8.encodeCode, if_pos hlt, UInt8.ofNat_toNat]
    have hhigh : isHigh b.toNat = false := by
      rw [isHigh, decide_eq_false (by omega), Bool.false_and]
    rw [pieceOf, if_pos h]
    cases pieces with
    | nil => exact hcode
    | cons piece pieces =>
      cases piece with
      | byte c => rw [assemble.eq_4, hcode]; rfl
      | unit m => rw [assemble.eq_5, hhigh, hcode]; rfl
  · rw [pieceOf, if_neg h]
    rfl

theorem assemble_map_pieceOf (content : Bytes) : assemble (content.map pieceOf) = content := by
  induction content with
  | nil => rfl
  | cons b content ih => rw [List.map_cons, assemble_pieceOf, ih]

theorem isControl_pieceOf (b : UInt8) : (pieceOf b).isControl = false := by
  unfold pieceOf
  split
  · rfl
  · rename_i h
    simp only [Bool.or_eq_true, decide_eq_true_eq, not_or] at h
    exact decide_eq_false h.2

/-- A text is read back after its opening quote. -/
theorem readText_escape (content rest : Bytes) :
    readText (content.flatMap escape ++ ascii '"' :: rest) = some (text content, rest) := by
  have hcontrol : (content.map pieceOf).any Piece.isControl = false := by
    rw [List.any_map]
    exact List.any_eq_false.mpr fun b _ => by simp [isControl_pieceOf]
  rw [readText, readPieces_flatMap, Option.map_some]
  simp only [textOf, hcontrol, assemble_map_pieceOf, Bool.false_eq_true, if_false]

/-! ## Numbers -/

theorem toNat_ascii {c : Char} (h : c.isDigit) : (ascii c).toNat = c.toNat := by
  have hle : c.toNat ≤ 57 := (Char.isDigit_iff_toNat.mp h).2
  exact UInt8.toNat_ofNat_of_lt' (show c.toNat < 256 by omega)

theorem isDigit_ascii {c : Char} (h : c.isDigit) : isDigit (ascii c) = true := by
  obtain ⟨hge, hle⟩ := Char.isDigit_iff_toNat.mp h
  rw [isDigit, Bool.and_eq_true, decide_eq_true_eq, decide_eq_true_eq, UInt8.le_iff_toNat_le,
    UInt8.le_iff_toNat_le, toNat_ascii h]
  exact ⟨hge, hle⟩

theorem isDigit_renderNat {n : Nat} {b : UInt8} (h : b ∈ renderNat n) : isDigit b = true := by
  obtain ⟨c, hc, rfl⟩ := List.mem_map.mp h
  exact isDigit_ascii (Nat.isDigit_of_mem_toDigits (by decide) (by decide) hc)

theorem digitsValue_map_ascii {cs : List Char} (h : ∀ c ∈ cs, c.isDigit) (acc : Nat) :
    (cs.map ascii).foldl (fun acc b => acc * 10 + (b.toNat - 48)) acc =
      Nat.ofDigitChars 10 cs acc := by
  induction cs generalizing acc with
  | nil => rw [List.map_nil, List.foldl_nil, Nat.ofDigitChars_nil]
  | cons c cs ih =>
    have hc := toNat_ascii (h c List.mem_cons_self)
    rw [List.map_cons, List.foldl_cons, Nat.ofDigitChars_cons, hc, Nat.mul_comm acc 10]
    exact ih (fun d hd => h d (List.mem_cons_of_mem _ hd)) _

theorem digitsValue_renderNat (n : Nat) : digitsValue (renderNat n) = n := by
  have hdigits : ∀ c ∈ Nat.toDigits 10 n, c.isDigit := fun c hc =>
    Nat.isDigit_of_mem_toDigits (by decide) (by decide) hc
  exact (digitsValue_map_ascii hdigits 0).trans Nat.ofDigitChars_ten_toDigits

/-- A number other than zero does not start with a zero. -/
theorem exists_renderNat {n : Nat} (h : 0 < n) :
    ∃ b rest, renderNat n = b :: rest ∧ isDigit b = true ∧ b ≠ ascii '0' := by
  induction n using Nat.strongRecOn with
  | ind n ih =>
    by_cases hlt : n < 10
    · have hdigits : Nat.toDigits 10 n = [n.digitChar] := Nat.toDigits_of_lt_base hlt
      have hzero : ∀ m < 10, 0 < m → isDigit (ascii m.digitChar) = true ∧
          ascii m.digitChar ≠ ascii '0' := by decide
      refine ⟨ascii n.digitChar, [], ?_, hzero n hlt h⟩
      rw [renderNat, Decimal.toChars, hdigits]
      rfl
    · obtain ⟨b, rest, hfront, hb⟩ := ih (n / 10) (by omega) (by omega)
      refine ⟨b, rest ++ [ascii (n % 10).digitChar], ?_, hb⟩
      rw [renderNat, Decimal.toChars, Nat.toDigits_of_base_le (by decide) (by omega),
        List.map_append]
      exact congrArg (· ++ [ascii (n % 10).digitChar]) hfront

/-- What may stand behind a value. -/
def Closes (rest : Bytes) : Prop :=
  ∀ b ∈ rest.head?, b = ascii ',' ∨ b = ascii ']' ∨ b = ascii '\x7d'

theorem closes_nil : Closes [] := by
  intro b hb
  cases hb

theorem closes_cons {b : UInt8} (rest : Bytes)
    (h : b = ascii ',' ∨ b = ascii ']' ∨ b = ascii '\x7d') : Closes (b :: rest) := by
  intro c hc
  cases hc
  exact h

theorem Closes.isDigit_head {rest : Bytes} (h : Closes rest) :
    ∀ b ∈ rest.head?, isDigit b = false := by
  intro b hb
  rcases h b hb with rfl | rfl | rfl <;> decide

theorem spanDigits_append {digits rest : Bytes} (h : ∀ b ∈ digits, isDigit b = true)
    (hrest : ∀ b ∈ rest.head?, isDigit b = false) :
    spanDigits (digits ++ rest) = (digits, rest) := by
  have htake : rest.takeWhile isDigit = [] := by
    cases rest with
    | nil => rfl
    | cons b rest => rw [List.takeWhile_cons_of_neg (by simp [hrest b rfl])]
  have hdrop : rest.dropWhile isDigit = rest := by
    cases rest with
    | nil => rfl
    | cons b rest => rw [List.dropWhile_cons_of_neg (by simp [hrest b rfl])]
  rw [spanDigits, List.takeWhile_append_of_pos h, List.dropWhile_append_of_pos h, htake, hdrop,
    List.append_nil]

theorem readWhole_renderNat (n : Nat) {rest : Bytes} (h : ∀ b ∈ rest.head?, isDigit b = false) :
    readWhole (renderNat n ++ rest) = some (n, rest) := by
  by_cases hn : n = 0
  · subst hn
    show readWhole (ascii '0' :: rest) = some (0, rest)
    cases rest with
    | nil => rfl
    | cons b rest =>
      have hb := h b rfl
      simp only [readWhole, hb, if_true, Bool.false_eq_true, if_false]
  · obtain ⟨b, tail, hdigits, hb, hzero⟩ := exists_renderNat (Nat.pos_of_ne_zero hn)
    have hspan := spanDigits_append (fun c => isDigit_renderNat (n := n)) h
    have hvalue := digitsValue_renderNat n
    rw [hdigits] at hspan hvalue ⊢
    rw [List.cons_append] at hspan ⊢
    simp only [readWhole, hzero, hb, hspan, hvalue, if_true, if_false]

/-- Behind a number there is no fraction and no exponent. -/
theorem Closes.readFraction {rest : Bytes} (h : Closes rest) :
    readFraction rest = some (false, rest) := by
  cases rest with
  | nil => rfl
  | cons b rest =>
    have hb : ¬ b = ascii '.' := by rcases h b rfl with rfl | rfl | rfl <;> decide
    rw [Json.readFraction, if_neg hb]

theorem Closes.readExponent {rest : Bytes} (h : Closes rest) :
    readExponent rest = some (false, rest) := by
  cases rest with
  | nil => rfl
  | cons b rest =>
    have hb : (b = ascii 'e' || b = ascii 'E') = false := by
      rcases h b rfl with rfl | rfl | rfl <;> decide
    simp only [Json.readExponent, hb, Bool.false_eq_true, if_false]

/-- The first byte of a number. -/
def startsNumber (b : UInt8) : Bool :=
  isDigit b || b = ascii '-'

theorem exists_renderInt (n : Int) :
    ∃ b rest, renderInt n = b :: rest ∧ startsNumber b = true := by
  unfold renderInt
  by_cases h : 0 ≤ n
  · rw [if_pos h]
    cases hd : renderNat n.toNat with
    | nil => exact absurd (List.map_eq_nil_iff.mp hd) Nat.toDigits_ne_nil
    | cons b rest =>
      have hb : b ∈ renderNat n.toNat := by rw [hd]; exact List.mem_cons_self
      refine ⟨b, rest, rfl, ?_⟩
      rw [startsNumber, isDigit_renderNat hb, Bool.true_or]
  · rw [if_neg h]
    exact ⟨_, _, rfl, rfl⟩

/-- An integer is read back, if what follows closes it. -/
theorem readNumber_renderInt (n : Int) {rest : Bytes} (h : Closes rest) :
    readNumber (renderInt n ++ rest) = some (integer n, rest) := by
  have hwhole := fun m => readWhole_renderNat m h.isDigit_head
  unfold renderInt
  by_cases hn : 0 ≤ n
  · have hsign : ((renderNat n.toNat ++ rest).head? == some (ascii '-')) = false := by
      cases hd : renderNat n.toNat with
      | nil => exact absurd (List.map_eq_nil_iff.mp hd) Nat.toDigits_ne_nil
      | cons b tail =>
        have hb : isDigit b = true := isDigit_renderNat (n := n.toNat) (by simp [hd])
        have hne : b ≠ ascii '-' := by rintro rfl; exact absurd hb (by decide)
        simpa using hne
    rw [if_pos hn, readNumber]
    simp only [hsign, hwhole, h.readFraction, h.readExponent, bind, Option.bind, Bool.false_eq_true,
      if_false, Bool.or_self, Bool.false_and, Int.toNat_of_nonneg hn]
    rfl
  · have hpos : ((-n).toNat == 0) = false := by
      rw [beq_eq_false_iff_ne]
      omega
    have hback : -(((-n).toNat : Nat) : Int) = n := by omega
    rw [if_neg hn, readNumber]
    simp only [List.cons_append, List.head?_cons, beq_self_eq_true, if_true, List.tail_cons, hwhole,
      h.readFraction, h.readExponent, bind, Option.bind, Bool.or_self, hpos, Bool.and_false,
      Bool.false_eq_true, if_false, hback]
    rfl

/-! ## Trees -/

mutual

/-- Whether the text of a tree tells all of it. -/
def isExact : Json → Bool
  | real | rawText _ => false
  | array items => areExact items
  | object members => areExactMembers members
  | null | bool _ | integer _ | text _ => true

/-- Whether all items are exact. -/
def areExact : List Json → Bool
  | [] => true
  | v :: vs => isExact v && areExact vs

/-- Whether all members are exact. -/
def areExactMembers : List (Bytes × Json) → Bool
  | [] => true
  | (_, v) :: ms => isExact v && areExactMembers ms

end

/-- Whether a value may start with a byte. -/
def mayStart (b : UInt8) : Bool :=
  !(b = 32 || b = 9 || b = 10 || b = 13) && b ≠ ascii ']'

theorem skipBlank_of_mayStart {b : UInt8} (h : mayStart b = true) (rest : Bytes) :
    skipBlank (b :: rest) = b :: rest := by
  have hb : (b = 32 || b = 9 || b = 10 || b = 13) = false := by
    simp only [mayStart, Bool.and_eq_true, Bool.not_eq_true'] at h
    exact h.1
  rw [skipBlank, hb]
  rfl

theorem ne_bracket_of_mayStart {b : UInt8} (h : mayStart b = true) : b ≠ ascii ']' := by
  rintro rfl
  exact absurd h (by decide)

theorem ne_of_startsNumber {b c : UInt8} (h : startsNumber b = true)
    (hc : startsNumber c = false) : b ≠ c := by
  rintro rfl
  rw [h] at hc
  cases hc

theorem mayStart_of_startsNumber {b : UInt8} (h : startsNumber b = true) : mayStart b = true := by
  have hne := fun c hc => ne_of_startsNumber (c := c) h hc
  simp (disch := decide) [mayStart, hne]

/-- Every value starts with a byte that shows. -/
theorem exists_render (v : Json) : ∃ b rest, render v = b :: rest ∧ mayStart b = true := by
  cases v with
  | null => exact ⟨_, _, rfl, by decide⟩
  | bool b => cases b <;> exact ⟨_, _, rfl, by decide⟩
  | integer n =>
    obtain ⟨b, rest, hn, hb⟩ := exists_renderInt n
    exact ⟨b, rest, hn, mayStart_of_startsNumber hb⟩
  | real => exact ⟨_, _, rfl, by decide⟩
  | text content => exact ⟨_, _, rfl, by decide⟩
  | rawText content => exact ⟨_, _, rfl, by decide⟩
  | array items => exact ⟨_, _, rfl, by decide⟩
  | object members => exact ⟨_, _, rfl, by decide⟩

theorem render_length_pos (v : Json) : 0 < (render v).length := by
  obtain ⟨b, rest, hv, -⟩ := exists_render v
  rw [hv]
  exact Nat.succ_pos _

/-- The text of at least one item starts with a byte that shows. -/
theorem exists_renderItems (v : Json) (vs : List Json) :
    ∃ b rest, renderItems (v :: vs) = b :: rest ∧ mayStart b = true := by
  obtain ⟨b, rest, hv, hb⟩ := exists_render v
  cases vs with
  | nil => exact ⟨b, rest, hv, hb⟩
  | cons w vs => exact ⟨b, rest ++ ascii ',' :: renderItems (w :: vs), by simp [renderItems, hv], hb⟩

/-- The text of at least one member starts with a quote. -/
theorem exists_renderMembers (key : Bytes) (v : Json) (ms : List (Bytes × Json)) :
    ∃ rest, renderMembers ((key, v) :: ms) = ascii '"' :: rest := by
  cases ms with
  | nil => exact ⟨_, rfl⟩
  | cons m ms => exact ⟨_, rfl⟩

theorem renderItems_cons (v w : Json) (vs : List Json) :
    renderItems (v :: w :: vs) = render v ++ ascii ',' :: renderItems (w :: vs) := by
  simp [renderItems]

theorem renderMembers_cons (key : Bytes) (v : Json) (m : Bytes × Json) (ms : List (Bytes × Json)) :
    renderMembers ((key, v) :: m :: ms) =
      renderText key ++ ascii ':' :: (render v ++ ascii ',' :: renderMembers (m :: ms)) := by
  simp [renderMembers]

theorem renderText_append (content rest : Bytes) :
    renderText content ++ rest = ascii '"' :: (content.flatMap escape ++ ascii '"' :: rest) := by
  simp [renderText]

theorem readValue_integer (fuel : Nat) (n : Int) {rest : Bytes} (h : Closes rest) :
    readValue (fuel + 1) (renderInt n ++ rest) = some (integer n, rest) := by
  obtain ⟨b, tail, hn, hb⟩ := exists_renderInt n
  have hnumber := readNumber_renderInt n h
  have hne := fun c hc => ne_of_startsNumber (c := c) hb hc
  rw [hn, List.cons_append] at hnumber ⊢
  rw [readValue, skipBlank_of_mayStart (mayStart_of_startsNumber hb)]
  simp (disch := decide) only [hne, if_false, hnumber]

theorem readValue_text (fuel : Nat) (content rest : Bytes) :
    readValue (fuel + 1) (renderText content ++ rest) = some (text content, rest) := by
  rw [renderText_append, readValue, skipBlank_of_mayStart (by decide)]
  simp only [if_true, readText_escape]

/-- An opening bracket and at least one item are read as an array. -/
theorem readValue_array {fuel : Nat} {b : UInt8} {tail rest : Bytes} {items : List Json}
    (hb : mayStart b = true) (h : readItems fuel (b :: tail) = some (items, rest)) :
    readValue (fuel + 1) (ascii '[' :: b :: tail) = some (array items, rest) := by
  have hq : ¬ ascii '[' = ascii '"' := by decide
  simp only [readValue, skipBlank_of_mayStart (b := ascii '[') (by decide), skipBlank_of_mayStart hb,
    ne_bracket_of_mayStart hb, hq, if_false, if_true, h, Option.map_some]

/-- An opening brace and at least one member are read as an object. -/
theorem readValue_object {fuel : Nat} {tail rest : Bytes} {members : List (Bytes × Json)}
    (h : readMembers fuel (ascii '"' :: tail) = some (members, rest)) :
    readValue (fuel + 1) (ascii '\x7b' :: ascii '"' :: tail) = some (object members, rest) := by
  have hq : ¬ ascii '\x7b' = ascii '"' := by decide
  have hb : ¬ ascii '\x7b' = ascii '[' := by decide
  have hc : ¬ ascii '"' = ascii '\x7d' := by decide
  simp only [readValue, skipBlank_of_mayStart (b := ascii '\x7b') (by decide),
    skipBlank_of_mayStart (b := ascii '"') (by decide), hq, hb, hc, if_false, if_true, h,
    Option.map_some]

mutual

/-- A value is read up to the end of its text, if what follows closes it. -/
theorem readValue_render (v : Json) (hv : v.isExact = true) (fuel : Nat)
    (hfuel : 2 * (render v).length ≤ fuel) {rest : Bytes} (hrest : Closes rest) :
    readValue fuel (render v ++ rest) = some (v, rest) := by
  match fuel, v with
  | 0, v =>
    -- every value takes a byte, so no fuel is no bound for it
    have hpos := render_length_pos v
    omega
  | fuel + 1, null => rfl
  | fuel + 1, bool true => rfl
  | fuel + 1, bool false => rfl
  | fuel + 1, integer n => exact readValue_integer fuel n hrest
  | fuel + 1, text content => exact readValue_text fuel content rest
  | fuel + 1, array [] => rfl
  | fuel + 1, array (v :: vs) =>
    obtain ⟨b, tail, hstart, hb⟩ := exists_renderItems v vs
    simp only [render, List.length_append, List.length_cons] at hfuel
    -- the opening bracket pays for this round and for the one that looks for the items
    have hitems := readItems_renderItems v vs hv fuel (by omega) rest
    rw [hstart] at hitems
    rw [render, hstart, List.append_assoc]
    exact readValue_array hb hitems
  | fuel + 1, object [] => rfl
  | fuel + 1, object ((key, v) :: ms) =>
    obtain ⟨tail, hstart⟩ := exists_renderMembers key v ms
    simp only [render, List.length_append, List.length_cons] at hfuel
    have hmembers := readMembers_renderMembers key v ms hv fuel (by omega) rest
    rw [hstart] at hmembers
    rw [render, hstart, List.append_assoc]
    exact readValue_object hmembers

/-- Items are read with the bracket behind them. -/
theorem readItems_renderItems (v : Json) (vs : List Json) (hv : areExact (v :: vs) = true)
    (fuel : Nat) (hfuel : 2 * (renderItems (v :: vs)).length + 1 ≤ fuel) (rest : Bytes) :
    readItems fuel (renderItems (v :: vs) ++ ascii ']' :: rest) = some (v :: vs, rest) := by
  have hexact : v.isExact = true ∧ areExact vs = true := Bool.and_eq_true_iff.mp hv
  match fuel, vs with
  | 0, _ => omega
  | fuel + 1, [] =>
    simp only [renderItems] at hfuel
    have hlast := readValue_render v hexact.1 fuel (by omega)
      (closes_cons rest (.inr (.inl rfl)))
    rw [renderItems, readItems, hlast]
    rfl
  | fuel + 1, w :: vs =>
    simp only [renderItems_cons, List.length_append, List.length_cons] at hfuel
    have hfirst := readValue_render v hexact.1 fuel (by omega)
      (closes_cons (renderItems (w :: vs) ++ ascii ']' :: rest) (.inl rfl))
    have hothers := readItems_renderItems w vs hexact.2 fuel (by omega) rest
    rw [renderItems_cons, List.append_assoc, List.cons_append, readItems, hfirst]
    show (readItems fuel _).map _ = _
    rw [hothers]
    rfl

/-- Members are read with the brace behind them. -/
theorem readMembers_renderMembers (key : Bytes) (v : Json) (ms : List (Bytes × Json))
    (hv : areExactMembers ((key, v) :: ms) = true) (fuel : Nat)
    (hfuel : 2 * (renderMembers ((key, v) :: ms)).length + 1 ≤ fuel) (rest : Bytes) :
    readMembers fuel (renderMembers ((key, v) :: ms) ++ ascii '\x7d' :: rest) =
      some ((key, v) :: ms, rest) := by
  have hexact : v.isExact = true ∧ areExactMembers ms = true := Bool.and_eq_true_iff.mp hv
  have hquote := fun rest => skipBlank_of_mayStart (b := ascii '"') (by decide) rest
  have hcolon := fun rest => skipBlank_of_mayStart (b := ascii ':') (by decide) rest
  match fuel, ms with
  | 0, _ => omega
  | fuel + 1, [] =>
    simp only [renderMembers, List.length_append, List.length_cons] at hfuel
    have hlast := readValue_render v hexact.1 fuel (by omega)
      (closes_cons rest (.inr (.inr rfl)))
    rw [renderMembers, List.append_assoc, renderText_append, readMembers, hquote]
    simp only [if_true, List.cons_append, readText_escape, hcolon, hlast]
    rfl
  | fuel + 1, (next, w) :: ms =>
    simp only [renderMembers_cons, List.length_append, List.length_cons] at hfuel
    have hfirst := readValue_render v hexact.1 fuel (by omega)
      (closes_cons (renderMembers ((next, w) :: ms) ++ ascii '\x7d' :: rest) (.inl rfl))
    have hothers := readMembers_renderMembers next w ms hexact.2 fuel (by omega) rest
    rw [renderMembers_cons, List.append_assoc, renderText_append, readMembers, hquote]
    simp only [if_true, List.cons_append, List.append_assoc, readText_escape, hcolon, hfirst]
    show (readMembers fuel _).map _ = _
    rw [hothers]
    rfl

end

/-- A tree whose text tells all of it is read back from its text. -/
theorem parse?_render {v : Json} (hv : v.isExact = true) : parse? (render v) = some v := by
  have hvalue := readValue_render v hv (2 * (render v).length + 2) (by omega) closes_nil
  rw [List.append_nil] at hvalue
  simp only [parse?, hvalue, skipBlank, if_true]

end Json

end Parley
