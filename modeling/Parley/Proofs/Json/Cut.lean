import Parley.Proofs.Json.Reader

/-!
# A text that is cut is not read

What is read of an input is read of every longer one as well, as long as it shows where it ends: all
but a number have a last byte of their own, and a number ends where something else begins. So the
text of an object is not read before its last byte is there.

- `Json.readPieces_append`, `Json.readNumber_append`: texts and numbers in a longer input.
- `Json.readValue_append` and its fellows: values, items and members in a longer input, with no
  fewer rounds.
- `Json.parse?_cut`: no part of the text of an object is read.
-/

namespace Parley

namespace Json

theorem skipBlank_append {bs tail : Bytes} {b : UInt8} (h : skipBlank bs = b :: tail)
    (more : Bytes) : skipBlank (bs ++ more) = b :: (tail ++ more) := by
  induction bs with
  | nil => cases h
  | cons c bs ih =>
    rw [List.cons_append]
    unfold skipBlank at h ⊢
    split at h
    · rename_i hblank
      rw [if_pos hblank]
      exact ih h
    · rename_i hblank
      cases h
      rw [if_neg hblank]

/-! ## Texts -/

theorem readPieces_append {bs rest : Bytes} {pieces : List Piece}
    (h : readPieces bs = some (pieces, rest)) (more : Bytes) :
    readPieces (bs ++ more) = some (pieces, rest ++ more) := by
  fun_induction readPieces bs generalizing pieces rest with
  | case1 | case3 | case5 | case6 | case8 | case10 => cases h
  | case2 =>
    cases h
    rw [List.cons_append, readPieces.eq_def]
    exact if_pos rfl
  | case4 x₁ x₂ x₃ x₄ after n ps tail hps hunit hquote ih =>
    cases h
    rw [List.cons_append, readPieces.eq_def]
    simp only [List.cons_append, hquote, hunit, ih hps, if_true, if_false]
  | case7 e after hu n ps tail hps hshort hquote ih =>
    cases h
    rw [List.cons_append, List.cons_append, readPieces_short hu hshort, ih hps]
    rfl
  | case9 b after hquote hslash ps tail hps ih =>
    cases h
    rw [List.cons_append, readPieces_plain hquote hslash, ih hps]
    rfl

theorem readText_append {bs rest : Bytes} {v : Json} (h : readText bs = some (v, rest))
    (more : Bytes) : readText (bs ++ more) = some (v, rest ++ more) := by
  unfold readText at h ⊢
  cases hpieces : readPieces bs with
  | none =>
    rw [hpieces] at h
    cases h
  | some p =>
    obtain ⟨pieces, tail⟩ := p
    rw [hpieces] at h
    cases h
    rw [readPieces_append hpieces]
    rfl

/-! ## Words and numbers -/

theorem readWord_append {word : String} {w v : Json} {bs rest : Bytes}
    (h : readWord word w bs = some (v, rest)) (more : Bytes) :
    readWord word w (bs ++ more) = some (v, rest ++ more) := by
  unfold readWord at h ⊢
  dsimp only at h ⊢
  split at h
  · rename_i hletters
    cases h
    -- all of the letters stand before what is more
    have hle : (word.toList.map ascii).length ≤ bs.length := by
      have hlength := congrArg List.length hletters
      rw [List.length_take] at hlength
      omega
    rw [List.take_append_of_le_length hle, if_pos hletters, List.drop_append_of_le_length hle]
  · cases h

/-- Digits are spanned alike, if what ends them is there. -/
theorem spanDigits_append_of_ne_nil {bs : Bytes} (h : (spanDigits bs).2 ≠ []) (more : Bytes) :
    spanDigits (bs ++ more) = ((spanDigits bs).1, (spanDigits bs).2 ++ more) := by
  have hsplit : (spanDigits bs).1 ++ ((spanDigits bs).2 ++ more) = bs ++ more := by
    rw [← List.append_assoc]
    exact congrArg (· ++ more) List.takeWhile_append_dropWhile
  have hdigits : ∀ b ∈ (spanDigits bs).1, isDigit b = true :=
    List.all_eq_true.mp List.all_takeWhile
  have hend : ∀ b ∈ ((spanDigits bs).2 ++ more).head?, isDigit b = false := by
    intro b hb
    have hnot := List.head?_dropWhile_not isDigit bs
    cases hd : bs.dropWhile isDigit with
    | nil => exact absurd hd h
    | cons c tail =>
      rw [spanDigits, hd] at hb
      cases hb
      rw [hd] at hnot
      exact hnot
  rw [← hsplit, spanDigits_append hdigits hend]

theorem readWhole_append {bs rest : Bytes} {n : Nat} (h : readWhole bs = some (n, rest))
    (hrest : rest ≠ []) (more : Bytes) : readWhole (bs ++ more) = some (n, rest ++ more) := by
  cases bs with
  | nil => cases h
  | cons b tail =>
    rw [List.cons_append]
    simp only [readWhole] at h ⊢
    by_cases hzero : b = ascii '0'
    · rw [if_pos hzero] at h ⊢
      cases tail with
      | nil =>
        cases h
        exact absurd rfl hrest
      | cons c tail =>
        by_cases hc : isDigit c = true
        · simp only [hc, if_true] at h
          cases h
        · simp only [hc, Bool.false_eq_true, if_false] at h
          cases h
          simp only [List.cons_append, hc, Bool.false_eq_true, if_false]
    · rw [if_neg hzero] at h ⊢
      by_cases hb : isDigit b = true
      · rw [if_pos hb] at h ⊢
        cases h
        rw [← List.cons_append, spanDigits_append_of_ne_nil hrest]
      · rw [if_neg hb] at h
        cases h

/-- At least one digit, passed over in a longer input. -/
theorem someDigits_append {bs rest : Bytes} {found : Bool}
    (h : (if (spanDigits bs).1.isEmpty then none else some (true, (spanDigits bs).2)) =
      some (found, rest)) (hrest : rest ≠ []) (more : Bytes) :
    (if (spanDigits (bs ++ more)).1.isEmpty then none
      else some (true, (spanDigits (bs ++ more)).2)) = some (found, rest ++ more) := by
  by_cases hempty : (spanDigits bs).1.isEmpty = true
  · rw [if_pos hempty] at h
    cases h
  · rw [if_neg hempty] at h
    cases h
    rw [spanDigits_append_of_ne_nil hrest, if_neg hempty]

/-- Nothing is left behind a fraction where nothing was. -/
theorem ne_nil_of_readFraction {bs rest : Bytes} {found : Bool}
    (h : readFraction bs = some (found, rest)) (hrest : rest ≠ []) : bs ≠ [] := by
  rintro rfl
  cases h
  exact hrest rfl

theorem readFraction_append {bs rest : Bytes} {found : Bool}
    (h : readFraction bs = some (found, rest)) (hrest : rest ≠ []) (more : Bytes) :
    readFraction (bs ++ more) = some (found, rest ++ more) := by
  cases bs with
  | nil => exact absurd rfl (ne_nil_of_readFraction h hrest)
  | cons b tail =>
    rw [List.cons_append]
    simp only [readFraction] at h ⊢
    by_cases hdot : b = ascii '.'
    · rw [if_pos hdot] at h ⊢
      exact someDigits_append h hrest more
    · rw [if_neg hdot] at h ⊢
      cases h
      rfl

/-- Nothing is left behind an exponent where nothing was. -/
theorem ne_nil_of_readExponent {bs rest : Bytes} {found : Bool}
    (h : readExponent bs = some (found, rest)) (hrest : rest ≠ []) : bs ≠ [] := by
  rintro rfl
  cases h
  exact hrest rfl

theorem readExponent_append {bs rest : Bytes} {found : Bool}
    (h : readExponent bs = some (found, rest)) (hrest : rest ≠ []) (more : Bytes) :
    readExponent (bs ++ more) = some (found, rest ++ more) := by
  cases bs with
  | nil => exact absurd rfl (ne_nil_of_readExponent h hrest)
  | cons b tail =>
    rw [List.cons_append]
    simp only [readExponent] at h ⊢
    by_cases hmark : (b = ascii 'e' || b = ascii 'E') = true
    · rw [if_pos hmark] at h ⊢
      cases tail with
      | nil => cases h
      | cons s after =>
        -- a sign is passed over first
        simp only [List.cons_append] at h ⊢
        by_cases hsign : (s = ascii '+' || s = ascii '-') = true
        · rw [if_pos hsign] at h ⊢
          exact someDigits_append h hrest more
        · rw [if_neg hsign] at h ⊢
          exact someDigits_append h hrest more
    · rw [if_neg hmark] at h ⊢
      cases h
      rfl

/-- Whether a value is written as a number. -/
def isNumber : Json → Bool
  | integer _ | real => true
  | _ => false

/-- Whether a minus sign stands in front. -/
def isNegative (bs : Bytes) : Bool :=
  bs.head? == some (ascii '-')

/-- What stands behind the sign, if there is one. -/
def unsigned (bs : Bytes) : Bytes :=
  if isNegative bs then bs.tail else bs

/-- The number that was read, by its sign, its whole part, and whether more parts followed. -/
def numberOf (negative : Bool) (whole : Nat) (more : Bool) : Json :=
  if more || (negative && whole == 0) then real
  else if negative then integer (-whole)
  else integer whole

/-- A number is read part by part. -/
theorem readNumber_eq_some_iff {bs rest : Bytes} {v : Json} :
    readNumber bs = some (v, rest) ↔
      ∃ whole behindWhole fraction behindFraction exponent,
        readWhole (unsigned bs) = some (whole, behindWhole) ∧
        readFraction behindWhole = some (fraction, behindFraction) ∧
        readExponent behindFraction = some (exponent, rest) ∧
        v = numberOf (isNegative bs) whole (fraction || exponent) := by
  have hlast : ∀ (whole : Nat) (fraction exponent : Bool) (behind : Bytes),
      (if fraction || exponent || (isNegative bs && whole == 0) then some (real, behind)
        else if isNegative bs then some (integer (-whole), behind)
        else some (integer whole, behind)) =
      some (numberOf (isNegative bs) whole (fraction || exponent), behind) := by
    intro whole fraction exponent behind
    unfold numberOf
    repeat' split
    all_goals rfl
  have hread : readNumber bs =
      (readWhole (unsigned bs)).bind fun whole =>
        (readFraction whole.2).bind fun fraction =>
          (readExponent fraction.2).bind fun exponent =>
            some (numberOf (isNegative bs) whole.1 (fraction.1 || exponent.1), exponent.2) := by
    simp only [← hlast]
    rfl
  simp only [hread, Option.bind_eq_some_iff, Option.some.injEq, Prod.mk.injEq, Prod.exists]
  constructor
  · rintro ⟨whole, b₁, hwhole, fraction, b₂, hfraction, exponent, b₃, hexponent, rfl, rfl⟩
    exact ⟨whole, b₁, fraction, b₂, exponent, hwhole, hfraction, hexponent, rfl⟩
  · rintro ⟨whole, b₁, fraction, b₂, exponent, hwhole, hfraction, hexponent, rfl⟩
    exact ⟨whole, b₁, hwhole, fraction, b₂, hfraction, exponent, rest, hexponent, rfl, rfl⟩

/-- A number that does not fill the input is read alike with more behind it. -/
theorem readNumber_append {bs rest : Bytes} {v : Json} (h : readNumber bs = some (v, rest))
    (hrest : rest ≠ []) (more : Bytes) : readNumber (bs ++ more) = some (v, rest ++ more) := by
  obtain ⟨whole, b₁, fraction, b₂, exponent, hwhole, hfraction, hexponent, rfl⟩ :=
    readNumber_eq_some_iff.mp h
  -- what ends the number was there all along, behind each of its parts
  have hb₂ := ne_nil_of_readExponent hexponent hrest
  have hb₁ := ne_nil_of_readFraction hfraction hb₂
  have hbs : bs ≠ [] := by
    rintro rfl
    cases hwhole
  obtain ⟨b, tail, rfl⟩ := List.exists_cons_of_ne_nil hbs
  have hunsigned : unsigned (b :: tail ++ more) = unsigned (b :: tail) ++ more := by
    unfold unsigned isNegative
    rw [List.cons_append, List.head?_cons, List.head?_cons]
    split <;> rfl
  refine readNumber_eq_some_iff.mpr
    ⟨whole, b₁ ++ more, fraction, b₂ ++ more, exponent, ?_, ?_, ?_, rfl⟩
  · rw [hunsigned]
    exact readWhole_append hwhole hb₁ more
  · exact readFraction_append hfraction hb₂ more
  · exact readExponent_append hexponent hrest more

theorem isNumber_of_readNumber {bs rest : Bytes} {v : Json} (h : readNumber bs = some (v, rest)) :
    v.isNumber = true := by
  obtain ⟨_, _, _, _, _, _, _, _, rfl⟩ := readNumber_eq_some_iff.mp h
  unfold numberOf
  repeat' split
  all_goals rfl

/-! ## Trees -/

/-- What stands between a bracket or a brace and the one that closes it, with more behind it. -/
theorem inside_append {α : Type} {inside inside' : Bytes → Option (α × Bytes)} {more : Bytes}
    (hinside : ∀ {bs rest x}, inside bs = some (x, rest) →
      inside' (bs ++ more) = some (x, rest ++ more))
    {close : UInt8} {empty v : Json} {make : α → Json} {bs rest : Bytes}
    (h : (match skipBlank bs with
      | [] => none
      | c :: after =>
        if c = close then some (empty, after)
        else (inside bs).map fun (x, rest) => (make x, rest)) = some (v, rest)) :
    (match skipBlank (bs ++ more) with
      | [] => none
      | c :: after =>
        if c = close then some (empty, after)
        else (inside' (bs ++ more)).map fun (x, rest) => (make x, rest)) =
      some (v, rest ++ more) := by
  cases hnext : skipBlank bs with
  | nil =>
    rw [hnext] at h
    cases h
  | cons c after =>
    rw [skipBlank_append hnext]
    simp only [hnext] at h ⊢
    by_cases hclose : c = close
    · rw [if_pos hclose] at h ⊢
      cases h
      rfl
    · rw [if_neg hclose] at h ⊢
      obtain ⟨⟨x, behind⟩, hx, heq⟩ := Option.map_eq_some_iff.mp h
      cases heq
      rw [hinside hx]
      rfl

/-- What stands behind one of several values, a comma and the others or what closes them, with more
behind it. -/
theorem next_append {α : Type} {others others' : Bytes → Option (List α × Bytes)} {more : Bytes}
    (hothers : ∀ {bs rest xs}, others bs = some (xs, rest) →
      others' (bs ++ more) = some (xs, rest ++ more))
    {close : UInt8} {x : α} {xs : List α} {bs rest : Bytes}
    (h : (match skipBlank bs with
      | [] => none
      | c :: after =>
        if c = ascii ',' then (others after).map fun (xs, rest) => (x :: xs, rest)
        else if c = close then some ([x], after)
        else none) = some (xs, rest)) :
    bs ≠ [] ∧
    (match skipBlank (bs ++ more) with
      | [] => none
      | c :: after =>
        if c = ascii ',' then (others' after).map fun (xs, rest) => (x :: xs, rest)
        else if c = close then some ([x], after)
        else none) = some (xs, rest ++ more) := by
  cases hnext : skipBlank bs with
  | nil =>
    rw [hnext] at h
    cases h
  | cons c after =>
    have hbs : bs ≠ [] := by
      rintro rfl
      cases hnext
    refine ⟨hbs, ?_⟩
    rw [skipBlank_append hnext]
    simp only [hnext] at h ⊢
    by_cases hcomma : c = ascii ','
    · rw [if_pos hcomma] at h ⊢
      obtain ⟨⟨ys, behind⟩, hys, heq⟩ := Option.map_eq_some_iff.mp h
      cases heq
      rw [hothers hys]
      rfl
    rw [if_neg hcomma] at h ⊢
    by_cases hclose : c = close
    · rw [if_pos hclose] at h ⊢
      cases h
      rfl
    · rw [if_neg hclose] at h
      cases h

/-- What one round reads of members: a name, a colon and a value, and then what stands behind. -/
theorem readMembers_succ_ok {fuel : Nat} {bs rest : Bytes} {ms : List (Bytes × Json)}
    (h : readMembers (fuel + 1) bs = some (ms, rest)) :
    ∃ tail key behindKey inner v behind,
      skipBlank bs = ascii '"' :: tail ∧ readText tail = some (text key, behindKey) ∧
      skipBlank behindKey = ascii ':' :: inner ∧ readValue fuel inner = some (v, behind) ∧
      (match skipBlank behind with
        | [] => none
        | c :: after =>
          if c = ascii ',' then (readMembers fuel after).map fun (ms, rest) => ((key, v) :: ms, rest)
          else if c = ascii '\x7d' then some ([(key, v)], after)
          else none) = some (ms, rest) := by
  rw [readMembers] at h
  cases hquote : skipBlank bs with
  | nil =>
    rw [hquote] at h
    cases h
  | cons q tail =>
    simp only [hquote] at h
    by_cases hq : q = ascii '"'
    · rw [if_pos hq] at h
      split at h
      · rename_i key behindKey hkey
        cases hcolon : skipBlank behindKey with
        | nil =>
          rw [hcolon] at h
          cases h
        | cons c inner =>
          simp only [hcolon] at h
          by_cases hc : c = ascii ':'
          · rw [if_pos hc] at h
            cases hvalue : readValue fuel inner with
            | none =>
              rw [hvalue] at h
              cases h
            | some p =>
              obtain ⟨v, behind⟩ := p
              rw [hvalue] at h
              exact ⟨tail, key, behindKey, inner, v, behind, by rw [hq], hkey, by rw [hcolon, hc],
                hvalue, h⟩
          · rw [if_neg hc] at h
            cases h
      · cases h
    · rw [if_neg hq] at h
      cases h

mutual

/-- A value of which it shows where it ends is read alike with more behind it. -/
theorem readValue_append {fuel rounds : Nat} (hle : fuel ≤ rounds) {bs rest : Bytes} {v : Json}
    (h : readValue fuel bs = some (v, rest)) (hend : v.isNumber = true → rest ≠ [])
    (more : Bytes) : readValue rounds (bs ++ more) = some (v, rest ++ more) := by
  match fuel, rounds with
  | 0, _ =>
    rw [readValue] at h
    cases h
  | fuel + 1, 0 => omega
  | fuel + 1, rounds + 1 =>
    have hle' := Nat.le_of_succ_le_succ hle
    rw [readValue] at h ⊢
    cases hfirst : skipBlank bs with
    | nil =>
      rw [hfirst] at h
      cases h
    | cons b tail =>
      rw [skipBlank_append hfirst]
      simp only [hfirst] at h ⊢
      by_cases hquote : b = ascii '"'
      · rw [if_pos hquote] at h ⊢
        exact readText_append h more
      rw [if_neg hquote] at h ⊢
      by_cases hbracket : b = ascii '['
      · rw [if_pos hbracket] at h ⊢
        exact inside_append (fun h => readItems_append hle' h more) h
      rw [if_neg hbracket] at h ⊢
      by_cases hbrace : b = ascii '\x7b'
      · rw [if_pos hbrace] at h ⊢
        exact inside_append (fun h => readMembers_append hle' h more) h
      rw [if_neg hbrace] at h ⊢
      rw [← List.cons_append]
      by_cases hn : b = ascii 'n'
      · rw [if_pos hn] at h ⊢
        exact readWord_append h more
      rw [if_neg hn] at h ⊢
      by_cases ht : b = ascii 't'
      · rw [if_pos ht] at h ⊢
        exact readWord_append h more
      rw [if_neg ht] at h ⊢
      by_cases hf : b = ascii 'f'
      · rw [if_pos hf] at h ⊢
        exact readWord_append h more
      rw [if_neg hf] at h ⊢
      exact readNumber_append h (hend (isNumber_of_readNumber h)) more

/-- Items are read alike with more behind the bracket. -/
theorem readItems_append {fuel rounds : Nat} (hle : fuel ≤ rounds) {bs rest : Bytes}
    {vs : List Json} (h : readItems fuel bs = some (vs, rest)) (more : Bytes) :
    readItems rounds (bs ++ more) = some (vs, rest ++ more) := by
  match fuel, rounds with
  | 0, _ =>
    rw [readItems] at h
    cases h
  | fuel + 1, 0 => omega
  | fuel + 1, rounds + 1 =>
    have hle' := Nat.le_of_succ_le_succ hle
    rw [readItems] at h ⊢
    cases hvalue : readValue fuel bs with
    | none =>
      rw [hvalue] at h
      cases h
    | some p =>
      obtain ⟨v, behind⟩ := p
      rw [hvalue] at h
      -- what stands behind the item shows where it ends
      obtain ⟨hbehind, hnext⟩ := next_append (fun h => readItems_append hle' h more) h
      rw [readValue_append hle' hvalue (fun _ => hbehind)]
      exact hnext

/-- Members are read alike with more behind the brace. -/
theorem readMembers_append {fuel rounds : Nat} (hle : fuel ≤ rounds) {bs rest : Bytes}
    {ms : List (Bytes × Json)} (h : readMembers fuel bs = some (ms, rest)) (more : Bytes) :
    readMembers rounds (bs ++ more) = some (ms, rest ++ more) := by
  match fuel, rounds with
  | 0, _ =>
    rw [readMembers] at h
    cases h
  | fuel + 1, 0 => omega
  | fuel + 1, rounds + 1 =>
    have hle' := Nat.le_of_succ_le_succ hle
    obtain ⟨tail, key, behindKey, inner, v, behind, hquote, hkey, hcolon, hvalue, hbehind⟩ :=
      readMembers_succ_ok h
    obtain ⟨hne, hnext⟩ := next_append (fun h => readMembers_append hle' h more) hbehind
    rw [readMembers, skipBlank_append hquote]
    simp only [if_true, readText_append hkey, skipBlank_append hcolon,
      readValue_append hle' hvalue (fun _ => hne)]
    exact hnext

end

/-- What starts with a brace is no number. -/
theorem isNumber_of_brace {fuel : Nat} {bs rest : Bytes} {v : Json}
    (h : readValue fuel (ascii '\x7b' :: bs) = some (v, rest)) : v.isNumber = false := by
  have hquote : ¬ ascii '\x7b' = ascii '"' := by decide
  have hbracket : ¬ ascii '\x7b' = ascii '[' := by decide
  cases fuel with
  | zero =>
    rw [readValue] at h
    cases h
  | succ fuel =>
    rw [readValue, skipBlank_of_mayStart (by decide)] at h
    simp only [hquote, hbracket, if_true, if_false] at h
    split at h
    · cases h
    · split at h
      · cases h
        rfl
      · obtain ⟨⟨members, behind⟩, -, heq⟩ := Option.map_eq_some_iff.mp h
        cases heq
        rfl

/-- No part of the text of an object is read, if something of it is missing at its end. -/
theorem parse?_cut {ms : List (Bytes × Json)} (hms : (object ms).isExact = true)
    {part more : Bytes} (hmore : more ≠ []) (h : part ++ more = (object ms).render) :
    parse? part = none := by
  cases hparse : readValue (2 * part.length + 2) part with
  | none => rw [parse?, hparse]
  | some p =>
    obtain ⟨v, rest⟩ := p
    exfalso
    cases part with
    | nil => cases hparse
    | cons b tail =>
      obtain rfl : b = ascii '\x7b' := by
        rw [render, List.cons_append, List.cons_append] at h
        exact (List.cons.inj h).1
      -- what is read of the part would be read of the whole text, and would leave what is missing
      have hnumber := isNumber_of_brace hparse
      have hfuel : 2 * (ascii '\x7b' :: tail).length + 2 ≤ 2 * (object ms).render.length + 2 := by
        rw [← h, List.length_append]
        omega
      have hlonger := readValue_append hfuel hparse (fun hv => absurd hv (by rw [hnumber]; decide))
        more
      have hwhole := readValue_render (object ms) hms (2 * (object ms).render.length + 2)
        (by omega) closes_nil
      rw [h] at hlonger
      rw [List.append_nil, hlonger] at hwhole
      have hnil : rest ++ more = [] := (Prod.mk.inj (Option.some.inj hwhole)).2
      exact hmore (List.append_eq_nil_iff.mp hnil).2

end Json

end Parley
