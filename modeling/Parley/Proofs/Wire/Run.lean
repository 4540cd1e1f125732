import Parley.Proofs.Wire.Compressed

/-!
# A run of zeros takes little room

Bytes that differ in one place and are zero from there on, as in the payload of a message that
carries zeros only. The search passes over the first places, where no two have the same four bytes,
and then takes the whole run as one copy (`Lz4.search_dotted`). So what would take hundreds of bytes
takes sixteen (`Lz4.encode_dotted`).
-/

namespace Parley

namespace Lz4

/-! ## Steps of the search -/

/-- Bytes that agree all along are counted to the end. -/
theorem agreement_eq {t : Places} {i j : Nat} (limit n : Nat)
    (h : ∀ k, n ≤ k → k < n + limit → t.data.getD (i + k) 0 = t.data.getD (j + k) 0) :
    t.agreement i j n limit = n + limit := by
  induction limit generalizing n with
  | zero => rfl
  | succ limit ih =>
    have hhere := h n (Nat.le_refl n) (by omega)
    have hrest := ih (n + 1) fun k hk hlt => h k (by omega) (by omega)
    rw [Places.agreement, if_pos hhere, hrest]
    omega

/-- Every slot names a place before `i`. -/
def Places.Below (t : Places) (i : Nat) : Prop :=
  ∀ k, t.slots.getD k 0 < i

theorem Places.below_new (data : Array UInt8) : (Places.new data).Below 1 := by
  intro k
  show (Array.replicate (if narrowLimit < data.size then 4096 else 8192) 0).getD k 0 < 1
  generalize (if narrowLimit < data.size then 4096 else 8192) = size
  rw [Array.getD_eq_getD_getElem?, Array.getElem?_replicate]
  split
  · exact Nat.one_pos
  · exact Nat.one_pos

theorem Places.Below.put {t : Places} {i : Nat} (h : t.Below i) : (t.put i).Below (i + 1) := by
  intro k
  have hk := h k
  show (t.slots.setIfInBounds (t.slot i) i).getD k 0 < i + 1
  rw [Array.getD_eq_getD_getElem?] at hk ⊢
  rw [Array.getElem?_setIfInBounds]
  split
  · split
    · exact Nat.lt_succ_self i
    · exact Nat.succ_pos i
  · omega

theorem data_put (t : Places) (i : Nat) : (t.put i).data = t.data := rfl

theorem slot_put (t : Places) (i j : Nat) : (t.put i).slot j = t.slot j := rfl

/-- Early on, the search goes from place to place. -/
theorem stride_of_le {tried : Nat} (h : tried ≤ 65) : stride tried = 1 := by
  unfold stride
  omega

theorem searchFrom_none {rounds : Nat} {t : Places} {start i tried : Nat} {found : Array Sequence}
    (hnone : t.candidate? i = none) (htried : tried ≤ 65) (hnext : i + 12 ≤ t.data.size) :
    searchFrom (rounds + 1) t start i tried found =
      searchFrom rounds (t.put i) start (i + 1) (tried + 1) found := by
  have hmargin : ¬ t.data.size < i + 1 + outputMargin - 1 := Nat.not_lt.mpr hnext
  rw [searchFrom, stride_of_le htried]
  simp only [if_neg hmargin, hnone]

theorem searchFrom_some {rounds : Nat} {t : Places} {start i tried p : Nat} {q : Sequence}
    {found : Array Sequence} (hsome : t.candidate? i = some p) (hq : t.widest start i p = q)
    (htried : tried ≤ 65) (hnext : i + 12 ≤ t.data.size) :
    searchFrom (rounds + 1) t start i tried found =
      searchFrom rounds ((t.put i).put (q.stop - 2)) q.stop q.stop 0 (found.push q) := by
  have hmargin : ¬ t.data.size < i + 1 + outputMargin - 1 := Nat.not_lt.mpr hnext
  rw [searchFrom, stride_of_le htried]
  simp only [if_neg hmargin, hsome, hq]

theorem searchFrom_stop {rounds : Nat} {t : Places} {start i tried : Nat} {found : Array Sequence}
    (htried : tried ≤ 65) (hnext : t.data.size < i + 12) :
    searchFrom (rounds + 1) t start i tried found = found := by
  have hmargin : t.data.size < i + 1 + outputMargin - 1 := hnext
  rw [searchFrom, stride_of_le htried]
  simp only [if_pos hmargin]

/-! ## Steps of the decoder -/

/-- At a distance of one, the last byte is repeated. -/
theorem copyBack_one (n : Nat) (out : Array UInt8) (b : UInt8) :
    copyBack 1 n (out.push b) = out.push b ++ List.replicate n b := by
  induction n generalizing out with
  | zero => simp [copyBack]
  | succ n ih =>
    have hlast : (out.push b).getD ((out.push b).size - 1) 0 = b := by simp
    rw [copyBack, hlast, ih, List.replicate_succ]
    simp

/-- Close to an end, a sequence with room for a copy behind its literals goes on with the copy. -/
theorem sequences_copy {size fuel : Nat} {token : UInt8} {rest more after block : Bytes}
    {out : Array UInt8} {n distance m : Nat} (hfar : isFarFromEnds size out rest = false)
    (hn : readLength 0 (token.toNat / 16) rest = some (n, more))
    (hroom : (decide (size < out.size + n + outputMargin) ||
      more.isShorter (n + inputMargin)) = false)
    (hdistance : Bytes.takeLE? 2 (more.drop n) = some (distance, after))
    (hm : readLength 4 (token.toNat % 16) after = some (m, block))
    (hfit : (decide ((out ++ (more.take n).toArray).size < distance) ||
      decide (size < (out ++ (more.take n).toArray).size + m + minCopy + lastLiterals)) = false) :
    sequences size (fuel + 1) (token :: rest) out =
      sequences size fuel block
        (copyBack distance (m + minCopy) (out ++ (more.take n).toArray)) := by
  simp only [sequences, hfar, Bool.and_false, bind, Option.bind, hn, Bool.not_false, Bool.true_and,
    hroom, hdistance, hm, Bool.false_and, Bool.false_eq_true, if_false, hfit]

/-! ## The run -/

/-- Zeros, one of them replaced. -/
def dotted (n : Nat) : Bytes :=
  [0, 0, 0, 2] ++ List.replicate n 0

theorem dotted_eq (n : Nat) :
    [0, 0, 0, 2, 0] ++ List.replicate n 0 ++ [0, 0, 0, 0, 0] = dotted (n + 6) := by
  have hrun : List.replicate (n + 6) (0 : UInt8) =
      [0] ++ List.replicate n 0 ++ List.replicate 5 0 := by
    rw [List.append_assoc, List.replicate_append_replicate, Nat.add_right_comm n 1 5]
    rfl
  rw [dotted, hrun]
  simp

theorem size_dotted (n : Nat) : (dotted n).toArray.size = n + 4 := by
  simp [dotted]

theorem getD_dotted (n k : Nat) : (dotted n).toArray.getD k 0 = if k = 3 then 2 else 0 := by
  rw [Array.getD_eq_getD_getElem?]
  match k with
  | 0 | 1 | 2 | 3 => simp [dotted]
  | k + 4 =>
    have hk : ¬ k + 4 = 3 := by omega
    rw [if_neg hk]
    simp only [dotted, List.getElem?_toArray, List.cons_append, List.getElem?_cons_succ,
      List.nil_append, List.getElem?_replicate]
    split
    · rfl
    · rfl

/-- No two places up to the fourth have the same four bytes. -/
theorem candidate?_dotted {t : Places} {n i : Nat} (hdata : t.data = (dotted n).toArray)
    (hbelow : t.Below i) (hi : i ≤ 4) : t.candidate? i = none := by
  have hp := hbelow (t.slot i)
  unfold Places.candidate?
  generalize t.slots.getD (t.slot i) 0 = p at hp
  -- the one byte that is not zero stands at different offsets from `p` and from `i`
  have hagree : t.agreement p i 0 minCopy ≠ minCopy := by
    simp only [minCopy, Places.agreement, hdata, getD_dotted]
    have : p = 0 ∨ p = 1 ∨ p = 2 ∨ p = 3 := by omega
    have : i = 1 ∨ i = 2 ∨ i = 3 ∨ i = 4 := by omega
    grind
  dsimp only
  rw [if_neg fun h => hagree h.2]

theorem slot_dotted {t : Places} {n i : Nat} (hdata : t.data = (dotted n).toArray)
    (hwide : t.wide = false) (hi : 4 ≤ i) : t.slot i = 0 := by
  have hbyte : ∀ k, t.data.getD (i + k) 0 = 0 := by
    intro k
    rw [hdata, getD_dotted, if_neg (by omega)]
  have hword : t.word i = 0 := by
    simp only [Places.word, hbyte]
    rfl
  rw [Places.slot, hwide, hword]
  rfl

/-- The place before the fifth is found for it, and the copy goes on up to the last literals. -/
theorem candidate?_put {t : Places} {n : Nat} (hdata : t.data = (dotted n).toArray)
    (hwide : t.wide = false) (hsize : 0 < t.slots.size) : (t.put 4).candidate? 5 = some 4 := by
  -- from the fourth place on all words are zero, so they share a slot
  have hslot : (t.put 4).slots.getD ((t.put 4).slot 5) 0 = 4 := by
    rw [slot_put, slot_dotted hdata hwide (by decide)]
    show (t.slots.setIfInBounds (t.slot 4) 4).getD 0 0 = 4
    rw [slot_dotted hdata hwide (Nat.le_refl 4), Array.getD_eq_getD_getElem?,
      Array.getElem?_setIfInBounds_self, if_pos hsize]
    rfl
  have hagree : (t.put 4).agreement 4 5 0 minCopy = minCopy := by
    rw [agreement_eq minCopy 0, Nat.zero_add]
    intro k _ _
    show t.data.getD _ 0 = t.data.getD _ 0
    rw [hdata, getD_dotted, getD_dotted, if_neg (by omega), if_neg (by omega)]
  unfold Places.candidate?
  simp only [hslot, hagree, and_true]
  rfl

theorem widest_dotted {t : Places} {n : Nat} (hdata : t.data = (dotted n).toArray) :
    t.widest 0 5 4 = ⟨0, 5, 1, n - 6⟩ := by
  have hbefore : t.agreementBefore 5 4 0 (min (5 - 0) 4) = 0 := by
    show t.agreementBefore 5 4 0 (3 + 1) = 0
    rw [Places.agreementBefore, hdata, getD_dotted, getD_dotted]
    rfl
  have hagree : t.agreement 4 5 0 (n - 6) = n - 6 := by
    rw [agreement_eq (n - 6) 0, Nat.zero_add]
    intro k _ _
    rw [hdata, getD_dotted, getD_dotted, if_neg (by omega), if_neg (by omega)]
  have hrest : t.data.size - lastLiterals - 5 = n - 6 := by
    rw [hdata, size_dotted]
    show n + 4 - 5 - 5 = n - 6
    omega
  rw [Places.widest, hbefore, hrest, hagree, Nat.zero_add]

/-- The run of zeros behind the second of them is one copy. -/
theorem search_dotted {n : Nat} (hn : 13 ≤ n) (hnarrow : n + 4 ≤ Places.narrowLimit) :
    search (dotted n).toArray = [⟨0, 5, 1, n - 6⟩] := by
  have hsize := size_dotted n
  have hwide : (Places.new (dotted n).toArray).wide = false := by
    simp only [Places.new, hsize]
    exact decide_eq_false (by omega)
  have hslots : (Places.new (dotted n).toArray).slots.size = 8192 := by
    have hnot : ¬ Places.narrowLimit < (dotted n).toArray.size := by omega
    simp only [Places.new, hnot, decide_false, if_false, Array.size_replicate]
  have hdata : (Places.new (dotted n).toArray).data = (dotted n).toArray := rfl
  have hbelow := Places.below_new (dotted n).toArray
  generalize ht : Places.new (dotted n).toArray = t at hwide hslots hdata hbelow
  -- four places are passed over, the fifth starts a copy, and what is left is too short for more
  have hlarge : 17 ≤ t.data.size := by rw [hdata]; omega
  have h1 := candidate?_dotted hdata hbelow (by decide)
  have h2 := candidate?_dotted (t := t.put 1) hdata hbelow.put (by decide)
  have h3 := candidate?_dotted (t := (t.put 1).put 2) hdata hbelow.put.put (by decide)
  have h4 := candidate?_dotted (t := ((t.put 1).put 2).put 3) hdata hbelow.put.put.put (by decide)
  have h5 := candidate?_put (t := ((t.put 1).put 2).put 3) hdata hwide (by
    simp only [Places.put, Array.size_setIfInBounds, hslots]
    decide)
  have hq := widest_dotted (t := (((t.put 1).put 2).put 3).put 4) hdata
  obtain ⟨rounds, hrounds⟩ : ∃ k, (dotted n).toArray.size = k + 6 := ⟨n - 2, by omega⟩
  have hnext : ∀ i ≤ 5, i + 12 ≤ t.data.size := fun i hi => by omega
  rw [search, ht, hrounds, searchFrom_none h1 (by decide) (hnext 1 (by decide)),
    searchFrom_none h2 (by decide) (hnext 2 (by decide)),
    searchFrom_none h3 (by decide) (hnext 3 (by decide)),
    searchFrom_none h4 (by decide) (hnext 4 (by decide)),
    searchFrom_some h5 hq (by decide) (hnext 5 (by decide)), searchFrom_stop (by decide)]
  · simp
  · simp only [data_put, Sequence.stop, hdata]
    omega

theorem write_dotted : write (dotted 518).toArray [⟨0, 5, 1, 512⟩] =
    [95, 0, 0, 0, 2, 0, 1, 0, 255, 238, 80, 0, 0, 0, 0, 0] := by
  decide +kernel

/-- The copy, and the five literals behind it. -/
theorem decode?_dotted :
    decode? 522 [95, 0, 0, 0, 2, 0, 1, 0, 255, 238, 80, 0, 0, 0, 0, 0] = some (dotted 518) := by
  let front : Array UInt8 := #[0, 0, 0, 2, 0]
  have hcopy : copyBack 1 512 front = front ++ List.replicate 512 (0 : UInt8) :=
    copyBack_one 512 #[0, 0, 0, 2] 0
  let rest : Bytes := [0, 0, 0, 2, 0, 1, 0, 255, 238, 80, 0, 0, 0, 0, 0]
  have hfirst : sequences 522 (16 + 1) (95 :: rest) #[] =
      sequences 522 16 [80, 0, 0, 0, 0, 0]
        (copyBack 1 (508 + minCopy) (#[] ++ (rest.take 5).toArray)) :=
    sequences_copy (by decide) rfl (by decide) rfl rfl (by decide)
  have hsize : (front ++ List.replicate 512 (0 : UInt8)).size = 517 := by
    rw [← Array.length_toList, Array.toList_appendList, List.length_append, List.length_replicate]
    rfl
  have hlast : sequences 522 16 [80, 0, 0, 0, 0, 0] (front ++ List.replicate 512 (0 : UInt8)) =
      some (front ++ List.replicate 512 (0 : UInt8) ++ #[0, 0, 0, 0, 0]) := by
    refine sequences_last (n := 5) ?_ rfl ?_ rfl ?_
    · rw [isFarFromEnds, hsize]
      decide
    · rw [hsize]
      decide
    · omega
  have hall : (front ++ List.replicate 512 (0 : UInt8) ++ #[0, 0, 0, 0, 0]).toList = dotted 518 := by
    rw [Array.toList_append, Array.toList_appendList]
    exact dotted_eq 512
  rw [decode?, if_neg (by decide)]
  show (sequences 522 (16 + 1) (95 :: rest) #[]).map _ = _
  rw [hfirst]
  show (sequences 522 16 _ (copyBack 1 512 front)).map _ = _
  rw [hcopy, hlast, Option.map_some, hall]

/-- Five literals, the copy, and five literals. -/
theorem encode_dotted :
    encode (dotted 518) = [95, 0, 0, 0, 2, 0, 1, 0, 255, 238, 80, 0, 0, 0, 0, 0] := by
  have hlength : (dotted 518).length = 522 := size_dotted 518
  have hfound : search (dotted 518).toArray = [⟨0, 5, 1, 512⟩] :=
    search_dotted (by decide) (by decide)
  -- the packer keeps a block only if it unpacks again
  have hback : (decode? 522 [95, 0, 0, 0, 2, 0, 1, 0, 255, 238, 80, 0, 0, 0, 0, 0] ==
      some (dotted 518)) = true := beq_iff_eq.mpr decode?_dotted
  unfold encode
  simp only [hfound, write_dotted, hlength, hback, if_true]

end Lz4

end Parley
