import Parley.Proofs.Wire.Compressed
import Parley.Proofs.Wire.Splitting

/-!
# Which LZ4 blocks are unpacked, and to what

A block is a row of sequences as `Sequence.write` writes them, the last of which has literals only.

- `Lz4.Row`: a block unpacks to some bytes, said of these bytes and not by a decoder. Which copies
  are allowed is a parameter: the format has no copies at a distance of zero
  (`Sequence.LooksBack`), and a block is to end in literals (`Sequence.KeepsEnds`).
- `Lz4.turn`: one round of the decoder, and `Lz4.sequences_succ`, which says that it is one.
- `Lz4.unpacks_of_decode?`: what is unpacked is what the block unpacks to, and nothing else is.
- `Lz4.decode?_of_unpacks`: a block that keeps the rules for its end is unpacked.
- `Lz4.size_turn_le`: whatever the block, no round puts out more than it may.
-/

namespace Parley

namespace Lz4

/-! ## The format -/

/-- What a copy has at place `i`. At no distance there is nothing to take, and it is zero. -/
def Sequence.source? (data : Array UInt8) (q : Sequence) (i : Nat) : Option UInt8 :=
  if q.distance = 0 then some 0 else data[i - q.distance]?

/-- What a sequence says about `data` is true. -/
structure Sequence.Fits (data : Array UInt8) (q : Sequence) : Prop where
  start_le : q.start ≤ q.place
  minCopy_le : minCopy ≤ q.length
  stop_le : q.stop ≤ data.size
  distance_le : q.distance ≤ q.place
  distance_le_max : q.distance ≤ maxDistance
  copied : ∀ i, q.place ≤ i → i < q.stop → data[i]? = q.source? data i

/-- The last sequence of a block. It has no copy, so that half of its token is spare. -/
def closing (spare : Nat) (bs : Bytes) : Bytes :=
  UInt8.ofNat ((splitLength bs.length).1 * 16 + spare) :: ((splitLength bs.length).2 ++ bs)

/-- A block that unpacks to what `data` has from `start` on. Each copy obeys a rule, which may look
at the size of the whole, too. -/
inductive Row (rule : Sequence → Nat → Prop) (data : Array UInt8) : Nat → Bytes → Prop
  | last {start spare : Nat} (hstart : start ≤ data.size) (hspare : spare < 16) :
      Row rule data start (closing spare (data.extract start data.size).toList)
  | copy {start : Nat} {q : Sequence} {block : Bytes} (hstart : q.start = start)
      (hq : q.Fits data) (hrule : rule q data.size) (hrest : Row rule data q.stop block) :
      Row rule data start (q.write data ++ block)

/-- The block unpacks to the bytes. -/
def Unpacks (rule : Sequence → Nat → Prop) (block out : Bytes) : Prop :=
  Row rule out.toArray 0 block

/-- Every copy is let pass. -/
def anyCopy : Sequence → Nat → Prop :=
  fun _ _ => True

/-- The format has copies from a place before their own only. -/
def Sequence.LooksBack (q : Sequence) (_size : Nat) : Prop :=
  0 < q.distance

/-- The format asks for literals at the end, too, and for none but short blocks without a copy. -/
def Sequence.KeepsEnds (q : Sequence) (size : Nat) : Prop :=
  0 < q.distance ∧ q.place + outputMargin ≤ size ∧ q.stop + lastLiterals ≤ size

/-! ## Lengths -/

theorem prolongation_add (n : Nat) : prolongation (n + 255) = 255 :: prolongation n := by
  have hdiv : (n + 255) / 255 = n / 255 + 1 := by omega
  have hmod : (n + 255) % 255 = n % 255 := by omega
  rw [prolongation, hdiv, hmod, List.replicate_succ]
  rfl

theorem prolongation_toNat {b : UInt8} (h : b ≠ 255) : prolongation b.toNat = [b] := by
  have hlt : b.toNat < 255 := by
    have hb := b.toNat_lt
    have hne : b.toNat ≠ 255 := fun he => h (UInt8.toNat_inj.mp he)
    omega
  rw [prolongation, Nat.div_eq_of_lt hlt, Nat.mod_eq_of_lt hlt, UInt8.ofNat_toNat]
  rfl

theorem exists_of_prolong {acc n : Nat} {bs rest : Bytes} (h : prolong acc bs = some (n, rest)) :
    ∃ k, n = acc + k ∧ bs = prolongation k ++ rest := by
  induction bs generalizing acc with
  | nil => cases h
  | cons b bs ih =>
    rw [prolong] at h
    by_cases hb : b = 255
    · rw [if_pos hb] at h
      obtain ⟨k, rfl, rfl⟩ := ih h
      refine ⟨k + 255, by omega, ?_⟩
      rw [prolongation_add, hb]
      rfl
    · rw [if_neg hb] at h
      cases h
      refine ⟨b.toNat, rfl, ?_⟩
      rw [prolongation_toNat hb]
      rfl

/-- A length is read from what is written for it, and from nothing else. -/
theorem readLength_eq_some_iff {margin nibble n : Nat} {bs rest : Bytes} (hnibble : nibble < 16) :
    readLength margin nibble bs = some (n, rest) ↔
      nibble = (splitLength n).1 ∧ bs = (splitLength n).2 ++ rest ∧
        (nibble = 15 → margin ≤ rest.length) := by
  unfold readLength splitLength
  by_cases hlong : nibble = 15
  · rw [if_pos hlong]
    subst hlong
    constructor
    · intro h
      obtain ⟨⟨m, more⟩, hread, hmargin⟩ := Option.bind_eq_some_iff.mp h
      obtain ⟨k, rfl, rfl⟩ := exists_of_prolong hread
      by_cases hshort : more.isShorter margin = true
      · simp [hshort] at hmargin
      · simp only [hshort] at hmargin
        cases hmargin
        rw [Bytes.isShorter_iff] at hshort
        have hk : ¬ 15 + k < 15 := by omega
        rw [if_neg hk, Nat.add_sub_cancel_left]
        exact ⟨rfl, rfl, fun _ => Nat.not_lt.mp hshort⟩
    · rintro ⟨hn, rfl, hmargin⟩
      by_cases hlt : n < 15
      · rw [if_pos hlt] at hn
        have : 15 = n := hn
        omega
      · have hsum : 15 + (n - 15) = n := by omega
        have hroom : ¬ rest.isShorter margin = true := by
          rw [Bytes.isShorter_iff]
          exact Nat.not_lt.mpr (hmargin rfl)
        rw [if_neg hlt, prolong_prolongation, hsum]
        simp [hroom]
  · rw [if_neg hlong]
    constructor
    · intro h
      cases h
      have hlt : nibble < 15 := by omega
      rw [if_pos hlt]
      exact ⟨rfl, rfl, fun h => absurd h hlong⟩
    · rintro ⟨hn, rfl, -⟩
      by_cases hlt : n < 15
      · rw [if_pos hlt] at hn ⊢
        rw [hn]
        rfl
      · rw [if_neg hlt] at hn
        exact absurd hn hlong

/-! ## Sequences -/

/-- The sequence of some literals and a copy. -/
def opening (bs : Bytes) (distance m : Nat) : Bytes :=
  UInt8.ofNat ((splitLength bs.length).1 * 16 + (splitLength m).1) ::
    ((splitLength bs.length).2 ++ (bs ++ (Bytes.ofNatLE 2 distance ++ (splitLength m).2)))

theorem token_halves {a b : Nat} (ha : a < 16) (hb : b < 16) :
    (UInt8.ofNat (a * 16 + b)).toNat / 16 = a ∧ (UInt8.ofNat (a * 16 + b)).toNat % 16 = b := by
  rw [UInt8.toNat_ofNat_of_lt' (show a * 16 + b < 256 by omega)]
  omega

theorem splitLength_lt (n : Nat) : (splitLength n).1 < 16 :=
  Nat.lt_succ_of_le (splitLength_nibble_le n)

theorem length_literals {data : Array UInt8} {q : Sequence} (hq : q.Fits data) :
    (data.extract q.start q.place).toList.length = q.place - q.start := by
  have hplace : q.place ≤ data.size := Nat.le_trans (Nat.le_add_right _ _) hq.stop_le
  rw [Array.length_toList, Array.size_extract, Nat.min_eq_left hplace]

theorem write_eq_opening {data : Array UInt8} {q : Sequence} (hq : q.Fits data) :
    q.write data =
      opening (data.extract q.start q.place).toList q.distance (q.length - minCopy) := by
  rw [opening, length_literals hq]
  simp [Sequence.write]

/-! ## Copies -/

@[simp] theorem size_copyBack (distance n : Nat) (out : Array UInt8) :
    (copyBack distance n out).size = out.size + n := by
  induction n generalizing out with
  | zero => rfl
  | succ n ih =>
    rw [copyBack, ih, Array.size_push]
    omega

theorem copyBack_of_lt {distance n i : Nat} {out : Array UInt8} (hi : i < out.size) :
    (copyBack distance n out)[i]? = out[i]? := by
  induction n generalizing out with
  | zero => rfl
  | succ n ih =>
    have hlt : i < (out.push (out.getD (out.size - distance) 0)).size := by
      rw [Array.size_push]
      omega
    rw [copyBack, ih hlt, Array.getElem?_push_lt hi, Array.getElem?_eq_getElem hi]

/-- The next byte of a copy. -/
theorem getD_source {distance : Nat} {out : Array UInt8} (h : distance ≤ out.size) :
    some (out.getD (out.size - distance) 0) =
      if distance = 0 then some 0 else out[out.size - distance]? := by
  by_cases hzero : distance = 0
  · rw [if_pos hzero, hzero]
    simp
  · have hlt : out.size - distance < out.size := by omega
    rw [if_neg hzero, Array.getElem?_eq_getElem hlt]
    simp [Array.getD, hlt]

theorem copyBack_of_le {distance n i : Nat} {out : Array UInt8} (h : distance ≤ out.size)
    (hi : out.size ≤ i) (hlt : i < out.size + n) :
    (copyBack distance n out)[i]? =
      if distance = 0 then some 0 else (copyBack distance n out)[i - distance]? := by
  induction n generalizing out with
  | zero => omega
  | succ n ih =>
    have hsize : (out.push (out.getD (out.size - distance) 0)).size = out.size + 1 :=
      Array.size_push _
    rw [copyBack]
    rcases Nat.eq_or_lt_of_le hi with rfl | hlater
    · have hfirst : out.size < (out.push (out.getD (out.size - distance) 0)).size := by omega
      rw [copyBack_of_lt hfirst, Array.getElem?_push_size, getD_source h]
      by_cases hzero : distance = 0
      · rw [if_pos hzero, if_pos hzero]
      · have hback : out.size - distance < out.size := by omega
        rw [if_neg hzero, if_neg hzero, copyBack_of_lt (by omega), Array.getElem?_push_lt hback,
          Array.getElem?_eq_getElem hback]
    · exact ih (by omega) (by omega) (by omega)

theorem getElem?_front {data : Array UInt8} {start i : Nat} (hi : i < start) :
    (data.extract 0 start)[i]? = data[i]? := by
  rw [Array.getElem?_extract, Nat.zero_add, Nat.sub_zero]
  by_cases hlt : i < data.size
  · rw [if_pos (Nat.lt_min.mpr ⟨hi, hlt⟩)]
  · rw [if_neg (fun h => hlt (Nat.lt_min.mp h).2), Array.getElem?_eq_none (Nat.not_lt.mp hlt)]

/-- What is copied byte by byte is what the data has there, if the copy is true of it. -/
theorem copyBack_extract {data : Array UInt8} {distance start n : Nat} (h : distance ≤ start)
    (hstop : start + n ≤ data.size)
    (hcopied : ∀ i, start ≤ i → i < start + n →
      data[i]? = if distance = 0 then some 0 else data[i - distance]?) :
    copyBack distance n (data.extract 0 start) = data.extract 0 (start + n) := by
  induction n generalizing start with
  | zero => rfl
  | succ n ih =>
    have hlt : start < data.size := by omega
    have hsize : (data.extract 0 start).size = start := by
      rw [Array.size_extract]
      omega
    have hnext : (data.extract 0 start).getD ((data.extract 0 start).size - distance) 0 =
        data[start] := by
      apply Option.some.inj
      rw [getD_source (by omega), ← Array.getElem?_eq_getElem hlt,
        hcopied start (Nat.le_refl _) (by omega), hsize]
      by_cases hzero : distance = 0
      · rw [if_pos hzero, if_pos hzero]
      · rw [if_neg hzero, if_neg hzero, getElem?_front (by omega)]
    have hpush : (data.extract 0 start).push data[start] = data.extract 0 (start + 1) :=
      Array.push_extract_getElem hlt
    rw [copyBack, hnext, hpush,
      ih (by omega) (by omega) fun i hi hlt => hcopied i (by omega) (by omega), Nat.add_right_comm]
    rfl

theorem prefix_copyBack (distance n : Nat) (out : Array UInt8) :
    out.toList <+: (copyBack distance n out).toList := by
  induction n generalizing out with
  | zero => exact List.prefix_rfl
  | succ n ih =>
    rw [copyBack]
    refine List.IsPrefix.trans ?_ (ih _)
    rw [Array.toList_push]
    exact List.prefix_append _ _

/-! ## Rounds of the decoder -/

/-- What a round of the decoder comes to, with all that is put out by then. -/
inductive Turn
  /-- The block has come to its end. -/
  | ends (out : Array UInt8)
  /-- The rest of the block is to be unpacked behind the output. -/
  | goesOn (block : Bytes) (out : Array UInt8)
  | fails (out : Array UInt8)

def Turn.out : Turn → Array UInt8
  | ends out | goesOn _ out | fails out => out

/-- The bytes that a copy has to leave to literals. -/
def copyMargin (far : Bool) (nibble distance : Nat) : Nat :=
  if far && isPlain nibble distance then 0 else lastLiterals

/-- One round: the first sequence of a block. -/
def turn (size : Nat) : Bytes → Array UInt8 → Turn
  | [], out => .fails out
  | token :: rest, out =>
    let far := token.toNat / 16 ≠ 15 && isFarFromEnds size out rest
    match readLength 0 (token.toNat / 16) rest with
    | none => .fails out
    | some (n, rest) =>
      if !far && (size < out.size + n + outputMargin || rest.isShorter (n + inputMargin)) then
        if rest.length = n ∧ out.size + n ≤ size then .ends (out ++ rest.toArray) else .fails out
      else
        let out := out ++ (rest.take n).toArray
        match Bytes.takeLE? 2 (rest.drop n) with
        | none => .fails out
        | some (distance, rest) =>
          match readLength 4 (token.toNat % 16) rest with
          | none => .fails out
          | some (m, rest) =>
            let margin := copyMargin far (token.toNat % 16) distance
            if out.size < distance || size < out.size + m + minCopy + margin then .fails out
            else .goesOn rest (copyBack distance (m + minCopy) out)

/-- The decoder works in rounds. -/
theorem sequences_succ (size fuel : Nat) (block : Bytes) (out : Array UInt8) :
    sequences size (fuel + 1) block out =
      match turn size block out with
      | .ends result => some result
      | .goesOn rest out => sequences size fuel rest out
      | .fails _ => none := by
  cases block with
  | nil => rfl
  | cons token rest =>
    rw [sequences, turn]
    simp only [bind, Option.bind]
    cases readLength 0 (token.toNat / 16) rest with
    | none => rfl
    | some p =>
      obtain ⟨n, more⟩ := p
      dsimp only
      split
      · split
        · rfl
        · rfl
      · cases Bytes.takeLE? 2 (more.drop n) with
        | none => rfl
        | some p =>
          obtain ⟨distance, after⟩ := p
          dsimp only
          cases readLength 4 (token.toNat % 16) after with
          | none => rfl
          | some p =>
            obtain ⟨m, block⟩ := p
            dsimp only
            rw [← copyMargin]
            split
            · rfl
            · rfl

/-- Whatever a round can come to. Literals and a copy are put out only where there is room. -/
inductive Turned (size : Nat) (block : Bytes) (out : Array UInt8) : Turn → Prop
  | ends {spare : Nat} {bs : Bytes} (hspare : spare < 16) (hblock : block = closing spare bs)
      (hfit : out.size + bs.length ≤ size) : Turned size block out (.ends (out ++ bs.toArray))
  | goesOn {bs rest : Bytes} {distance m : Nat} (hblock : block = opening bs distance m ++ rest)
      (hword : distance ≤ maxDistance) (hreach : distance ≤ out.size + bs.length)
      (hfit : out.size + bs.length + (m + minCopy) ≤ size) :
      Turned size block out
        (.goesOn rest (copyBack distance (m + minCopy) (out ++ bs.toArray)))
  | fails {held : Array UInt8} (hfit : held.size ≤ size) : Turned size block out (.fails held)

theorem token_eq (token : UInt8) :
    token = UInt8.ofNat (token.toNat / 16 * 16 + token.toNat % 16) := by
  rw [Nat.div_add_mod', UInt8.ofNat_toNat]

/-- Near an end it is looked at whether there is room for literals, and far from the ends there are
few of them. -/
theorem literals_fit {size nibble n : Nat} {rest more : Bytes} {out : Array UInt8}
    (hn : nibble = (splitLength n).1)
    (h : ¬ (!(nibble ≠ 15 && isFarFromEnds size out rest) &&
      (size < out.size + n + outputMargin || more.isShorter (n + inputMargin))) = true) :
    out.size + n ≤ size := by
  by_cases hfar : (nibble ≠ 15 && isFarFromEnds size out rest) = true
  · simp only [Bool.and_eq_true, decide_eq_true_eq, isFarFromEnds] at hfar
    have hlt : n < 15 := lt_of_splitLength (hn ▸ hfar.1)
    omega
  · rw [Bool.not_eq_true] at hfar
    simp only [hfar, Bool.not_false, Bool.true_and, Bool.or_eq_true, decide_eq_true_eq,
      not_or] at h
    omega

/-- If a distance and a length stand behind some literals, it is a sequence that was read. -/
theorem eq_opening {token : UInt8} {n m distance : Nat} {more rest : Bytes}
    (hn : token.toNat / 16 = (splitLength n).1) (hm : token.toNat % 16 = (splitLength m).1)
    (h : more.drop n = Bytes.ofNatLE 2 distance ++ ((splitLength m).2 ++ rest)) :
    (more.take n).length = n ∧
      token :: ((splitLength n).2 ++ more) = opening (more.take n) distance m ++ rest := by
  have hlong : n ≤ more.length := by
    have hlength := congrArg List.length h
    simp only [List.length_drop, List.length_append, Bytes.length_ofNatLE] at hlength
    omega
  have hlength : (more.take n).length = n := List.length_take_of_le hlong
  have hmore : more =
      more.take n ++ (Bytes.ofNatLE 2 distance ++ ((splitLength m).2 ++ rest)) := by
    rw [← h, List.take_append_drop]
  refine ⟨hlength, ?_⟩
  rw [opening, hlength, ← hn, ← hm, ← token_eq]
  simp only [List.cons_append, List.append_assoc, ← hmore]

theorem turned {size : Nat} (block : Bytes) {out : Array UInt8} (hout : out.size ≤ size) :
    Turned size block out (turn size block out) := by
  cases block with
  | nil => exact .fails hout
  | cons token rest =>
    have hnibble : token.toNat / 16 < 16 := by
      have := token.toNat_lt
      omega
    have hcopyNibble : token.toNat % 16 < 16 := Nat.mod_lt _ (by decide)
    rw [turn]
    cases hread : readLength 0 (token.toNat / 16) rest with
    | none => exact .fails hout
    | some p =>
      obtain ⟨n, more⟩ := p
      obtain ⟨hn, rfl, -⟩ := (readLength_eq_some_iff hnibble).mp hread
      dsimp only
      split
      · split
        · rename_i hlast
          obtain ⟨rfl, hfit⟩ := hlast
          refine .ends hcopyNibble ?_ hfit
          rw [closing, ← hn, ← token_eq]
        · exact .fails hout
      · rename_i hroom
        have hliterals : out.size + n ≤ size := literals_fit hn hroom
        have htake : (more.take n).length ≤ n := List.length_take_le _ _
        have hheld : (out ++ (more.take n).toArray).size ≤ size := by
          rw [Array.size_append]
          exact Nat.le_trans (Nat.add_le_add_left htake _) hliterals
        cases hdistance : Bytes.takeLE? 2 (more.drop n) with
        | none => exact .fails hheld
        | some p =>
          obtain ⟨distance, after⟩ := p
          obtain ⟨hword, hdrop⟩ := Bytes.takeLE?_eq_some_iff.mp hdistance
          dsimp only
          cases hcopy : readLength 4 (token.toNat % 16) after with
          | none => exact .fails hheld
          | some p =>
            obtain ⟨m, block⟩ := p
            obtain ⟨hm, rfl, -⟩ := (readLength_eq_some_iff hcopyNibble).mp hcopy
            obtain ⟨hlength, hblock⟩ := eq_opening hn hm hdrop
            dsimp only
            split
            · exact .fails hheld
            · rename_i hfit
              simp only [Bool.or_eq_true, decide_eq_true_eq, not_or, Nat.not_lt, Array.size_append,
                List.size_toArray, hlength] at hfit
              obtain ⟨hreach, hroom⟩ := hfit
              refine .goesOn hblock (Nat.le_of_lt_succ hword) ?_ ?_
              · rw [hlength]
                exact hreach
              · rw [hlength]
                omega

/-- Whatever the block, no round puts out more than it may. -/
theorem size_turn_le {size : Nat} (block : Bytes) {out : Array UInt8} (hout : out.size ≤ size) :
    (turn size block out).out.size ≤ size := by
  have hturned := turned block hout
  revert hturned
  generalize turn size block out = t
  intro hturned
  cases hturned with
  | ends hspare hblock hfit =>
    rw [Turn.out, Array.size_append]
    exact hfit
  | goesOn hblock hword hreach hfit =>
    rw [Turn.out, size_copyBack, Array.size_append]
    exact hfit
  | fails hfit => exact hfit

/-- The decoder comes to unpack the rest of a block behind an output. -/
inductive Reaches (size : Nat) (block : Bytes) : Bytes → Array UInt8 → Prop
  | start : Reaches size block block #[]
  | goesOn {rest rest' : Bytes} {out out' : Array UInt8} (h : Reaches size block rest out)
      (hturn : turn size rest out = .goesOn rest' out') : Reaches size block rest' out'

theorem Reaches.size_le {size : Nat} {block rest : Bytes} {out : Array UInt8}
    (h : Reaches size block rest out) : out.size ≤ size := by
  induction h with
  | start => exact Nat.zero_le _
  | @goesOn rest _ out _ _ hturn ih =>
    have hle := size_turn_le rest ih
    rw [hturn] at hle
    exact hle

/-! ## What is unpacked -/

theorem getElem?_of_prefix {xs ys : Array UInt8} (h : xs.toList <+: ys.toList) {i : Nat}
    (hi : i < xs.size) : ys[i]? = xs[i]? := by
  obtain ⟨more, hmore⟩ := h
  rw [← Array.getElem?_toList, ← hmore, List.getElem?_append_left hi, Array.getElem?_toList]

/-- A sequence whose literals and copy were put out is true of all that begins with them. -/
theorem fits_of_prefix {data out : Array UInt8} {bs : Bytes} {distance m : Nat}
    (hword : distance ≤ maxDistance) (hreach : distance ≤ out.size + bs.length)
    (h : (copyBack distance (m + minCopy) (out ++ bs.toArray)).toList <+: data.toList) :
    (Sequence.mk out.size (out.size + bs.length) distance (m + minCopy)).Fits data := by
  have hplace : (out ++ bs.toArray).size = out.size + bs.length := Array.size_append
  have hsize : (copyBack distance (m + minCopy) (out ++ bs.toArray)).size =
      out.size + bs.length + (m + minCopy) := by
    rw [size_copyBack, hplace]
  have hle := h.length_le
  rw [Array.length_toList, Array.length_toList, hsize] at hle
  refine ⟨Nat.le_add_right _ _, Nat.le_add_left _ _, hle, hreach, hword, fun i hi hlt => ?_⟩
  have hi : out.size + bs.length ≤ i := hi
  have hlt : i < out.size + bs.length + (m + minCopy) := hlt
  rw [Sequence.source?, getElem?_of_prefix h (by omega), getElem?_of_prefix h (by omega)]
  exact copyBack_of_le (by omega) (by omega) (by omega)

theorem write_of_prefix {data out : Array UInt8} {bs : Bytes} {distance m : Nat}
    (hfits : (Sequence.mk out.size (out.size + bs.length) distance (m + minCopy)).Fits data)
    (h : (out ++ bs.toArray).toList <+: data.toList) :
    (Sequence.mk out.size (out.size + bs.length) distance (m + minCopy)).write data =
      opening bs distance m := by
  have hliterals : (data.extract out.size (out.size + bs.length)).toList = bs := by
    obtain ⟨more, hmore⟩ := h
    rw [Array.toList_extract, ← hmore]
    simp
  rw [write_eq_opening hfits, hliterals]
  rfl

/-- What is unpacked behind some output is in the format, and no longer than it may be. -/
theorem row_of_sequences {size fuel : Nat} {block : Bytes} {out data : Array UInt8}
    (hout : out.size ≤ size) (h : sequences size fuel block out = some data) :
    out.toList <+: data.toList ∧ data.size ≤ size ∧ Row anyCopy data out.size block := by
  induction fuel generalizing block out with
  | zero => cases h
  | succ fuel ih =>
    rw [sequences_succ] at h
    have hturned := turned block hout
    revert h hturned
    generalize turn size block out = t
    intro h hturned
    cases hturned with
    | fails hfit => cases h
    | @ends spare bs hspare hblock hfit =>
      cases h
      have hsize : (out ++ bs.toArray).size = out.size + bs.length := Array.size_append
      have hrest : ((out ++ bs.toArray).extract out.size (out ++ bs.toArray).size).toList = bs := by
        simp
      refine ⟨?_, ?_, ?_⟩
      · rw [Array.toList_append]
        exact List.prefix_append _ _
      · rw [hsize]
        exact hfit
      · have hrow : Row anyCopy (out ++ bs.toArray) out.size _ :=
          .last (by rw [hsize]; exact Nat.le_add_right _ _) hspare
        rw [hrest] at hrow
        rw [hblock]
        exact hrow
    | @goesOn bs rest distance m hblock hword hreach hfit =>
      have hsize : (copyBack distance (m + minCopy) (out ++ bs.toArray)).size =
          out.size + bs.length + (m + minCopy) := by
        rw [size_copyBack, Array.size_append]
        rfl
      obtain ⟨hbegins, hdata, hrow⟩ := ih (by rw [hsize]; exact hfit) h
      have hliterals := (prefix_copyBack _ _ _).trans hbegins
      have hfits := fits_of_prefix hword hreach hbegins
      refine ⟨?_, hdata, ?_⟩
      · refine List.IsPrefix.trans ?_ hliterals
        rw [Array.toList_append]
        exact List.prefix_append _ _
      · rw [hblock, ← write_of_prefix hfits hliterals]
        refine .copy rfl hfits trivial ?_
        rw [hsize] at hrow
        exact hrow

/-! ## What is read -/

theorem turn_closing {spare : Nat} (hspare : spare < 16) (size : Nat) (bs : Bytes)
    (out : Array UInt8) :
    turn size (closing spare bs) out =
      if out.size + bs.length ≤ size then .ends (out ++ bs.toArray) else .fails out := by
  have htoken := (token_halves (splitLength_lt bs.length) hspare).1
  -- a token that needs nothing to prolong it has few literals, so the block ends soon
  have hnear : ((splitLength bs.length).1 ≠ 15 &&
      isFarFromEnds size out ((splitLength bs.length).2 ++ bs)) = false := by
    by_cases hlong : (splitLength bs.length).1 = 15
    · simp [hlong]
    · have hlt := lt_of_splitLength hlong
      have hshort : Bytes.isShorter 17 ((splitLength bs.length).2 ++ bs) = true := by
        rw [Bytes.isShorter_iff, splitLength, if_pos hlt, List.nil_append]
        omega
      rw [isFarFromEnds, hshort]
      simp
  have hend : Bytes.isShorter (bs.length + inputMargin) bs = true :=
    Bytes.isShorter_iff.mpr (Nat.lt_add_of_pos_right (by decide))
  rw [closing, turn]
  simp only [htoken, readLength_splitLength, hnear, hend, Bool.not_false, Bool.or_true,
    Bool.and_true, if_true, true_and]

theorem readLength_zero {margin nibble : Nat} {bs rest : Bytes} {n : Nat} (hnibble : nibble < 16)
    (h : readLength margin nibble bs = some (n, rest)) :
    readLength 0 nibble bs = some (n, rest) := by
  obtain ⟨hn, hbs, -⟩ := (readLength_eq_some_iff hnibble).mp h
  exact (readLength_eq_some_iff hnibble).mpr ⟨hn, hbs, fun _ => Nat.zero_le _⟩

/-- What is written for a length is read, if it is not prolonged too near to the end. -/
theorem readLength_written (margin n : Nat) (rest : Bytes) :
    readLength margin (splitLength n).1 ((splitLength n).2 ++ rest) =
      if (splitLength n).1 = 15 → margin ≤ rest.length then some (n, rest) else none := by
  split
  · rename_i hmargin
    exact (readLength_eq_some_iff (splitLength_lt n)).mpr ⟨rfl, rfl, hmargin⟩
  · rename_i hmargin
    rw [Option.eq_none_iff_forall_not_mem]
    rintro ⟨n', rest'⟩ hread
    -- there is one way only to read a length, and it leaves too little here
    obtain ⟨-, -, hroom⟩ := (readLength_eq_some_iff (splitLength_lt n)).mp hread
    have hzero := readLength_zero (splitLength_lt n) hread
    rw [readLength_splitLength] at hzero
    cases hzero
    exact hmargin hroom

theorem opening_append (bs : Bytes) (distance m : Nat) (rest : Bytes) :
    opening bs distance m ++ rest =
      UInt8.ofNat ((splitLength bs.length).1 * 16 + (splitLength m).1) ::
        ((splitLength bs.length).2 ++
          (bs ++ (Bytes.ofNatLE 2 distance ++ ((splitLength m).2 ++ rest)))) := by
  simp [opening]

theorem takeLE?_distance {distance : Nat} (hword : distance ≤ maxDistance) (rest : Bytes) :
    Bytes.takeLE? 2 (Bytes.ofNatLE 2 distance ++ rest) = some (distance, rest) :=
  Bytes.takeLE?_eq_some_iff.mpr ⟨Nat.lt_succ_of_le hword, rfl⟩

/-- The distance of the first copy stands behind the literals. -/
theorem distance_of_opening {bs rest tail more : Bytes} {distance m n : Nat} {token : UInt8}
    (hword : distance ≤ maxDistance) (h : opening bs distance m ++ rest = token :: tail)
    (hread : readLength 0 (token.toNat / 16) tail = some (n, more)) :
    Bytes.takeLE? 2 (more.drop n) = some (distance, (splitLength m).2 ++ rest) := by
  rw [opening_append] at h
  obtain ⟨rfl, rfl⟩ := List.cons.inj h
  rw [(token_halves (splitLength_lt _) (splitLength_lt m)).1, readLength_splitLength] at hread
  cases hread
  rw [List.drop_left, takeLE?_distance hword]

/-- If a block goes on behind its first literals, a copy stands there. -/
theorem Row.exists_copy {rule : Sequence → Nat → Prop} {data : Array UInt8} {start n : Nat}
    {token : UInt8} {tail more : Bytes} (h : Row rule data start (token :: tail))
    (hread : readLength 0 (token.toNat / 16) tail = some (n, more)) (hlong : more.length ≠ n) :
    ∃ q m rest, rule q data.size ∧ Row rule data q.stop rest ∧
      Bytes.takeLE? 2 (more.drop n) = some (q.distance, (splitLength m).2 ++ rest) := by
  generalize hblock : token :: tail = block at h
  cases h with
  | last hstart hspare =>
    rw [closing] at hblock
    obtain ⟨rfl, rfl⟩ := List.cons.inj hblock
    rw [(token_halves (splitLength_lt _) hspare).1, readLength_splitLength] at hread
    cases hread
    exact absurd rfl hlong
  | copy hstart hq hrule hrest =>
    rw [write_eq_opening hq] at hblock
    exact ⟨_, _, _, hrule, hrest, distance_of_opening hq.distance_le_max hblock.symm hread⟩

/-- A round at a sequence with a copy. How far from the ends it is decides what is looked at. -/
theorem turn_opening {distance : Nat} (hword : distance ≤ maxDistance) (size : Nat) (bs : Bytes)
    (m : Nat) (rest : Bytes) (out : Array UInt8) :
    ∃ far : Bool, turn size (opening bs distance m ++ rest) out =
      if !far && (size < out.size + bs.length + outputMargin ||
          (bs ++ (Bytes.ofNatLE 2 distance ++ ((splitLength m).2 ++ rest))).isShorter
            (bs.length + inputMargin)) then .fails out
      else if ((splitLength m).1 = 15 → 4 ≤ rest.length) ∧ distance ≤ out.size + bs.length ∧
          out.size + bs.length + (m + minCopy) + copyMargin far (splitLength m).1 distance ≤ size
        then
        .goesOn rest (copyBack distance (m + minCopy) (out ++ bs.toArray))
      else .fails (out ++ bs.toArray) := by
  obtain ⟨hnibble, hcopyNibble⟩ := token_halves (splitLength_lt bs.length) (splitLength_lt m)
  have hlong : ¬ (bs ++ (Bytes.ofNatLE 2 distance ++ ((splitLength m).2 ++ rest))).length =
      bs.length := by
    simp only [List.length_append, Bytes.length_ofNatLE]
    omega
  have hsize : (out ++ bs.toArray).size = out.size + bs.length := Array.size_append
  refine ⟨(splitLength bs.length).1 ≠ 15 && isFarFromEnds size out ((splitLength bs.length).2 ++
    (bs ++ (Bytes.ofNatLE 2 distance ++ ((splitLength m).2 ++ rest)))), ?_⟩
  rw [opening_append, turn]
  simp only [hnibble, hcopyNibble, readLength_splitLength, hlong, false_and, if_false,
    List.take_left, List.drop_left, takeLE?_distance hword, hsize]
  rw [readLength_written]
  congr 1
  by_cases hmargin : (splitLength m).1 = 15 → 4 ≤ rest.length
  · rw [if_pos hmargin]
    dsimp only
    generalize copyMargin _ _ _ = margin
    by_cases hfit : distance ≤ out.size + bs.length ∧
        out.size + bs.length + (m + minCopy) + margin ≤ size
    · have hroom : ¬ (decide (out.size + bs.length < distance) ||
          decide (size < out.size + bs.length + m + minCopy + margin)) = true := by
        simp only [Bool.or_eq_true, decide_eq_true_eq]
        omega
      rw [if_neg hroom, if_pos ⟨hmargin, hfit⟩]
    · have hroom : (decide (out.size + bs.length < distance) ||
          decide (size < out.size + bs.length + m + minCopy + margin)) = true := by
        simp only [Bool.or_eq_true, decide_eq_true_eq]
        omega
      rw [if_pos hroom, if_neg fun h => hfit h.2]
  · rw [if_neg hmargin, if_neg fun h => hmargin h.1]

theorem size_front {data : Array UInt8} {start : Nat} (h : start ≤ data.size) :
    (data.extract 0 start).size = start := by
  rw [Array.size_extract, Nat.min_eq_left h, Nat.sub_zero]

theorem front_append {data : Array UInt8} {start stop : Nat} (h : start ≤ stop) :
    data.extract 0 start ++ (data.extract start stop).toList.toArray = data.extract 0 stop := by
  rw [Array.toArray_toList, Array.extract_append_extract, Nat.zero_min, Nat.max_eq_right h]

/-- What the copy of a true sequence puts out is what the data has there. -/
theorem copyBack_of_fits {data : Array UInt8} {q : Sequence} (hq : q.Fits data) :
    copyBack q.distance (q.length - minCopy + minCopy)
        (data.extract 0 q.start ++ (data.extract q.start q.place).toList.toArray) =
      data.extract 0 q.stop := by
  rw [front_append hq.start_le, Nat.sub_add_cancel hq.minCopy_le]
  exact copyBack_extract hq.distance_le hq.stop_le hq.copied

/-- A round on a block that stands for what is to come behind the front of some data. -/
theorem Row.turn_cases {rule : Sequence → Nat → Prop} {data : Array UInt8} {start : Nat}
    {block : Bytes} (h : Row rule data start block) (size : Nat) :
    (∃ held, turn size block (data.extract 0 start) = .fails held) ∨
      turn size block (data.extract 0 start) = .ends data ∨
      ∃ stop rest, turn size block (data.extract 0 start) = .goesOn rest (data.extract 0 stop) ∧
        Row rule data stop rest ∧ rest.length < block.length := by
  cases h with
  | last hstart hspare =>
    rw [turn_closing hspare, front_append hstart, Array.extract_eq_self_of_le (Nat.le_refl _)]
    split
    · exact .inr (.inl rfl)
    · exact .inl ⟨_, rfl⟩
  | @copy _ q rest hstart hq hrule hrest =>
    subst hstart
    obtain ⟨far, hturn⟩ := turn_opening hq.distance_le_max size
      (data.extract q.start q.place).toList (q.length - minCopy) rest (data.extract 0 q.start)
    have hlength : rest.length < (q.write data ++ rest).length := by
      rw [write_eq_opening hq, opening]
      simp only [List.length_append, List.length_cons]
      omega
    rw [write_eq_opening hq, hturn, copyBack_of_fits hq, ← write_eq_opening hq]
    split
    · exact .inl ⟨_, rfl⟩
    · split
      · exact .inr (.inr ⟨q.stop, rest, rfl, hrest, hlength⟩)
      · exact .inl ⟨_, rfl⟩

/-- If a block is unpacked behind the front of some data, for which it stands, the data come out. -/
theorem Row.eq_of_sequences {rule : Sequence → Nat → Prop} {size fuel : Nat} {block : Bytes}
    {data result : Array UInt8} {start : Nat} (hrow : Row rule data start block)
    (h : sequences size fuel block (data.extract 0 start) = some result) : result = data := by
  induction fuel generalizing start block with
  | zero => cases h
  | succ fuel ih =>
    rw [sequences_succ] at h
    rcases hrow.turn_cases size with ⟨held, hturn⟩ | hturn | ⟨stop, rest, hturn, hrest, -⟩
    · rw [hturn] at h
      cases h
    · rw [hturn] at h
      exact (Option.some.inj h).symm
    · rw [hturn] at h
      exact ih hrest h

/-! ## Blocks that keep the rules for their end -/

/-- Where a copy has to leave literals, a token and these come behind it. -/
theorem Row.length_of_keepsEnds {data : Array UInt8} {start : Nat} {block : Bytes}
    (h : Row Sequence.KeepsEnds data start block) (hroom : start + lastLiterals ≤ data.size) :
    lastLiterals < block.length := by
  induction h with
  | last hstart hspare =>
    rw [closing, List.length_cons, List.length_append, Array.length_toList, Array.size_extract,
      Nat.min_self]
    omega
  | copy hstart hq hrule hrest ih =>
    have := ih hrule.2.2
    rw [List.length_append]
    omega

theorem Row.turn_ne_fails {data : Array UInt8} {start : Nat} {block : Bytes}
    (h : Row Sequence.KeepsEnds data start block) {size : Nat} (hsize : data.size ≤ size)
    (held : Array UInt8) : turn size block (data.extract 0 start) ≠ .fails held := by
  cases h with
  | last hstart hspare =>
    have hfit :
        (data.extract 0 start).size + (data.extract start data.size).toList.length ≤ size := by
      rw [size_front hstart, Array.length_toList, Array.size_extract, Nat.min_self]
      omega
    rw [turn_closing hspare, if_pos hfit]
    exact nofun
  | @copy _ q rest hstart hq hrule hrest =>
    subst hstart
    obtain ⟨far, hturn⟩ := turn_opening hq.distance_le_max size
      (data.extract q.start q.place).toList (q.length - minCopy) rest (data.extract 0 q.start)
    obtain ⟨-, hplace, hstop⟩ := hrule
    have hlength := hrest.length_of_keepsEnds hstop
    have hlits := length_literals hq
    have hstart := hq.start_le
    have hfront : (data.extract 0 q.start).size = q.start := size_front (by omega)
    have hmargin :
        copyMargin far (splitLength (q.length - minCopy)).1 q.distance ≤ lastLiterals := by
      unfold copyMargin
      split
      · exact Nat.zero_le _
      · exact Nat.le_refl _
    have hmin := hq.minCopy_le
    have hreach := hq.distance_le
    have hend : q.place + q.length + 5 ≤ data.size := hstop
    have hrest : 5 < rest.length := hlength
    have hnear : ¬ (!far && (decide (size < (data.extract 0 q.start).size +
        (data.extract q.start q.place).toList.length + outputMargin) ||
        Bytes.isShorter ((data.extract q.start q.place).toList.length + inputMargin)
          ((data.extract q.start q.place).toList ++ (Bytes.ofNatLE 2 q.distance ++
            ((splitLength (q.length - minCopy)).2 ++ rest))))) = true := by
      simp only [Bool.and_eq_true, Bool.or_eq_true, decide_eq_true_eq, Bytes.isShorter_iff,
        List.length_append, Bytes.length_ofNatLE, hlits, hfront, inputMargin]
      omega
    rw [write_eq_opening hq, hturn, if_neg hnear, if_pos]
    · exact nofun
    · rw [hlits, hfront, Nat.sub_add_cancel hmin]
      refine ⟨fun _ => by omega, by omega, ?_⟩
      have : lastLiterals = 5 := rfl
      omega

theorem sequences_of_row {data : Array UInt8} {start : Nat} {block : Bytes}
    (h : Row Sequence.KeepsEnds data start block) {size fuel : Nat} (hsize : data.size ≤ size)
    (hfuel : block.length < fuel) :
    sequences size fuel block (data.extract 0 start) = some data := by
  induction fuel generalizing start block with
  | zero => cases hfuel
  | succ fuel ih =>
    rw [sequences_succ]
    rcases h.turn_cases size with ⟨held, hturn⟩ | hturn | ⟨stop, rest, hturn, hrest, hlength⟩
    · exact absurd hturn (h.turn_ne_fails hsize held)
    · rw [hturn]
    · rw [hturn]
      exact ih hrest (by omega)

/-! ## Blocks -/

theorem sequences_of_decode? {size : Nat} {block out : Bytes} (h : decode? size block = some out) :
    ∃ size' fuel, sequences size' fuel block #[] = some out.toArray ∧
      (size' = size ∨ out = []) := by
  unfold decode? at h
  by_cases hsize : size = 0
  · rw [if_pos hsize] at h
    by_cases hblock : block = [0]
    · rw [if_pos hblock] at h
      cases h
      exact ⟨0, 1, by rw [hblock]; rfl, .inr rfl⟩
    · rw [if_neg hblock] at h
      cases h
  · rw [if_neg hsize] at h
    obtain ⟨data, hdata, rfl⟩ := Option.map_eq_some_iff.mp h
    exact ⟨size, _, hdata, .inl rfl⟩

/-- What is unpacked is what the block unpacks to, and it unpacks to nothing else. -/
theorem unpacks_of_decode? {size : Nat} {block out : Bytes} (h : decode? size block = some out) :
    Unpacks anyCopy block out ∧ out.length ≤ size ∧
      ∀ rule other, Unpacks rule block other → other = out := by
  obtain ⟨size', fuel, hout, hsize⟩ := sequences_of_decode? h
  obtain ⟨-, hle, hrow⟩ := row_of_sequences (Nat.zero_le size') hout
  refine ⟨hrow, ?_, ?_⟩
  · rcases hsize with rfl | rfl
    · exact hle
    · exact Nat.zero_le _
  · intro rule other hother
    have hfront : other.toArray.extract 0 0 = #[] := Array.extract_zero
    rw [← hfront] at hout
    exact congrArg Array.toList (hother.eq_of_sequences hout).symm

/-- A block that keeps the rules for its end is unpacked. Nothing at all has one block only. -/
theorem decode?_of_unpacks {size : Nat} {block out : Bytes}
    (h : Unpacks Sequence.KeepsEnds block out) (hout : out.length ≤ size)
    (hempty : size = 0 → block = [0]) : decode? size block = some out := by
  have hsize : out.toArray.size ≤ size := hout
  have hrow := sequences_of_row h hsize (Nat.lt_succ_self block.length)
  rw [Array.extract_zero] at hrow
  unfold decode?
  by_cases hzero : size = 0
  · have hnil : out = [] := List.eq_nil_of_length_eq_zero (by omega)
    rw [if_pos hzero, if_pos (hempty hzero), hnil]
  · rw [if_neg hzero, hrow]
    rfl

end Lz4

end Parley
