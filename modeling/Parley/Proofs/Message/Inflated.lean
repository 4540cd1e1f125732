import Parley.Proofs.Message.Canonical
import Parley.Proofs.Wire.Blocks

/-!
# No frame is inflated beyond its limit

Whatever a compressed payload consists of, its size is looked at first, and its block puts out no
more than that. What comes out is what the block unpacks to.

- `Compressed.Outcome`: what becomes of a payload, said of its size and its block.
- `Message.WorksOn`: the inflated bytes that are held while a frame is read.
- `Message.inflated_within_limit`: what is inflated, what is refused and why, and how much a frame
  can make its reader hold.
- `Message.malformed_blocks_inflated`: blocks that the format does not have are inflated.
-/

namespace Parley

namespace Compressed

/-! ## Sizes -/

/-- Without a size, or with a negative one, a payload is malformed. -/
theorem decompress_of_not_announces {bs : Bytes} (h : ∀ size block, ¬ Announces bs size block)
    (limit : Nat) : ∃ flaw, decompress limit bs = .error (.malformedFrame flaw) := by
  unfold decompress
  cases hread : Bytes.takeLE? 4 bs with
  | none => exact ⟨_, rfl⟩
  | some p =>
    obtain ⟨word, block⟩ := p
    obtain ⟨hword, hbs⟩ := Bytes.takeLE?_eq_some_iff.mp hread
    have hlarge : ¬ word < 2147483648 := fun hlt => h word block ⟨hbs, hlt⟩
    have hnegative : signed32 word < 0 := by
      have hword : word < 4294967296 := hword
      rw [signed32, if_neg hlarge]
      omega
    exact ⟨.negativeSize (signed32 word), if_pos hnegative⟩

/-- Whatever decompression can come to. -/
inductive Outcome (limit : Nat) (bs : Bytes) : Except Error Bytes → Prop
  /-- There is no size, or a negative one. -/
  | unsized (h : ∀ size block, ¬ Announces bs size block) (flaw : FrameFlaw) :
      Outcome limit bs (.error (.malformedFrame flaw))
  | tooLarge {size : Nat} {block : Bytes} (h : Announces bs size block) (hsize : limit < size) :
      Outcome limit bs (.error (.frameTooLarge size limit))
  /-- The size is let pass, and the block is not. -/
  | malformed {size : Nat} {block : Bytes} (h : Announces bs size block) (hsize : size ≤ limit)
      (hblock : size ≤ sizeLimit → Lz4.decode? size block = none) (flaw : FrameFlaw) :
      Outcome limit bs (.error (.malformedFrame flaw))
  | inflated {size : Nat} {block out : Bytes} (h : Announces bs size block) (hsize : size ≤ limit)
      (hblock : Lz4.decode? size block = some out) : Outcome limit bs (.ok out)

theorem outcome (limit : Nat) (bs : Bytes) : Outcome limit bs (decompress limit bs) := by
  by_cases h : ∃ size block, Announces bs size block
  · obtain ⟨size, block, h⟩ := h
    rw [decompress_of_announces h]
    by_cases hsize : limit < size
    · rw [if_pos hsize]
      exact .tooLarge h hsize
    · rw [if_neg hsize]
      by_cases hhuge : sizeLimit < size
      · rw [if_pos hhuge]
        exact .malformed h (Nat.not_lt.mp hsize) (fun hle => absurd hhuge (Nat.not_lt.mpr hle)) _
      · rw [if_neg hhuge]
        cases hblock : Lz4.decode? size block with
        | none => exact .malformed h (Nat.not_lt.mp hsize) (fun _ => hblock) _
        | some out => exact .inflated h (Nat.not_lt.mp hsize) hblock
  · have hnone : ∀ size block, ¬ Announces bs size block :=
      fun size block hbs => h ⟨size, block, hbs⟩
    obtain ⟨flaw, hflaw⟩ := decompress_of_not_announces hnone limit
    rw [hflaw]
    exact .unsized hnone flaw

theorem inflated_of_ok {limit : Nat} {bs out : Bytes} (h : decompress limit bs = .ok out) :
    ∃ size block, Announces bs size block ∧ size ≤ limit ∧ Lz4.decode? size block = some out := by
  have houtcome := outcome limit bs
  rw [h] at houtcome
  cases houtcome with
  | inflated hbs hsize hblock => exact ⟨_, _, hbs, hsize, hblock⟩

theorem decompress_tooLarge_iff {limit size most : Nat} {bs : Bytes} :
    decompress limit bs = .error (.frameTooLarge size most) ↔
      most = limit ∧ limit < size ∧ ∃ block, Announces bs size block := by
  constructor
  · intro h
    have houtcome := outcome limit bs
    rw [h] at houtcome
    cases houtcome with
    | tooLarge hbs hsize => exact ⟨rfl, hsize, _, hbs⟩
  · rintro ⟨rfl, hsize, block, hbs⟩
    rw [decompress_of_announces hbs, if_pos hsize]

end Compressed

namespace Message

/-! ## Frames -/

/-- The inflated bytes that are held at some time while a frame is read: those that are put out by
then, and in the end those that are read as a message. -/
inductive WorksOn (f : Features) (limit : Nat) (frame : Frame) : Bytes → Prop
  /-- The size was let pass. -/
  | inflating {size : Nat} {block rest : Bytes} {out : Array UInt8} (hlz4 : f.lz4 = true)
      (h : Compressed.Announces frame.payload size block)
      (hpass : Compressed.decompress limit frame.payload ≠ .error (.frameTooLarge size limit))
      (hreach : Lz4.Reaches size block rest out) :
      WorksOn f limit frame (Lz4.turn size rest out).out.toList
  | inflated {payload : Bytes} (h : plainPayload f limit frame = .ok payload) :
      WorksOn f limit frame payload

theorem plainPayload_of_compressed {frame : Frame} (h : frame.isCompressed = true) {f : Features}
    {limit : Nat} {payload : Bytes} (hok : plainPayload f limit frame = .ok payload) :
    Compressed.decompress limit frame.payload = .ok payload := by
  rw [plainPayload, if_pos h] at hok
  by_cases hlz4 : f.lz4 = true
  · rw [if_pos hlz4] at hok
    exact hok
  · rw [if_neg hlz4] at hok
    cases hok

theorem WorksOn.length_le {f : Features} {limit : Nat} {frame : Frame} {bytes : Bytes}
    (h : WorksOn f limit frame bytes) (hcompressed : frame.isCompressed = true) :
    bytes.length ≤ limit := by
  cases h with
  | @inflating size block rest out hlz4 hbs hpass hreach =>
    have hsize : ¬ limit < size := fun hlt =>
      hpass (Compressed.decompress_tooLarge_iff.mpr ⟨rfl, hlt, block, hbs⟩)
    have hout : (Lz4.turn size rest out).out.size ≤ size := Lz4.size_turn_le rest hreach.size_le
    rw [Array.length_toList]
    omega
  | inflated hok =>
    obtain ⟨size, block, -, hsize, hblock⟩ :=
      Compressed.inflated_of_ok (plainPayload_of_compressed hcompressed hok)
    obtain ⟨-, hlength, -⟩ := Lz4.unpacks_of_decode? hblock
    exact Nat.le_trans hlength hsize

/-- A frame is read as one that holds the payload as it was before compression. -/
theorem ofFrame_of_plainPayload {f : Features} {limit : Nat} {frame : Frame} {payload : Bytes}
    (h : plainPayload f limit frame = .ok payload) (e : Encoding) :
    ofFrame f e limit frame = ofFrame f e limit ⟨frame.kind, 0, payload⟩ := by
  unfold ofFrame
  rw [h, plainPayload_plain]

theorem ofFrame_of_plainPayload_error {f : Features} {limit : Nat} {frame : Frame} {err : Error}
    (h : plainPayload f limit frame = .error err) (e : Encoding) :
    ∃ err, ofFrame f e limit frame = .error err := by
  unfold ofFrame
  rw [h]
  cases MessageKind.ofCode? frame.kind with
  | none => exact ⟨_, rfl⟩
  | some kind => exact ⟨_, rfl⟩

/-- A payload is inflated only if the size in front of it is not negative and within the limit, and
its block is a row of sequences that unpacks to no more than this size. What comes out is what the
block unpacks to, and it unpacks to nothing else. A copy at a distance of zero is let pass and puts
out zeros, and a block that ends in a copy may be let pass, too. A payload is too large exactly if
its size is, and every other one that is refused is malformed. All blocks of the format are
inflated. No compressed frame makes its reader hold more inflated bytes than the limit. -/
theorem inflated_within_limit (limit : Nat) (bs : Bytes) :
    (∀ out, Compressed.decompress limit bs = .ok out →
      ∃ size block, Compressed.Announces bs size block ∧ size ≤ limit ∧ out.length ≤ size ∧
        Lz4.Unpacks Lz4.anyCopy block out ∧
        ∀ rule other, Lz4.Unpacks rule block other → other = out) ∧
    (∀ size most, Compressed.decompress limit bs = .error (.frameTooLarge size most) ↔
      most = limit ∧ limit < size ∧ ∃ block, Compressed.Announces bs size block) ∧
    (∀ err, Compressed.decompress limit bs = .error err →
      (∃ size, err = .frameTooLarge size limit) ∨ ∃ flaw, err = .malformedFrame flaw) ∧
    (∀ size block out, Compressed.Announces bs size block →
      Lz4.Unpacks Lz4.Sequence.KeepsEnds block out → out.length ≤ size → (size = 0 → block = [0]) →
      size ≤ limit → size ≤ Compressed.sizeLimit → Compressed.decompress limit bs = .ok out) ∧
    ∀ f frame, frame.isCompressed = true → frame.payload = bs →
      (∀ bytes, WorksOn f limit frame bytes → bytes.length ≤ limit) ∧
      ∀ e, (∃ payload, WorksOn f limit frame payload ∧
          ofFrame f e limit frame = ofFrame f e limit ⟨frame.kind, 0, payload⟩) ∨
        ∃ err, plainPayload f limit frame = .error err ∧
          ∃ err', ofFrame f e limit frame = .error err' := by
  refine ⟨?_, fun size most => Compressed.decompress_tooLarge_iff, ?_, ?_, ?_⟩
  · intro out hok
    obtain ⟨size, block, hbs, hsize, hblock⟩ := Compressed.inflated_of_ok hok
    obtain ⟨hunpacks, hlength, honly⟩ := Lz4.unpacks_of_decode? hblock
    exact ⟨size, block, hbs, hsize, hlength, hunpacks, honly⟩
  · intro err herr
    have houtcome := Compressed.outcome limit bs
    rw [herr] at houtcome
    cases houtcome with
    | unsized h flaw => exact .inr ⟨flaw, rfl⟩
    | tooLarge h hsize => exact .inl ⟨_, rfl⟩
    | malformed h hsize hblock flaw => exact .inr ⟨flaw, rfl⟩
  · intro size block out hbs hunpacks hlength hempty hsize hformat
    rw [Compressed.decompress_of_announces hbs, if_neg (Nat.not_lt.mpr hsize),
      if_neg (Nat.not_lt.mpr hformat), Lz4.decode?_of_unpacks hunpacks hlength hempty,
      Option.elim_some]
  · rintro f frame hcompressed -
    refine ⟨fun bytes hbytes => hbytes.length_le hcompressed, fun e => ?_⟩
    cases hplain : plainPayload f limit frame with
    | ok payload => exact .inl ⟨payload, .inflated hplain, ofFrame_of_plainPayload hplain e⟩
    | error err => exact .inr ⟨err, rfl, ofFrame_of_plainPayload_error hplain e⟩

/-- A literal, a copy that goes on from it for twenty-four bytes, and five literals. -/
def overlap : Bytes :=
  [31, 97, 1, 0, 5, 80, 116, 97, 105, 108, 115]

def overlapData : Bytes :=
  List.replicate 25 97 ++ [116, 97, 105, 108, 115]

theorem unpacks_overlap : Lz4.Unpacks Lz4.Sequence.KeepsEnds overlap overlapData := by
  have hcopied : ∀ i < 25, 1 ≤ i → overlapData.toArray[i]? = overlapData.toArray[i - 1]? := by
    decide
  have hfits : (Lz4.Sequence.mk 0 1 1 24).Fits overlapData.toArray :=
    ⟨by decide, by decide, by decide, by decide, by decide, fun i hi hlt => hcopied i hlt hi⟩
  have hlast : Lz4.Row Lz4.Sequence.KeepsEnds overlapData.toArray 25
      (Lz4.closing 0 (overlapData.toArray.extract 25 30).toList) :=
    .last (by decide) (by decide)
  exact .copy rfl hfits ⟨by decide, by decide, by decide⟩ hlast

/-- The block in a frame, behind its size. -/
def overlapFrame : Frame :=
  ⟨5, Frame.compressedFlag, Bytes.ofNatLE 4 30 ++ overlap⟩

/-- The limit may be the size itself, and no less. -/
theorem overlap_within_limit :
    Compressed.Announces overlapFrame.payload 30 overlap ∧
    Lz4.Unpacks Lz4.Sequence.KeepsEnds overlap overlapData ∧
    overlapFrame.isCompressed = true ∧
    Compressed.decompress 30 overlapFrame.payload = .ok overlapData ∧
    Compressed.decompress 29 overlapFrame.payload = .error (.frameTooLarge 30 29) ∧
    WorksOn .full 30 overlapFrame overlapData ∧
    ∀ bytes, WorksOn .full 30 overlapFrame bytes → bytes.length ≤ 30 := by
  have hannounces : Compressed.Announces overlapFrame.payload 30 overlap := ⟨rfl, by decide⟩
  have hcompressed : overlapFrame.isCompressed = true := by decide
  obtain ⟨-, -, -, hinflated, hframes⟩ := inflated_within_limit 30 overlapFrame.payload
  obtain ⟨-, htooLarge, -⟩ := inflated_within_limit 29 overlapFrame.payload
  have hok : Compressed.decompress 30 overlapFrame.payload = .ok overlapData :=
    hinflated 30 overlap overlapData hannounces unpacks_overlap (by decide) nofun (by decide)
      (by decide)
  refine ⟨hannounces, unpacks_overlap, hcompressed, hok, ?_, .inflated ?_, ?_⟩
  · exact (htooLarge 30 29).mpr ⟨rfl, by decide, overlap, hannounces⟩
  · rw [plainPayload, if_pos hcompressed]
    exact hok
  · exact (hframes .full overlapFrame hcompressed rfl).1

/-! ## Blocks that the format does not have -/

/-- Nine literals, twelve bytes as a copy at no distance, and eight literals. -/
def blankCopy : Bytes :=
  [152, 0, 7, 14, 21, 28, 35, 42, 49, 56, 0, 0, 128, 0, 7, 14, 21, 28, 35, 42, 49]

theorem not_unpacks_blankCopy (out : Bytes) :
    ¬ Lz4.Unpacks Lz4.Sequence.LooksBack blankCopy out := by
  intro h
  obtain ⟨q, m, rest, hrule, -, hcopy⟩ := Lz4.Row.exists_copy h rfl (by decide)
  have hzero : 0 = q.distance := congrArg Prod.fst (Option.some.inj hcopy)
  exact absurd hzero (Nat.ne_of_lt hrule)

/-- Fourteen literals and eighteen bytes as a copy, with no literals behind it. -/
def copyToEnd : Bytes :=
  [238, 0, 7, 14, 21, 28, 35, 42, 49, 56, 63, 70, 77, 84, 91, 14, 0, 0]

theorem not_unpacks_copyToEnd (out : Bytes) :
    ¬ Lz4.Unpacks Lz4.Sequence.KeepsEnds copyToEnd out := by
  intro h
  obtain ⟨q, m, rest, hrule, hrest, hcopy⟩ := Lz4.Row.exists_copy h rfl (by decide)
  have hbehind : [0] = (Lz4.splitLength m).2 ++ rest := congrArg Prod.snd (Option.some.inj hcopy)
  have hlength := congrArg List.length hbehind
  have hroom : 5 < rest.length := hrest.length_of_keepsEnds hrule.2.2
  rw [List.length_singleton, List.length_append] at hlength
  omega

/-- The format has no such blocks, and they are inflated all the same. -/
theorem malformed_blocks_inflated :
    (Compressed.Announces (Bytes.ofNatLE 4 40 ++ blankCopy) 40 blankCopy ∧
      Compressed.decompress 1048576 (Bytes.ofNatLE 4 40 ++ blankCopy) =
        .ok ([0, 7, 14, 21, 28, 35, 42, 49, 56] ++ List.replicate 12 0 ++
          [0, 7, 14, 21, 28, 35, 42, 49]) ∧
      ∀ out, ¬ Lz4.Unpacks Lz4.Sequence.LooksBack blankCopy out) ∧
    (Compressed.Announces (Bytes.ofNatLE 4 32 ++ copyToEnd) 32 copyToEnd ∧
      Compressed.decompress 1048576 (Bytes.ofNatLE 4 32 ++ copyToEnd) =
        .ok ([0, 7, 14, 21, 28, 35, 42, 49, 56, 63, 70, 77, 84, 91] ++
          [0, 7, 14, 21, 28, 35, 42, 49, 56, 63, 70, 77, 84, 91] ++ [0, 7, 14, 21]) ∧
      ∀ out, ¬ Lz4.Unpacks Lz4.Sequence.KeepsEnds copyToEnd out) :=
  ⟨⟨⟨rfl, by decide⟩, rfl, not_unpacks_blankCopy⟩, ⟨rfl, by decide⟩, rfl, not_unpacks_copyToEnd⟩

end Message

end Parley
