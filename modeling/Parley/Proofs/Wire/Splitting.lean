import Parley.Wire.Frame

/-!
# Frames do not depend on how their bytes arrive

A decoder is fed pieces of a byte string and asked for frames in between, in any order. The bytes may
be anything: they need not be frames, and a length in them may be above the limit.

- `FrameDecoder.front`: everything that `next` can do, with what is in the buffer then.
- `FrameDecoder.Draining`: taking out frames until none is left or an error comes, as a relation;
  `FrameDecoder.drain_eq_iff` says that `drain` is all of it.
- `FrameDecoder.Draining.extend`: what comes later is taken out later.
- `FrameDecoder.splits_alike`: what was taken out and what is still there are the bytes that were fed,
  and what is taken out in the end is what one piece would have given.
-/

namespace Parley

/-! ## Words -/

namespace Bytes

/-- A word is written as it was read. -/
theorem ofNatLE_toNatLE (word : Bytes) : ofNatLE word.length (toNatLE word) = word := by
  induction word with
  | nil => rfl
  | cons b rest ih =>
    have hlow : UInt8.ofNat (b.toNat + 256 * toNatLE rest) = b := by
      apply UInt8.toNat_inj.mp
      have hb := b.toNat_lt
      rw [UInt8.toNat_ofNat']
      omega
    have hhigh : (b.toNat + 256 * toNatLE rest) / 256 = toNatLE rest := by
      have hb := b.toNat_lt
      omega
    rw [toNatLE, List.length_cons, ofNatLE, hlow, hhigh, ih]

theorem toNatLE_lt (word : Bytes) : toNatLE word < wordCount word.length := by
  induction word with
  | nil => exact Nat.zero_lt_one
  | cons b rest ih =>
    have hb := b.toNat_lt
    rw [toNatLE, List.length_cons, wordCount]
    omega

theorem eq_append_of_split? {n : Nat} {bs front rest : Bytes}
    (h : split? n bs = some (front, rest)) : bs = front ++ rest ∧ front.length = n := by
  unfold split? at h
  split at h
  · cases h
  · rename_i hlong
    rw [isShorter_iff] at hlong
    cases h
    refine ⟨(List.take_append_drop n bs).symm, ?_⟩
    rw [List.length_take]
    omega

/-- A word is read from its bytes, and from nothing else. -/
theorem takeLE?_eq_some_iff {width n : Nat} {bs rest : Bytes} :
    takeLE? width bs = some (n, rest) ↔ n < wordCount width ∧ bs = ofNatLE width n ++ rest := by
  constructor
  · intro h
    obtain ⟨⟨word, tail⟩, hsplit, heq⟩ := Option.map_eq_some_iff.mp h
    cases heq
    obtain ⟨rfl, rfl⟩ := eq_append_of_split? hsplit
    exact ⟨toNatLE_lt word, by rw [ofNatLE_toNatLE]⟩
  · rintro ⟨hlt, rfl⟩
    rw [takeLE?_ofNatLE_append, Nat.mod_eq_of_lt hlt]

end Bytes

namespace FrameDecoder

/-! ## What `next` can do -/

/-- Whatever `next` can find in the buffer. -/
inductive Front (d : FrameDecoder) : Except Error (Option (Frame × FrameDecoder)) → Prop
  /-- The header has not come whole. -/
  | short (h : d.buffer.length < Frame.headerLength) : Front d (.ok none)
  /-- The header announces too long a payload. -/
  | oversized {kind flags : UInt8} {length : Nat} {rest : Bytes}
      (hb : d.buffer = kind :: flags :: (Bytes.ofNatLE 4 length ++ rest))
      (hw : length < Bytes.wordCount 4) (hl : d.limit < length) :
      Front d (.error (.frameTooLarge length d.limit))
  /-- The payload has not come whole. -/
  | part {kind flags : UInt8} {length : Nat} {rest : Bytes}
      (hb : d.buffer = kind :: flags :: (Bytes.ofNatLE 4 length ++ rest))
      (hl : length ≤ d.limit) (hr : rest.length < length) : Front d (.ok none)
  /-- A frame has come whole. -/
  | whole {f : Frame} {rest : Bytes} (hb : d.buffer = f.toBytes ++ rest)
      (hl : f.payload.length ≤ d.limit) (hw : f.payload.length < Bytes.wordCount 4) :
      Front d (.ok (some (f, { d with buffer := rest })))

/-- As many bytes as a header has begin with one. -/
theorem exists_header {bs : Bytes} (h : Frame.headerLength ≤ bs.length) :
    ∃ kind flags length rest, bs = kind :: flags :: (Bytes.ofNatLE 4 length ++ rest) ∧
      length < Bytes.wordCount 4 := by
  match bs, h with
  | kind :: flags :: tail, h =>
    have htail : 4 ≤ tail.length := by
      simp only [Frame.headerLength, List.length_cons] at h
      omega
    have hword : (tail.take 4).length = 4 := by
      rw [List.length_take]
      omega
    have hback := Bytes.ofNatLE_toNatLE (tail.take 4)
    have hlt := Bytes.toNatLE_lt (tail.take 4)
    rw [hword] at hback hlt
    refine ⟨kind, flags, Bytes.toNatLE (tail.take 4), tail.drop 4, ?_, hlt⟩
    rw [hback, List.take_append_drop]

theorem next_of_short {d : FrameDecoder} (h : d.buffer.length < Frame.headerLength) :
    d.next = .ok none := by
  unfold next
  match hb : d.buffer with
  | [] => rfl
  | [_] => rfl
  | kind :: flags :: tail =>
    rw [hb] at h
    have htail : tail.length < 4 := by
      simp only [Frame.headerLength, List.length_cons] at h
      omega
    simp only [Bytes.takeLE?, Bytes.split?, Bytes.isShorter_iff.mpr htail, if_true, Option.map_none]

/-- With a header in front, its length decides. -/
theorem next_of_header {d : FrameDecoder} {kind flags : UInt8} {length : Nat} {rest : Bytes}
    (hb : d.buffer = kind :: flags :: (Bytes.ofNatLE 4 length ++ rest))
    (hw : length < Bytes.wordCount 4) :
    d.next =
      if d.limit < length then .error (.frameTooLarge length d.limit)
      else if rest.length < length then .ok none
      else .ok (some (⟨kind, flags, rest.take length⟩, { d with buffer := rest.drop length })) := by
  unfold next
  rw [hb]
  simp only [Bytes.takeLE?_ofNatLE_append, Nat.mod_eq_of_lt hw, Bytes.split?, Bytes.isShorter_iff]
  by_cases hr : rest.length < length
  · simp only [if_pos hr]
  · simp only [if_neg hr]

theorem front (d : FrameDecoder) : d.Front d.next := by
  by_cases hshort : d.buffer.length < Frame.headerLength
  · rw [next_of_short hshort]
    exact .short hshort
  · obtain ⟨kind, flags, length, rest, hb, hw⟩ := exists_header (Nat.not_lt.mp hshort)
    rw [next_of_header hb hw]
    by_cases hl : d.limit < length
    · rw [if_pos hl]
      exact .oversized hb hw hl
    · rw [if_neg hl]
      by_cases hr : rest.length < length
      · rw [if_pos hr]
        exact .part hb (Nat.not_lt.mp hl) hr
      · rw [if_neg hr]
        have htake : (rest.take length).length = length := by
          rw [List.length_take]
          omega
        refine .whole (f := ⟨kind, flags, rest.take length⟩) ?_ ?_ ?_
        · simp [hb, Frame.toBytes, htake]
        · rw [htake]
          exact Nat.not_lt.mp hl
        · rw [htake]
          exact hw

theorem buffer_of_next {d d' : FrameDecoder} {f : Frame} (h : d.next = .ok (some (f, d'))) :
    d.buffer = f.toBytes ++ d'.buffer := by
  have hfront := d.front
  rw [h] at hfront
  cases hfront with
  | whole hb hl hw => exact hb

theorem length_lt_of_next {d d' : FrameDecoder} {f : Frame} (h : d.next = .ok (some (f, d'))) :
    d'.buffer.length < d.buffer.length := by
  rw [buffer_of_next h, Frame.toBytes]
  simp only [List.length_append, List.length_cons]
  omega

/-- Where no frame has come whole, fewer bytes wait than the longest frame has. -/
theorem buffered_lt_of_next {d : FrameDecoder} (h : d.next = .ok none) :
    d.buffered < Frame.headerLength + d.limit := by
  have hfront := d.front
  rw [h] at hfront
  unfold buffered
  cases hfront with
  | short h => exact Nat.lt_of_lt_of_le h (Nat.le_add_right _ _)
  | part hb hl hr =>
    rw [hb]
    simp only [List.length_cons, List.length_append, Bytes.length_ofNatLE, Frame.headerLength]
    omega

/-! ## What more bytes change -/

/-- More bytes leave the frame in front as it is. -/
theorem next_extend_of_next {d d' : FrameDecoder} {f : Frame} (h : d.next = .ok (some (f, d')))
    (bs : Bytes) : (d.extend bs).next = .ok (some (f, d'.extend bs)) := by
  have hfront := d.front
  rw [h] at hfront
  cases hfront with
  | @whole f rest hb hl hw =>
    have hmore : (d.extend bs).buffer = f.toBytes ++ (rest ++ bs) := by
      rw [buffer_extend, hb, List.append_assoc]
    exact next_of_buffer (d.extend bs) f (rest ++ bs) hmore hl hw

/-- Nothing that comes behind an error undoes it. -/
theorem next_extend_of_error {d : FrameDecoder} {e : Error} (h : d.next = .error e) (bs : Bytes) :
    (d.extend bs).next = .error e := by
  have hfront := d.front
  rw [h] at hfront
  cases hfront with
  | @oversized kind flags length rest hb hw hl =>
    have hmore : (d.extend bs).buffer =
        kind :: flags :: (Bytes.ofNatLE 4 length ++ (rest ++ bs)) := by
      rw [buffer_extend, hb]
      simp
    rw [next_of_header hmore hw]
    exact if_pos hl

/-- An error names the length and the limit that it is above. -/
theorem eq_frameTooLarge_of_next {d : FrameDecoder} {e : Error} (h : d.next = .error e) :
    ∃ length, d.limit < length ∧ e = .frameTooLarge length d.limit := by
  have hfront := d.front
  rw [h] at hfront
  cases hfront with
  | oversized hb hw hl => exact ⟨_, hl, rfl⟩

/-! ## Taking out all frames -/

/-- Frames are taken out until none is left or an error comes. -/
inductive Draining : FrameDecoder → List Frame → Option Error → FrameDecoder → Prop
  | empty {d : FrameDecoder} (h : d.next = .ok none) : Draining d [] none d
  | broken {d : FrameDecoder} {e : Error} (h : d.next = .error e) : Draining d [] (some e) d
  | frame {d d' last : FrameDecoder} {f : Frame} {fs : List Frame} {outcome : Option Error}
      (h : d.next = .ok (some (f, d'))) (rest : Draining d' fs outcome last) :
      Draining d (f :: fs) outcome last

/-- There are rounds enough, as each takes bytes out of the buffer. -/
theorem draining_drainWith {rounds : Nat} {d : FrameDecoder} (h : d.buffer.length < rounds) :
    Draining d (drainWith rounds d).1 (drainWith rounds d).2.1 (drainWith rounds d).2.2 := by
  induction rounds generalizing d with
  | zero => exact absurd h (Nat.not_lt_zero _)
  | succ rounds ih =>
    unfold drainWith
    split
    · rename_i hnext
      exact .broken hnext
    · rename_i hnext
      exact .empty hnext
    · rename_i hnext
      have hshorter := length_lt_of_next hnext
      exact .frame hnext (ih (by omega))

theorem Draining.unique {d last last' : FrameDecoder} {fs fs' : List Frame}
    {outcome outcome' : Option Error} (h : Draining d fs outcome last)
    (h' : Draining d fs' outcome' last') : fs = fs' ∧ outcome = outcome' ∧ last = last' := by
  induction h generalizing fs' with
  | empty hnext =>
    cases h' with
    | empty _ => exact ⟨rfl, rfl, rfl⟩
    | broken hnext' => simp [hnext] at hnext'
    | frame hnext' _ => simp [hnext] at hnext'
  | broken hnext =>
    cases h' with
    | empty hnext' => simp [hnext] at hnext'
    | broken hnext' =>
      rw [hnext] at hnext'
      cases hnext'
      exact ⟨rfl, rfl, rfl⟩
    | frame hnext' _ => simp [hnext] at hnext'
  | frame hnext rest ih =>
    cases h' with
    | empty hnext' => simp [hnext] at hnext'
    | broken hnext' => simp [hnext] at hnext'
    | frame hnext' rest' =>
      rw [hnext] at hnext'
      cases hnext'
      obtain ⟨rfl, rfl, rfl⟩ := ih rest'
      exact ⟨rfl, rfl, rfl⟩

theorem draining_drain (d : FrameDecoder) : Draining d d.drain.1 d.drain.2.1 d.drain.2.2 :=
  draining_drainWith (Nat.lt_succ_self _)

theorem drain_eq_iff {d last : FrameDecoder} {fs : List Frame} {outcome : Option Error} :
    d.drain = (fs, outcome, last) ↔ Draining d fs outcome last := by
  refine ⟨?_, ?_⟩
  · intro h
    have hall := d.draining_drain
    rw [h] at hall
    exact hall
  · intro h
    obtain ⟨hfs, houtcome, hlast⟩ := d.draining_drain.unique h
    exact Prod.ext hfs (Prod.ext houtcome hlast)

/-- The end is where nothing more can be taken out. -/
theorem Draining.next_last {d last : FrameDecoder} {fs : List Frame} {outcome : Option Error}
    (h : Draining d fs outcome last) : last.next = outcome.elim (.ok none) .error := by
  induction h with
  | empty hnext => exact hnext
  | broken hnext => exact hnext
  | frame hnext rest ih => exact ih

/-- What comes later is taken out later. -/
theorem Draining.extend {d mid last : FrameDecoder} {fs gs : List Frame}
    {outcome outcome' : Option Error} {bs : Bytes} (h : Draining d fs outcome mid)
    (h' : Draining (mid.extend bs) gs outcome' last) :
    Draining (d.extend bs) (fs ++ gs) outcome' last := by
  induction h with
  | empty hnext => exact h'
  | broken hnext => exact h'
  | frame hnext rest ih => exact .frame (next_extend_of_next hnext bs) (ih h')

/-- Frames that keep the limit are taken out as they were put together. -/
theorem draining_toBytes {limit : Nat} {fs : List Frame}
    (h : ∀ f ∈ fs, f.payload.length ≤ limit ∧ f.payload.length < Bytes.wordCount 4) :
    Draining ⟨limit, fs.flatMap Frame.toBytes⟩ fs none (new limit) := by
  induction fs with
  | nil => exact .empty rfl
  | cons f fs ih =>
    obtain ⟨hl, hw⟩ := h f List.mem_cons_self
    have hrest := ih fun g hg => h g (List.mem_cons_of_mem _ hg)
    exact .frame (next_of_buffer ⟨limit, _⟩ f _ List.flatMap_cons hl hw) hrest

/-! ## Feeding and asking, in any order -/

/-- One thing that is done with a decoder. -/
inductive Use
  | feed (bs : Bytes)
  | ask

def Use.bytes : Use → Bytes
  | feed bs => bs
  | ask => []

/-- The bytes that are fed. -/
def fed (uses : List Use) : Bytes :=
  uses.flatMap Use.bytes

/-- A decoder in use, and the frames that it gave. -/
structure Reading where
  decoder : FrameDecoder
  frames : List Frame

namespace Reading

def use (r : Reading) : Use → Reading
  | .feed bs => { r with decoder := r.decoder.extend bs }
  | .ask =>
    match r.decoder.next with
    | .ok (some (f, d)) => ⟨d, r.frames ++ [f]⟩
    -- the decoder is the same as before
    | .ok none => r
    | .error _ => r

def after (r : Reading) (uses : List Use) : Reading :=
  uses.foldl use r

/-- All bytes that have come: those of the frames, and those that wait. -/
def bytes (r : Reading) : Bytes :=
  r.frames.flatMap Frame.toBytes ++ r.decoder.buffer

theorem bytes_use (r : Reading) (u : Use) : (r.use u).bytes = r.bytes ++ u.bytes := by
  cases u with
  | feed bs => simp [use, bytes, Use.bytes]
  | ask =>
    simp only [use, Use.bytes, List.append_nil]
    split
    · rename_i f d hnext
      simp [bytes, buffer_of_next hnext]
    · rfl
    · rfl

/-- No byte is lost, made up or moved. -/
theorem bytes_after (r : Reading) (uses : List Use) :
    (r.after uses).bytes = r.bytes ++ fed uses := by
  induction uses generalizing r with
  | nil => exact (List.append_nil _).symm
  | cons u uses ih =>
    show ((r.use u).after uses).bytes = _
    rw [ih, bytes_use, fed, fed, List.flatMap_cons, List.append_assoc]

/-- What the frames so far, and all that can be taken out now, come to. -/
def Comes (r : Reading) (fs : List Frame) (outcome : Option Error) (last : FrameDecoder) : Prop :=
  ∃ rest, Draining r.decoder rest outcome last ∧ fs = r.frames ++ rest

/-- Asking for a frame changes nothing about what the frames will be. -/
theorem Comes.ask {r : Reading} {fs : List Frame} {outcome : Option Error} {last : FrameDecoder}
    (h : r.Comes fs outcome last) : (r.use .ask).Comes fs outcome last := by
  obtain ⟨rest, hdrain, hfs⟩ := h
  cases hdrain with
  | empty hnext =>
    simp only [use, hnext]
    exact ⟨[], .empty hnext, hfs⟩
  | broken hnext =>
    simp only [use, hnext]
    exact ⟨[], .broken hnext, hfs⟩
  | @frame _ d' _ f rest _ hnext hrest =>
    simp only [use, hnext]
    refine ⟨rest, hrest, ?_⟩
    rw [hfs, List.append_assoc, List.singleton_append]

/-- The frames come to what one piece would have given, whatever was done so far. -/
theorem comes_after {r : Reading} {d last : FrameDecoder} {fs : List Frame}
    {outcome : Option Error} (h : r.Comes fs outcome last) (hd : Draining d fs outcome last)
    (uses : List Use) :
    ∃ gs outcome' last', (r.after uses).Comes gs outcome' last' ∧
      Draining (d.extend (fed uses)) gs outcome' last' := by
  induction uses generalizing r d fs outcome last with
  | nil =>
    have hnothing : d.extend (fed []) = d := by simp [fed, FrameDecoder.extend]
    rw [hnothing]
    exact ⟨fs, outcome, last, h, hd⟩
  | cons u uses ih =>
    have hfed : d.extend (fed (u :: uses)) = (d.extend u.bytes).extend (fed uses) := by
      rw [extend_extend, fed, fed, List.flatMap_cons]
    rw [hfed]
    cases u with
    | feed bs =>
      -- both go on from where nothing more could be taken out
      obtain ⟨rest, hdrain, hfs⟩ := h
      have hmore := (last.extend bs).draining_drain
      refine ih ?_ (hd.extend hmore)
      refine ⟨_, hdrain.extend hmore, ?_⟩
      rw [hfs, List.append_assoc]
      rfl
    | ask =>
      have hsame : d.extend Use.ask.bytes = d := by simp [Use.bytes, FrameDecoder.extend]
      rw [hsame]
      exact ih h.ask hd

/-- Where an error has come, no use of the decoder gives another frame or another error. -/
theorem stuck_after {r : Reading} {e : Error} (h : r.decoder.next = .error e) (uses : List Use) :
    (r.after uses).decoder.next = .error e ∧ (r.after uses).frames = r.frames := by
  induction uses generalizing r with
  | nil => exact ⟨h, rfl⟩
  | cons u uses ih =>
    show ((r.use u).after uses).decoder.next = _ ∧ ((r.use u).after uses).frames = _
    cases u with
    | feed bs => exact ih (next_extend_of_error h bs)
    | ask =>
      have hsame : r.use .ask = r := by simp only [use, h]
      rw [hsame]
      exact ih h

end Reading

/-- A new decoder after some uses. -/
def read (limit : Nat) (uses : List Use) : Reading :=
  Reading.after ⟨new limit, []⟩ uses

theorem limit_after (r : Reading) (uses : List Use) :
    (r.after uses).decoder.limit = r.decoder.limit := by
  induction uses generalizing r with
  | nil => rfl
  | cons u uses ih =>
    show ((r.use u).after uses).decoder.limit = _
    rw [ih]
    cases u with
    | feed bs => rfl
    | ask =>
      simp only [Reading.use]
      split
      · rename_i f d hnext
        have hfront := r.decoder.front
        rw [hnext] at hfront
        cases hfront with
        | whole hb hl hw => rfl
      · rfl
      · rfl

/-- What was taken out and what waits are the bytes that were fed. Once all is taken out, frames,
outcome and what waits are those of one piece. An end leaves the decoder as it is: where there is no
frame less than a whole one waits, and an error stays for good. Bytes that are frames within the
limit give just these. -/
theorem splits_alike (limit : Nat) (uses : List Use) :
    let r := read limit uses
    r.frames.flatMap Frame.toBytes ++ r.decoder.buffer = fed uses ∧
    (∃ rest outcome last, r.decoder.drain = (rest, outcome, last) ∧
      ((new limit).extend (fed uses)).drain = (r.frames ++ rest, outcome, last) ∧
      last.next = outcome.elim (.ok none) .error) ∧
    (r.decoder.next = .ok none → r.use .ask = r ∧ r.decoder.buffered < 6 + limit) ∧
    (∀ e, r.decoder.next = .error e →
      r.use .ask = r ∧ (∃ length, limit < length ∧ e = .frameTooLarge length limit) ∧
        ∀ more, (r.after more).decoder.next = .error e ∧ (r.after more).frames = r.frames) ∧
    (∀ fs : List Frame, (∀ f ∈ fs, f.payload.length ≤ min limit 4294967295) →
      fed uses = fs.flatMap Frame.toBytes →
      ∃ rest, r.decoder.drain = (rest, none, new limit) ∧ r.frames ++ rest = fs) := by
  intro r
  have hlimit : r.decoder.limit = limit := limit_after _ uses
  have hstart : Draining (new limit) [] none (new limit) := .empty rfl
  obtain ⟨all, outcome, last, ⟨rest, hdrain, hall⟩, hone⟩ :=
    Reading.comes_after (r := ⟨new limit, []⟩) ⟨[], hstart, rfl⟩ hstart uses
  refine ⟨Reading.bytes_after _ uses, ?_, ?_, ?_, ?_⟩
  · refine ⟨rest, outcome, last, drain_eq_iff.mpr hdrain, ?_, hdrain.next_last⟩
    rw [drain_eq_iff]
    exact hall ▸ hone
  · intro hnone
    have hfew := buffered_lt_of_next hnone
    rw [hlimit] at hfew
    refine ⟨?_, hfew⟩
    simp only [Reading.use, hnone]
  · intro e herror
    have hcause := eq_frameTooLarge_of_next herror
    rw [hlimit] at hcause
    refine ⟨?_, hcause, Reading.stuck_after herror⟩
    simp only [Reading.use, herror]
  · intro fs hfs hbytes
    have hkeeps : ∀ f ∈ fs, f.payload.length ≤ limit ∧ f.payload.length < Bytes.wordCount 4 := by
      intro f hf
      have hle := hfs f hf
      have hword : Bytes.wordCount 4 = 4294967296 := rfl
      omega
    have hwhole : Draining ((new limit).extend (fed uses)) fs none (new limit) := by
      rw [hbytes]
      exact draining_toBytes hkeeps
    obtain ⟨rfl, rfl, rfl⟩ := hone.unique hwhole
    exact ⟨rest, drain_eq_iff.mpr hdrain, hall.symm⟩

/-- Two frames, with a cut inside either header and a frame asked for at each cut. -/
def cutHeaders : List Use :=
  [.feed [10, 0, 2], .ask, .feed [0, 0, 0, 7, 8, 12], .ask, .ask, .feed [1, 0, 0, 0, 0]]

/-- Frames that are cut inside their headers come out as they were put together. -/
theorem cutHeaders_whole :
    (∀ f ∈ [Frame.mk 10 0 [7, 8], ⟨12, 1, []⟩], f.payload.length ≤ min 8 4294967295) ∧
      fed cutHeaders = [Frame.mk 10 0 [7, 8], ⟨12, 1, []⟩].flatMap Frame.toBytes ∧
      ∃ rest, (read 8 cutHeaders).decoder.drain = (rest, none, new 8) ∧
        (read 8 cutHeaders).frames ++ rest = [⟨10, 0, [7, 8]⟩, ⟨12, 1, []⟩] := by
  have hkeeps : ∀ f ∈ [Frame.mk 10 0 [7, 8], ⟨12, 1, []⟩], f.payload.length ≤ min 8 4294967295 := by
    decide
  have hfed : fed cutHeaders = [Frame.mk 10 0 [7, 8], ⟨12, 1, []⟩].flatMap Frame.toBytes := rfl
  exact ⟨hkeeps, hfed, (splits_alike 8 cutHeaders).2.2.2.2 _ hkeeps hfed⟩

end FrameDecoder

end Parley
