import Parley.Error

/-!
# Frames

A frame carries one message: a byte for its kind, a byte of flags, the length of the payload in
four bytes, and the payload. A `FrameDecoder` gathers bytes as they come off a stream and gives back
whole frames; where the stream is cut into pieces makes no difference.

- `FrameDecoder.next` takes the next frame out of the decoder, or nothing if it has not arrived yet.
- A length above the limit is an error that stays: nothing behind it can be trusted.
-/

namespace Parley

/-- One message as it stands on the wire. -/
structure Frame where
  kind : UInt8
  flags : UInt8
  payload : Bytes
deriving DecidableEq, Repr

namespace Frame

def headerLength : Nat := 6

/-- The flag of a compressed payload. -/
def compressedFlag : UInt8 := 1

def isCompressed (f : Frame) : Bool :=
  f.flags &&& compressedFlag != 0

def toBytes (f : Frame) : Bytes :=
  f.kind :: f.flags :: Bytes.ofNatLE 4 f.payload.length ++ f.payload

theorem length_toBytes (f : Frame) : f.toBytes.length = headerLength + f.payload.length := by
  simp only [toBytes, headerLength, List.cons_append, List.length_cons, List.length_append,
    Bytes.length_ofNatLE]
  omega

end Frame

/-- Bytes off a stream that do not make up a whole frame yet. -/
structure FrameDecoder where
  /-- Largest payload that is accepted. -/
  limit : Nat
  buffer : Bytes
deriving DecidableEq, Repr

namespace FrameDecoder

/-- A decoder that has seen nothing. -/
def new (limit : Nat) : FrameDecoder := ⟨limit, []⟩

def extend (d : FrameDecoder) (bs : Bytes) : FrameDecoder :=
  { d with buffer := d.buffer ++ bs }

/-- Number of bytes that wait for the rest of their frame. -/
def buffered (d : FrameDecoder) : Nat :=
  d.buffer.length

/-- Takes the next frame out of the decoder, if it has arrived. -/
def next (d : FrameDecoder) : Except Error (Option (Frame × FrameDecoder)) :=
  match d.buffer with
  | kind :: flags :: rest =>
    match Bytes.takeLE? 4 rest with
    | none => .ok none
    | some (length, rest) =>
      if d.limit < length then .error (.frameTooLarge length d.limit)
      else match Bytes.split? length rest with
        | none => .ok none
        | some (payload, rest) => .ok (some (⟨kind, flags, payload⟩, { d with buffer := rest }))
  | _ => .ok none

/-- Takes out frames until none is left or an error comes. Each takes at least its header, so as
many rounds as there are bytes are enough. -/
def drainWith : Nat → FrameDecoder → List Frame × Option Error × FrameDecoder
  | 0, d => ([], none, d)
  | rounds + 1, d =>
    match d.next with
    | .error e => ([], some e, d)
    | .ok none => ([], none, d)
    | .ok (some (f, d)) =>
      let (fs, e, d) := drainWith rounds d
      (f :: fs, e, d)

/-- All frames that have arrived, how the reading ended, and the decoder then. -/
def drain (d : FrameDecoder) : List Frame × Option Error × FrameDecoder :=
  drainWith (d.buffer.length + 1) d

@[simp] theorem buffer_extend (d : FrameDecoder) (bs : Bytes) :
    (d.extend bs).buffer = d.buffer ++ bs := rfl

theorem extend_extend (d : FrameDecoder) (xs ys : Bytes) :
    (d.extend xs).extend ys = d.extend (xs ++ ys) := by
  simp [extend, List.append_assoc]

/-- A frame that has arrived is taken out whole, and what came behind it stays. -/
theorem next_of_buffer (d : FrameDecoder) (f : Frame) (rest : Bytes)
    (hb : d.buffer = f.toBytes ++ rest) (hl : f.payload.length ≤ d.limit)
    (hw : f.payload.length < Bytes.wordCount 4) :
    d.next = .ok (some (f, { d with buffer := rest })) := by
  unfold next
  rw [hb]
  simp only [Frame.toBytes, List.cons_append, List.append_assoc, Bytes.takeLE?_ofNatLE_append,
    Nat.mod_eq_of_lt hw]
  rw [if_neg (by omega)]
  simp only [Bytes.split?_append]

end FrameDecoder

end Parley
