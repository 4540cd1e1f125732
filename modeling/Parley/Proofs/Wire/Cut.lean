import Parley.Proofs.Json.Cut
import Parley.Proofs.Wire.Canonical
import Parley.Proofs.Wire.Encoding

/-!
# Packed records that are cut are not read

A reader that goes on reads of every longer input what it read of an input, and leaves what is more
(`MessagePack.GoesOn`). If it reads all of an input, it reads no part of it: going on, it would leave
what is missing of the part.

- `MessagePack.goesOn_head?`, `MessagePack.goesOn_read`, `MessagePack.goesOn_readFields`: the parts of
  a record.
- `MessagePack.readRecord_cut`, `JsonText.readRecord?_cut`: a record whose text or bytes are cut.
- `Encoding.unpackRecord_cut`: the same in every encoding.
-/

namespace Parley

namespace Wire

namespace MessagePack

/-- What was read of an input is read of one with more behind it, and what is more is left. -/
def Extends {α : Type} (more : Bytes) (short long : Option (α × Bytes)) : Prop :=
  ∀ ⦃x rest⦄, short = some (x, rest) → long = some (x, rest ++ more)

/-- What is read of an input is read of every longer one. -/
def GoesOn {α : Type} (reader : Bytes → Option (α × Bytes)) : Prop :=
  ∀ bs more, Extends more (reader bs) (reader (bs ++ more))

namespace Extends

variable {α β : Type} {more : Bytes}

theorem none {long : Option (α × Bytes)} : Extends more .none long := by
  intro x rest h
  cases h

theorem some (x : α) (rest : Bytes) : Extends more (.some (x, rest)) (.some (x, rest ++ more)) := by
  intro y tail h
  cases h
  rfl

theorem ite {c : Prop} [Decidable c] {a a' b b' : Option (α × Bytes)} (ha : Extends more a a')
    (hb : Extends more b b') : Extends more (if c then a else b) (if c then a' else b') := by
  by_cases hc : c
  · rw [if_pos hc, if_pos hc]
    exact ha
  · rw [if_neg hc, if_neg hc]
    exact hb

/-- What begins with something that goes on, goes on if it does behind that. -/
theorem andThen {a a' : Option (α × Bytes)} {b b' : Option (β × Bytes)} (ha : Extends more a a')
    (hnone : a = .none → b = .none)
    (hsome : ∀ x rest, a = .some (x, rest) → a' = .some (x, rest ++ more) → Extends more b b') :
    Extends more b b' := by
  cases hread : a with
  | none =>
    rw [hnone hread]
    exact none
  | some p =>
    obtain ⟨x, rest⟩ := p
    exact hsome x rest hread (ha hread)

theorem map {a a' : Option (α × Bytes)} (ha : Extends more a a') (f : α → β) :
    Extends more (a.map fun (x, rest) => (f x, rest)) (a'.map fun (x, rest) => (f x, rest)) := by
  intro y rest h
  obtain ⟨⟨x, tail⟩, hx, heq⟩ := Option.map_eq_some_iff.mp h
  cases heq
  rw [ha hx, Option.map_some]

/-- What is made of a thing that was read, if anything is. -/
theorem made (made? : Option β) (rest : Bytes) :
    Extends more (made?.map (·, rest)) (made?.map (·, rest ++ more)) := by
  intro y tail h
  obtain ⟨x, hx, heq⟩ := Option.map_eq_some_iff.mp h
  cases heq
  rw [hx, Option.map_some]

end Extends

/-- A reader that goes on reads nothing of a part of what it reads to its end. -/
theorem GoesOn.cut {α : Type} {reader : Bytes → Option (α × Bytes)} (hreader : GoesOn reader)
    {part more : Bytes} (hmore : more ≠ []) {x : α} (h : reader (part ++ more) = some (x, [])) :
    reader part = none := by
  cases hpart : reader part with
  | none => rfl
  | some p =>
    obtain ⟨y, rest⟩ := p
    rw [hreader part more hpart] at h
    have hnil : rest ++ more = [] := (Prod.mk.inj (Option.some.inj h)).2
    exact absurd (List.append_eq_nil_iff.mp hnil).2 hmore

/-! ## Heads -/

theorem goesOn_split? (n : Nat) : GoesOn (Bytes.split? n) := by
  intro bs more front rest h
  obtain ⟨rfl, rfl⟩ := Bytes.eq_append_of_split? h
  rw [List.append_assoc, Bytes.split?_append]

theorem goesOn_takeBE? (width : Nat) : GoesOn (takeBE? width) := fun bs more =>
  (goesOn_split? width bs more).map fun word => Bytes.toNatLE word.reverse

/-- A marker announces something by itself, or with a word behind it, or nothing. -/
theorem goesOn_head? : GoesOn head? := by
  intro bs more
  cases bs with
  | nil => exact .none
  | cons m tail =>
    rw [List.cons_append]
    unfold head?
    dsimp -zeta only
    extract_lets word wordLonger
    have hword : ∀ width announce, Extends more (word width announce) (wordLonger width announce) :=
      fun width announce => (goesOn_takeBE? width tail more).map announce
    clear_value word wordLonger
    repeat' apply Extends.ite
    all_goals
      first
        | exact hword _ _
        | exact Extends.some _ _
        | exact Extends.none

/-- What is read by its head goes on if it does behind every head. -/
theorem Extends.onHead {β : Type} {bs more : Bytes} {b b' : Option (β × Bytes)}
    (hnone : head? bs = .none → b = .none)
    (hsome : ∀ head rest, head? bs = .some (head, rest) →
      head? (bs ++ more) = .some (head, rest ++ more) → Extends more b b') : Extends more b b' :=
  Extends.andThen (goesOn_head? bs more) hnone hsome

/-! ## Values -/

theorem goesOn_readInt : GoesOn readInt := by
  intro bs more
  refine Extends.onHead (fun h => by rw [readInt, h]) fun head rest h h' => ?_
  rw [readInt, readInt, h, h']
  cases head with
  | int n => exact Extends.some n rest
  | _ => exact Extends.none

theorem goesOn_readWord (w : Width) : GoesOn (readWord w) := by
  intro bs more
  refine Extends.andThen (goesOn_readInt bs more) (fun h => by rw [readWord, h]) ?_
  intro n rest h h'
  rw [readWord, readWord, h, h']
  exact Extends.made (w.word? n) rest

theorem goesOn_readMany {α : Type} {item : Bytes → Option (α × Bytes)} (hitem : GoesOn item)
    (n : Nat) : GoesOn (readMany item n) := by
  induction n with
  | zero => exact fun bs more => Extends.some [] bs
  | succ n ih =>
    intro bs more
    refine Extends.andThen (hitem bs more) (fun h => by rw [readMany, h]) fun x rest h h' => ?_
    simp only [readMany, h, h']
    refine Extends.andThen (ih rest more) (fun h => by rw [h]) fun xs tail h h' => ?_
    rw [h, h']
    exact Extends.some (x :: xs) tail

theorem goesOn_read (s : Shape) : GoesOn (read s) := by
  induction s with
  | unit =>
    intro bs more
    refine Extends.onHead (fun h => by rw [read, h]) fun head rest h h' => ?_
    rw [read, read, h, h']
    cases head with
    | null => exact Extends.some () rest
    | _ => exact Extends.none
  | bool =>
    intro bs more
    refine Extends.onHead (fun h => by rw [read, h]) fun head rest h h' => ?_
    rw [read, read, h, h']
    cases head with
    | bool b => exact Extends.some b rest
    | _ => exact Extends.none
  | uint w => exact goesOn_readWord w
  | int w =>
    intro bs more
    refine Extends.andThen (goesOn_readInt bs more) (fun h => by rw [read, h]) fun n rest h h' => ?_
    rw [read, read, h, h']
    exact Extends.made (w.signed? n) rest
  | text =>
    intro bs more
    refine Extends.onHead (fun h => by rw [read, h]) fun head rest h h' => ?_
    rw [read, read, h, h']
    cases head with
    | text n | bytes n =>
      dsimp only
      refine Extends.andThen (goesOn_split? n rest more) (fun h => by rw [h])
        fun blob tail h h' => ?_
      rw [h, h']
      exact Extends.made (Utf8.decode? blob) tail
    | _ => exact Extends.none
  | bytes =>
    intro bs more
    refine Extends.onHead (fun h => by rw [read, h]) fun head rest h h' => ?_
    rw [read, read, h, h']
    cases head with
    | text n => exact goesOn_split? n rest more
    | bytes n => exact goesOn_split? n rest more
    | array n => exact goesOn_readMany (goesOn_readWord .w8) n rest more
    | _ => exact Extends.none
  | code codes =>
    intro bs more
    refine Extends.andThen (goesOn_readWord .w8 bs more) (fun h => by rw [read, h])
      fun c rest h h' => ?_
    rw [read, read, h, h']
    exact Extends.made (Shape.codeOf? codes c) rest
  | option s ih =>
    intro bs more
    refine Extends.onHead (fun h => by rw [read, h]) fun head rest h h' => ?_
    rw [read, read, h, h']
    cases head with
    | null => exact Extends.some none rest
    | _ =>
      -- the value stands at its head, not behind it
      dsimp only
      refine Extends.andThen (ih bs more) (fun h => by rw [h]) fun v tail h h' => ?_
      rw [h, h']
      exact Extends.some (some v) tail
  | list s ih =>
    intro bs more
    refine Extends.onHead (fun h => by rw [read, h]) fun head rest h h' => ?_
    rw [read, read, h, h']
    cases head with
    | array n => exact goesOn_readMany ih n rest more
    | _ => exact Extends.none
  | pair a b iha ihb =>
    intro bs more
    refine Extends.onHead (fun h => by rw [read, h]) fun head rest h h' => ?_
    rw [read, read, h, h']
    cases head with
    | array n =>
      refine Extends.ite .none ?_
      refine Extends.andThen (iha rest more) (fun hx => by rw [hx]) fun x tail hx hx' => ?_
      simp only [hx, hx']
      refine Extends.andThen (ihb tail more) (fun hy => by rw [hy]) fun y tail hy hy' => ?_
      rw [hy, hy']
      exact Extends.some (x, y) tail
    | _ => exact Extends.none

/-! ## Records -/

theorem goesOn_readFields (r : Record) : GoesOn (readFields r) := by
  induction r with
  | nil => exact fun bs more => Extends.some () bs
  | cons f fs ih =>
    intro bs more
    refine Extends.andThen (goesOn_read f.shape bs more) (fun h => by rw [readFields, h])
      fun v rest h h' => ?_
    simp only [readFields, h, h']
    refine Extends.andThen (ih rest more) (fun h => by rw [h]) fun vs tail h h' => ?_
    rw [h, h']
    exact Extends.some (v, vs) tail

/-- No part of the bytes of a record is read, if something of them is missing at their end. -/
theorem readRecord_cut {r : Record} (hr : r.isPlain) (hcount : r.length < lengthLimit) {v : r.Val}
    (hfits : r.Fits lengthLimit v) {part more : Bytes} (hmore : more ≠ [])
    (h : part ++ more = writeRecord r v) : readRecord r part = none := by
  cases hhead : head? part with
  | none => rw [readRecord, hhead]
  | some p =>
    obtain ⟨head, rest⟩ := p
    -- the part starts with the head of the whole
    have hlonger := goesOn_head? part more hhead
    rw [h, writeRecord, head?_arrayHead hcount] at hlonger
    obtain ⟨rfl, hrest⟩ := Prod.mk.inj (Option.some.inj hlonger)
    have hfields := readFields_writeFields hr v hfits []
    rw [List.append_nil, hrest] at hfields
    rw [readRecord, hhead]
    simp only [Nat.lt_irrefl, if_false]
    exact (goesOn_readFields r).cut hmore hfields

end MessagePack

/-! ## Other formats -/

/-- No part of the bytes of a record is read, if something of them is missing at their end. -/
theorem Bincode.readRecord_cut {r : Record} {v : r.Val} (hfits : r.Fits lengthLimit v)
    {part more : Bytes} (hmore : more ≠ []) (h : part ++ more = writeRecord r v) :
    ∃ fault, readRecord r part = .error fault := by
  cases hread : readRecord r part with
  | error fault => exact ⟨fault, rfl⟩
  | ok p =>
    obtain ⟨w, rest⟩ := p
    -- the record that the part holds would be read of the whole, too
    obtain ⟨hw, rfl⟩ := (readRecord_eq_ok_iff r).mp hread
    have hlonger : readRecord r (writeRecord r v) = .ok (w, rest ++ more) :=
      (readRecord_eq_ok_iff r).mpr ⟨hw, by rw [← h, List.append_assoc]⟩
    have hwhole := readRecord_writeRecord r v hfits []
    rw [List.append_nil, hlonger] at hwhole
    have hnil : rest ++ more = [] := (Prod.mk.inj (Except.ok.inj hwhole)).2
    exact absurd (List.append_eq_nil_iff.mp hnil).2 hmore

/-- No part of the text of a record is read, if something of it is missing at its end. -/
theorem JsonText.readRecord?_cut {r : Record} {v : r.Val} {part more : Bytes} (hmore : more ≠ [])
    (h : part ++ more = writeRecord r v) : readRecord? r part = none := by
  have hexact : (Json.object (members r v)).isExact = true := areExactMembers_members r v
  rw [readRecord?, Json.parse?_cut hexact hmore h, Option.bind_none]

end Wire

/-! ## Every encoding -/

open Wire

/-- No part of a packed record is read, if something of it is missing at its end. -/
theorem Encoding.unpackRecord_cut {f : Features} {e : Encoding} {r : Record} (hr : r.Sound)
    {v : r.Val} {bs : Bytes} (h : e.packRecord f r v = .ok bs)
    (hfits : ∀ limit ∈ e.countLimit?, r.Fits limit v) {part : Bytes} (hpart : part <+: bs)
    (hcut : part ≠ bs) : ∃ error, e.unpackRecord f r part = .error error := by
  obtain ⟨hrequire, hfull⟩ := packRecord_ok h
  obtain ⟨more, rfl⟩ := hpart
  have hmore : more ≠ [] := by
    rintro rfl
    exact hcut (List.append_nil part).symm
  unfold unpackRecord
  rw [hrequire]
  cases e with
  | bincode =>
    obtain ⟨fault, hfault⟩ := Bincode.readRecord_cut (hfits _ rfl) hmore (Except.ok.inj hfull).symm
    exact ⟨.bincode fault, by simp only [bind, Except.bind, hfault]⟩
  | messagePack =>
    have hnone := MessagePack.readRecord_cut hr.plain hr.count (hfits _ rfl) hmore
      (Except.ok.inj hfull).symm
    exact ⟨.messagePack, by simp only [bind, Except.bind, hnone]⟩
  | json =>
    have hnone := JsonText.readRecord?_cut hmore (Except.ok.inj hfull).symm
    exact ⟨.json, by simp only [bind, Except.bind, hnone]⟩

end Parley
