import Mathlib.Data.List.Nodup
import Parley.Network.Loop

/-!
# What changes for one connection

A loop handles all its connections. Seen from one of them, most of what happens is about others. Two
aspects of a connection matter to the messages on it.

- `Loop.about`: what was done about an address, of which what was written to it is a part
  (`Loop.written_eq_about`).
- `Loop.outgoing`: what has to be written and what was written; `Loop.incoming`: what waits for the
  rest of its frame and what was dispatched.
- `Loop.Keeps`: an aspect of a connection is as it was, or the connection is gone.
- `Loop.keeps_remove`, `Loop.keeps_add`, `Loop.keeps_map`, `Loop.keeps_put`: the changes a loop is
  made of, and when they keep an aspect.
-/

namespace Parley

/-- The bytes that an effect writes to an address. -/
def Effect.writtenTo (b : Address) : Effect → Bytes
  | .write a bytes => if a = b then bytes else []
  | _ => []

/-- The messages that an effect dispatches as coming from an address. -/
def Effect.dispatchedFrom (b : Address) : Effect → List Message
  | .dispatch letter => if letter.sender = b then [letter.message] else []
  | _ => []

/-- The address that an effect is about. -/
def Effect.address : Effect → Address
  | .dispatch letter => letter.sender
  | .write a _ => a
  | .close a => a

/-- Writing changes nothing but what has still to be written. -/
theorem Connection.flush_eq (outcomes : List WriteOutcome) (c : Connection) :
    (c.flush outcomes).1 = { c with unsent := (c.flush outcomes).1.unsent } := by
  induction outcomes generalizing c with
  | nil => rfl
  | cons outcome rest ih =>
    unfold flush
    split
    · rfl
    · cases outcome with
      | accepted n =>
        cases n with
        | zero => rfl
        | succ n => exact ih { c with unsent := c.unsent.drop (n + 1) }
      | wouldBlock => rfl
      | interrupted => exact ih c
      | failed fault => rfl

namespace Loop

/-- All that was written to an address. -/
def written (l : Loop) (b : Address) : Bytes :=
  l.effects.flatMap (Effect.writtenTo b)

/-- All messages that were dispatched as coming from an address. -/
def dispatched (l : Loop) (b : Address) : List Message :=
  l.effects.flatMap (Effect.dispatchedFrom b)

/-- All that was done about an address. -/
def about (l : Loop) (b : Address) : List Effect :=
  l.effects.filter (·.address == b)

/-- Effects that leave nothing in a log can be left out. -/
theorem flatMap_filter_effects {α : Type} {log : Effect → List α} {p : Effect → Bool}
    (h : ∀ e, p e = false → log e = []) (es : List Effect) :
    (es.filter p).flatMap log = es.flatMap log := by
  induction es with
  | nil => rfl
  | cons e es ih =>
    cases he : p e with
    | false => rw [List.filter_cons_of_neg (by simp [he]), List.flatMap_cons, h e he, ih]; rfl
    | true => rw [List.filter_cons_of_pos he, List.flatMap_cons, List.flatMap_cons, ih]

theorem writtenTo_of_ne {e : Effect} {b : Address} (h : e.address ≠ b) : e.writtenTo b = [] := by
  cases e <;> simp_all [Effect.writtenTo, Effect.address]

theorem dispatchedFrom_of_ne {e : Effect} {b : Address} (h : e.address ≠ b) :
    e.dispatchedFrom b = [] := by
  cases e <;> simp_all [Effect.dispatchedFrom, Effect.address]

/-- What was written to an address is a part of what was done about it. -/
theorem written_eq_about (l : Loop) (b : Address) :
    l.written b = (l.about b).flatMap (Effect.writtenTo b) := by
  refine (flatMap_filter_effects ?_ l.effects).symm
  intro e he
  exact writtenTo_of_ne (by simpa using he)

/-- Whether there is a connection to an address. -/
def stands (l : Loop) (b : Address) : Bool :=
  (l.get? b).isSome

/-- The addresses of the connections. -/
def addresses (l : Loop) : List Address :=
  l.connections.map (·.info.address)

/-! ## Finding a connection -/

theorem get?_address {l : Loop} {a : Address} {c : Connection} (h : l.get? a = some c) :
    c.info.address = a := by
  simpa using List.find?_some h

/-- A change of all connections that leaves their addresses is found at the same place. -/
theorem get?_map {f : Connection → Connection} (hf : ∀ c, (f c).info.address = c.info.address)
    (l : Loop) (b : Address) :
    ({ l with connections := l.connections.map f } : Loop).get? b = (l.get? b).map f := by
  have hsame : ((fun c : Connection => c.info.address == b) ∘ f) =
      fun c => c.info.address == b := by
    funext c
    simp [hf]
  simp only [get?, List.find?_map, hsame]

theorem get?_put (l : Loop) (c : Connection) (b : Address) :
    (l.put c).get? b = (l.get? b).map fun d => if d.info.address == c.info.address then c else d :=
  get?_map (fun d => by split <;> simp_all) l b

/-- A connection that is replaced is found again. -/
theorem get?_put_self {l : Loop} {a : Address} {c d : Connection} (hget : l.get? a = some c)
    (haddress : d.info.address = a) : (l.put d).get? a = some d := by
  have hc := get?_address hget
  simp [get?_put, hget, hc, haddress]

/-- Other connections are found as they were. -/
theorem get?_put_of_ne {l : Loop} {a : Address} {d : Connection} (h : d.info.address ≠ a) :
    (l.put d).get? a = l.get? a := by
  rw [get?_put]
  cases hget : l.get? a with
  | none => rfl
  | some c =>
    have hc := get?_address hget
    simp [hc, Ne.symm h]

theorem addresses_put (l : Loop) (c : Connection) : (l.put c).addresses = l.addresses := by
  simp only [addresses, put, List.map_map]
  refine List.map_congr_left ?_
  intro d _
  simp only [Function.comp]
  split <;> simp_all

theorem get?_filter_of_ne {l : Loop} {a b : Address} (hab : a ≠ b) :
    (l.connections.filter (·.info.address != a)).find? (·.info.address == b) = l.get? b := by
  rw [List.find?_filter, get?]
  congr 1
  funext c
  by_cases h : c.info.address = b <;> simp [h, Ne.symm hab]

theorem get?_filter_self (l : Loop) (a : Address) :
    (l.connections.filter (·.info.address != a)).find? (·.info.address == a) = none := by
  simp [List.find?_eq_none]

/-! ## Aspects of a connection -/

/-- A part of a connection and what is logged about it. Neither closing a connection nor the note
that the table is behind belongs to it. -/
structure Aspect (α β : Type) where
  part : Connection → α
  log : Address → Effect → List β
  log_close : ∀ a b, log b (.close a) = []
  part_dirty : ∀ c dirty, part { c with dirty := dirty } = part c

/-- What goes out: what has to be written, the number of messages queued, and what was written. -/
def outgoing : Aspect (Bytes × Nat) UInt8 where
  part c := (c.unsent, c.info.sent)
  log := Effect.writtenTo
  log_close _ _ := rfl
  part_dirty _ _ := rfl

/-- What comes in: what waits for the rest of its frame, and what was dispatched. -/
def incoming : Aspect FrameDecoder Message where
  part c := c.decoder
  log := Effect.dispatchedFrom
  log_close _ _ := rfl
  part_dirty _ _ := rfl

variable {α β : Type} {v : Aspect α β} {b : Address}

/-- From `l` to `l'` an aspect of the connection to `b` has not changed, unless the connection is
gone. -/
structure Keeps (v : Aspect α β) (b : Address) (l l' : Loop) : Prop where
  config : l'.net.config = l.net.config
  queue : l'.net.queue = l.net.queue
  distinct : l.addresses.Nodup → l'.addresses.Nodup
  log : l'.effects.flatMap (v.log b) = l.effects.flatMap (v.log b)
  part : ∀ c', l'.get? b = some c' → ∃ c, l.get? b = some c ∧ v.part c' = v.part c

theorem Keeps.refl (l : Loop) : Keeps v b l l :=
  ⟨rfl, rfl, id, rfl, fun c hc => ⟨c, hc, rfl⟩⟩

theorem Keeps.trans {l₁ l₂ l₃ : Loop} (h : Keeps v b l₁ l₂) (h' : Keeps v b l₂ l₃) :
    Keeps v b l₁ l₃ where
  config := h'.config.trans h.config
  queue := h'.queue.trans h.queue
  distinct := h'.distinct ∘ h.distinct
  log := h'.log.trans h.log
  part c₃ hc₃ := by
    obtain ⟨c₂, hc₂, hpart⟩ := h'.part c₃ hc₃
    obtain ⟨c₁, hc₁, hpart'⟩ := h.part c₂ hc₂
    exact ⟨c₁, hc₁, hpart.trans hpart'⟩

/-- A connection that stands has stood before. -/
theorem Keeps.stands {l l' : Loop} (h : Keeps v b l l') (hb : l'.stands b = true) :
    l.stands b = true := by
  obtain ⟨c', hc'⟩ := Option.isSome_iff_exists.mp hb
  obtain ⟨c, hc, -⟩ := h.part c' hc'
  exact Option.isSome_iff_exists.mpr ⟨c, hc⟩

/-! ### Changes that keep an aspect -/

theorem keeps_remove (l : Loop) (a : Address) : Keeps v b l (l.remove a) := by
  cases hget : l.get? a with
  | none =>
    rw [remove, hget]
    exact Keeps.refl l
  | some c =>
    let l' : Loop := { l with
      net := { l.net with table := l.net.table.erase a }
      connections := l.connections.filter (·.info.address != a) }.emit [.close a]
    have hkeeps : Keeps v b l l' := by
      refine ⟨rfl, rfl, ?_, ?_, ?_⟩
      · intro h
        exact h.sublist (List.filter_sublist.map _)
      · show (l.effects ++ [Effect.close a]).flatMap (v.log b) = _
        rw [List.flatMap_append, List.flatMap_singleton, v.log_close, List.append_nil]
      · intro c' hc'
        change (l.connections.filter _).find? _ = _ at hc'
        by_cases hab : a = b
        · rw [hab, get?_filter_self] at hc'
          cases hc'
        · rw [get?_filter_of_ne hab] at hc'
          exact ⟨c', hc', rfl⟩
    -- the journal is all that losing the server adds
    have hremove : l.remove a = l' ∨
        l.remove a = { l' with journal := l'.journal ++ [.lostServer a] } := by
      rw [remove, hget]
      dsimp only
      split
      · exact .inr rfl
      · exact .inl rfl
    rcases hremove with h | h <;> rw [h] <;>
      exact ⟨hkeeps.config, hkeeps.queue, hkeeps.distinct, hkeeps.log, hkeeps.part⟩

/-- A new connection comes in the place of any other to its address. -/
theorem nodup_addresses_add {l : Loop} (h : l.addresses.Nodup) (now : Nat) (a : Address) :
    (l.add now a).addresses.Nodup := by
  have hrest : ((l.connections.filter (·.info.address != a)).map (·.info.address)).Nodup :=
    h.sublist (List.filter_sublist.map _)
  have hfresh : a ∉ (l.connections.filter (·.info.address != a)).map (·.info.address) := by
    simp
  have hall := hrest.concat hfresh
  rw [List.concat_eq_append] at hall
  rw [addresses, add, List.map_append]
  exact hall

/-- A new connection to another address is none of this one's. -/
theorem keeps_add (l : Loop) (now : Nat) {a : Address} (hab : a ≠ b) :
    Keeps v b l (l.add now a) := by
  refine ⟨rfl, rfl, fun h => nodup_addresses_add h now a, rfl, ?_⟩
  · intro c hc
    have hget : (l.add now a).get? b = l.get? b := by
      show (l.connections.filter _ ++ [_]).find? _ = _
      have hother : ((Connection.new a now l.net.config.maxFrame).info.address == b) = false :=
        beq_false_of_ne hab
      rw [List.find?_append, get?_filter_of_ne hab]
      simp [hother]
    exact ⟨c, hget ▸ hc, rfl⟩

/-- A change of all connections keeps what it does not touch. -/
theorem keeps_map {f : Connection → Connection} (hf : ∀ c, (f c).info.address = c.info.address)
    (hpart : ∀ c, v.part (f c) = v.part c) (l : Loop) :
    Keeps v b l { l with connections := l.connections.map f } := by
  refine ⟨rfl, rfl, ?_, rfl, ?_⟩
  · intro h
    have hsame : (l.connections.map f).map (·.info.address) = l.addresses := by
      rw [List.map_map]
      exact List.map_congr_left fun c _ => hf c
    show ((l.connections.map f).map (·.info.address)).Nodup
    exact hsame ▸ h
  · intro c' hc'
    rw [get?_map hf] at hc'
    obtain ⟨c, hc, rfl⟩ := Option.map_eq_some_iff.mp hc'
    exact ⟨c, hc, hpart c⟩

/-- Handling one connection keeps an aspect of another, and of the same what it does not touch. -/
theorem keeps_put {l : Loop} {a : Address} {c d : Connection} (hget : l.get? a = some c)
    (haddress : d.info.address = a) (hpart : a = b → v.part d = v.part c) {es : List Effect}
    (hlog : es.flatMap (v.log b) = []) : Keeps v b l ((l.put d).emit es) := by
  refine ⟨rfl, rfl, ?_, ?_, ?_⟩
  · intro h
    exact (addresses_put l d).symm ▸ h
  · show (l.effects ++ es).flatMap (v.log b) = _
    rw [List.flatMap_append, hlog, List.append_nil]
  · intro c' hc'
    change (l.put d).get? b = some c' at hc'
    rw [get?_put] at hc'
    obtain ⟨e, he, rfl⟩ := Option.map_eq_some_iff.mp hc'
    refine ⟨e, he, ?_⟩
    have hb := get?_address he
    -- the connection that is found may be the one that was replaced
    by_cases hab : a = b
    · obtain rfl : c = e := Option.some.inj (hget.symm.trans (hab ▸ he))
      simp only [hb, haddress, hab, beq_self_eq_true, if_true]
      exact hpart hab
    · have hother : (e.info.address == d.info.address) = false := by
        rw [hb, haddress]
        exact beq_false_of_ne (Ne.symm hab)
      simp only [hother, Bool.false_eq_true, if_false]

/-- What is done with one connection after the other: it is handled, and it is noted if it does not
go on. -/
def attend (f : Loop → Address → Loop × Bool) (st : Loop × List Address) (a : Address) :
    Loop × List Address :=
  ((f st.1 a).1, if (f st.1 a).2 then st.2 else st.2 ++ [a])

/-- The list of those to be removed has no part in the handling. -/
theorem foldl_attend_fst (f : Loop → Address → Loop × Bool) (as : List Address)
    (st : Loop × List Address) :
    (as.foldl (attend f) st).1 = as.foldl (fun l a => (f l a).1) st.1 := by
  induction as generalizing st with
  | nil => rfl
  | cons a as ih => exact ih (attend f st a)

/-- Each connection is handled in turn, and then some are removed. -/
theorem forEach_eq (l : Loop) (f : Loop → Address → Loop × Bool) :
    ∃ closed : List Address,
      l.forEach f = closed.foldl remove (l.addresses.foldl (fun l a => (f l a).1) l) :=
  ⟨(l.addresses.foldl (attend f) (l, [])).2,
    congrArg (List.foldl remove · _) (foldl_attend_fst f l.addresses (l, []))⟩

theorem foldl_induct {P : Loop → Prop} {f : Loop → Address → Loop} (hf : ∀ l a, P l → P (f l a))
    (as : List Address) {l : Loop} (h : P l) : P (as.foldl f l) := by
  induction as generalizing l with
  | nil => exact h
  | cons a as ih => exact ih (hf l a h)

/-- What holds of a loop after each connection was handled, and after each was removed, holds after
all were handled. -/
theorem forEach_induct {P : Loop → Prop} {f : Loop → Address → Loop × Bool}
    (hf : ∀ l a, P l → P (f l a).1) (hremove : ∀ l a, P l → P (l.remove a)) {l : Loop} (h : P l) :
    P (l.forEach f) := by
  obtain ⟨closed, heq⟩ := l.forEach_eq f
  rw [heq]
  exact foldl_induct hremove closed (foldl_induct hf l.addresses h)

/-- Handling each connection keeps an aspect if handling one does. -/
theorem keeps_forEach {f : Loop → Address → Loop × Bool} (hf : ∀ l a, Keeps v b l (f l a).1)
    (l : Loop) : Keeps v b l (l.forEach f) :=
  forEach_induct (fun l' a h => h.trans (hf l' a)) (fun l' a h => h.trans (keeps_remove l' a))
    (Keeps.refl l)

theorem keeps_removeAll (as : List Address) (l : Loop) : Keeps v b l (as.foldl remove l) :=
  foldl_induct (fun l' a h => h.trans (keeps_remove l' a)) as (Keeps.refl l)

end Loop

end Parley
