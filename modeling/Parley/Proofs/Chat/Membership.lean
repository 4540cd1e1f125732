import Mathlib.Data.List.Induction
import Parley.Proofs.Chat.Rooms

/-!
# Who is in a room

The rooms are told by what was asked of them: who is in a room has registered to it, and nothing
that came later has ended that. Members stand in the order in which their memberships began.

- `Chat.Call`, `Rooms.perform`: what is asked of the rooms, and the rooms afterwards.
- `Rooms.perform_eq`: a call is one of five changes.
- `Chat.Stands`, `Chat.Began`: the call with which a membership began that has not ended.
- `Chat.Listed.enter`, `Chat.Listed.lose`: what a call does to the list of members.
- `Chat.rooms_follow_calls`: the rooms after any calls.
-/

namespace Parley

namespace Chat

/-- What is asked of the rooms of a chat. A message comes with the network as it is then. -/
inductive Call
  | register (room : String) (a : Address)
  | unregister (room : String) (a : Address)
  | unregisterEverywhere (a : Address)
  | message (site : Site) (sender : Address) (m : Message)

/-- What a call means for the rooms. -/
inductive Change
  | enter (room : String) (a : Address)
  | leave (room : String) (a : Address)
  | leaveAll (a : Address)
  /-- Members without a connection are swept out of a room. -/
  | sweep (room : String) (net : Network)
  | nothing

def Call.change : Call → Change
  | register room a => .enter room a
  | unregister room a => .leave room a
  | unregisterEverywhere a => .leaveAll a
  | message site sender (.chat m) =>
    match m.kind with
    | .register => .enter m.room sender
    | .unregister => .leave m.room sender
    | .message => if site.net.role = .server then .sweep m.room site.net else .nothing
  | message .. => .nothing

/-- Nothing but leaving everywhere means that. -/
theorem Call.eq_of_change {c : Call} {a : Address} (h : c.change = .leaveAll a) :
    c = .unregisterEverywhere a := by
  cases c with
  | unregisterEverywhere b =>
    cases h
    rfl
  | register room b => cases h
  | unregister room b => cases h
  | message site sender m =>
    cases m with
    | chat m =>
      obtain ⟨kind, msg, room⟩ := m
      cases kind with
      | register => cases h
      | unregister => cases h
      | message =>
        unfold Call.change at h
        dsimp only at h
        split at h <;> cases h
    | _ => cases h

namespace Change

/-- The one room that a change is about. -/
def room? : Change → Option String
  | enter room _ | leave room _ | sweep room _ => some room
  | leaveAll _ | nothing => none

/-- Who enters which room. -/
def entry? : Change → Option (String × Address)
  | enter room a => some (room, a)
  | _ => none

/-- Whether a change ends the membership of a connection in a room. -/
def ends (room : String) (a : Address) : Change → Bool
  | leave r b => r == room && b == a
  | leaveAll b => b == a
  | sweep r net => r == room && !net.isConnected a
  | enter .. | nothing => false

/-- Where somebody enters, nobody's membership is ended. -/
theorem ends_of_entry {c : Change} {e : String × Address} (h : c.entry? = some e) (room : String)
    (a : Address) : c.ends room a = false := by
  cases c with
  | enter r b => rfl
  | _ => cases h

end Change

end Chat

open Chat (Call Change)

namespace Rooms

/-- The rooms after a call. -/
def perform (r : Rooms) : Call → Rooms
  | .register room a => r.register room a
  | .unregister room a => (r.removeMember room a).1
  | .unregisterEverywhere a => r.unregisterEverywhere a
  | .message site sender m => (Chat.handle site r sender m).2.1

/-- The rooms after calls one after another. -/
def after (r : Rooms) (calls : List Call) : Rooms :=
  calls.foldl perform r

/-- The rooms after a change. -/
def change (r : Rooms) : Change → Rooms
  | .enter room a => r.register room a
  | .leave room a => r.unregister room a
  | .leaveAll a => r.unregisterEverywhere a
  | .sweep room net => r.sweep room ((r.members room).filter (!net.isConnected ·))
  | .nothing => r

/-- A call does to the rooms what it means for them. -/
theorem perform_eq (r : Rooms) (c : Call) : r.perform c = r.change c.change := by
  cases c with
  | register room a => rfl
  | unregister room a => exact r.removeMember_fst room a
  | unregisterEverywhere a => rfl
  | message site sender m =>
    cases m with
    | chat m =>
      obtain ⟨kind, msg, room⟩ := m
      cases kind with
      | register => rfl
      | unregister => rfl
      | message =>
        by_cases hserver : site.net.role = .server
        · simp only [perform, Chat.handle, Chat.handleWith, Chat.passOn, Call.change, if_pos hserver]
          exact Chat.rooms_forward _ _ _
        · simp only [perform, Chat.handle, Chat.handleWith, Chat.passOn, Call.change, if_neg hserver]
          rfl
    | _ => rfl

variable {r : Rooms}

theorem Tidy.change (h : r.Tidy) (c : Change) : (r.change c).Tidy := by
  cases c with
  | enter room a => exact h.register room a
  | leave room a => exact h.unregister room a
  | leaveAll a => exact h.unregisterEverywhere a
  | sweep room net => exact h.sweep room _
  | nothing => exact h

/-- A change that is about one room leaves the others as they are. -/
theorem lookup_change_of_ne (r : Rooms) {c : Change} {other : String}
    (hall : ∀ a, c ≠ .leaveAll a) (h : c.room? ≠ some other) :
    (r.change c).entries.lookup other = r.entries.lookup other := by
  cases c with
  | enter room a => exact r.lookup_register_of_ne a fun heq => h (congrArg some heq.symm)
  | leave room a => exact r.lookup_unregister_of_ne a fun heq => h (congrArg some heq.symm)
  | leaveAll a => exact absurd rfl (hall a)
  | sweep room net => exact r.lookup_sweep_of_ne _ fun heq => h (congrArg some heq.symm)
  | nothing => rfl

/-- Who enters a room comes last, unless it is a member already. -/
theorem members_change_of_entry (r : Rooms) {c : Change} {room : String} {a : Address}
    (h : c.entry? = some (room, a)) :
    (r.change c).members room =
      if a ∈ r.members room then r.members room else r.members room ++ [a] := by
  cases c with
  | enter room' a' =>
    cases h
    exact r.members_register_self room a
  | _ => cases h

/-- A room that nobody enters loses the members whose membership is ended. -/
theorem members_change_of_no_entry (h : r.Tidy) {c : Change} {room : String}
    (hnone : ∀ a, c.entry? ≠ some (room, a)) :
    (r.change c).members room = (r.members room).filter (!c.ends room ·) := by
  have hkept : ∀ {d : Change}, (∀ a, d.ends room a = false) →
      (r.members room).filter (!d.ends room ·) = r.members room := by
    intro d hd
    exact List.filter_eq_self.mpr fun a _ => by rw [hd a, Bool.not_false]
  cases c with
  | enter room' a' =>
    have hne : room ≠ room' := fun heq => hnone a' (heq ▸ rfl)
    rw [hkept fun _ => rfl]
    exact r.members_register_of_ne a' hne
  | leave room' a' =>
    by_cases hroom : room = room'
    · subst hroom
      refine (members_unregister h room a').trans (List.filter_congr ?_)
      intro b _
      simp [Change.ends, bne, Bool.beq_comm]
    · rw [hkept]
      · exact r.members_unregister_of_ne a' hroom
      · intro b
        simp [Change.ends, Ne.symm hroom]
  | leaveAll a' =>
    refine (members_unregisterEverywhere h a' room).trans (List.filter_congr ?_)
    intro b _
    simp [Change.ends, bne, Bool.beq_comm]
  | sweep room' net =>
    by_cases hroom : room = room'
    · subst hroom
      refine (members_sweep h room _).trans (List.filter_congr ?_)
      intro b hb
      simp [Change.ends, hb]
    · rw [hkept]
      · unfold members
        exact congrArg (·.getD []) (r.lookup_sweep_of_ne _ hroom)
      · intro b
        simp [Change.ends, Ne.symm hroom]
  | nothing => exact (hkept fun _ => rfl).symm

theorem after_snoc (r : Rooms) (calls : List Call) (c : Call) :
    r.after (calls ++ [c]) = (r.after calls).change c.change := by
  rw [after, List.foldl_append, List.foldl_cons, List.foldl_nil, perform_eq]
  rfl

theorem Tidy.after (h : r.Tidy) (calls : List Call) : (r.after calls).Tidy := by
  induction calls using List.reverseRecOn with
  | nil => exact h
  | append_singleton calls c ih =>
    rw [after_snoc]
    exact ih.change c.change

end Rooms

namespace Chat

/-! ## When a membership began -/

/-- With the call at a place somebody enters a room, and no later call ends that. -/
def Stands (calls : List Call) (room : String) (a : Address) (i : Nat) : Prop :=
  (∃ c, calls[i]? = some c ∧ c.change.entry? = some (room, a)) ∧
    ∀ d ∈ calls.drop (i + 1), d.change.ends room a = false

/-- A membership that has not ended began with the first such call: entering again changes
nothing. -/
def Began (calls : List Call) (room : String) (a : Address) (i : Nat) : Prop :=
  Stands calls room a i ∧ ∀ j < i, ¬ Stands calls room a j

variable {calls : List Call} {room : String} {a : Address}

theorem Stands.lt_length {i : Nat} (h : Stands calls room a i) : i < calls.length := by
  obtain ⟨⟨c, hget, -⟩, -⟩ := h
  exact (List.getElem?_eq_some_iff.mp hget).1

/-- What one more call changes. -/
theorem stands_snoc {c : Call} {i : Nat} :
    Stands (calls ++ [c]) room a i ↔
      (Stands calls room a i ∧ c.change.ends room a = false) ∨
        (i = calls.length ∧ c.change.entry? = some (room, a)) := by
  rcases Nat.lt_trichotomy i calls.length with hlt | rfl | hgt
  · have hne : i ≠ calls.length := Nat.ne_of_lt hlt
    simp only [Stands, List.getElem?_append_left hlt, List.drop_append_of_le_length hlt,
      List.mem_append, List.mem_singleton, hne, false_and, or_false]
    constructor
    · rintro ⟨hentry, hends⟩
      exact ⟨⟨hentry, fun d hd => hends d (.inl hd)⟩, hends c (.inr rfl)⟩
    · rintro ⟨⟨hentry, hends⟩, hlast⟩
      refine ⟨hentry, ?_⟩
      rintro d (hd | rfl)
      · exact hends d hd
      · exact hlast
  · have hnot : ¬ Stands calls room a calls.length := fun h => Nat.lt_irrefl _ h.lt_length
    simp [Stands]
  · have hnot : ¬ Stands calls room a i := fun h => Nat.lt_asymm hgt h.lt_length
    have hnew : ¬ Stands (calls ++ [c]) room a i := by
      intro h
      have hlt := h.lt_length
      rw [List.length_append, List.length_singleton] at hlt
      omega
    simp [hnot, hnew, Nat.ne_of_gt hgt]

/-- Every registration that stands has a first one. -/
theorem exists_began {i : Nat} (h : Stands calls room a i) : ∃ j, Began calls room a j := by
  induction i using Nat.strongRecOn with
  | ind i ih =>
    by_cases hearlier : ∃ j, j < i ∧ Stands calls room a j
    · obtain ⟨j, hj, hstands⟩ := hearlier
      exact ih j hj hstands
    · exact ⟨i, h, fun j hj hstands => hearlier ⟨j, hj, hstands⟩⟩

/-- A membership goes on, ends, or begins with the last call. -/
theorem began_snoc {c : Call} {i : Nat} :
    Began (calls ++ [c]) room a i ↔
      (Began calls room a i ∧ c.change.ends room a = false) ∨
        (i = calls.length ∧ c.change.entry? = some (room, a) ∧ ∀ j, ¬ Began calls room a j) := by
  constructor
  · rintro ⟨hstands, hfirst⟩
    rcases stands_snoc.mp hstands with ⟨hold, hends⟩ | ⟨rfl, hentry⟩
    · refine .inl ⟨⟨hold, ?_⟩, hends⟩
      exact fun j hj hearlier => hfirst j hj (stands_snoc.mpr (.inl ⟨hearlier, hends⟩))
    · refine .inr ⟨rfl, hentry, ?_⟩
      intro j hj
      have hends := Change.ends_of_entry hentry room a
      exact hfirst j hj.1.lt_length (stands_snoc.mpr (.inl ⟨hj.1, hends⟩))
  · rintro (⟨⟨hold, hfirst⟩, hends⟩ | ⟨rfl, hentry, hnone⟩)
    · refine ⟨stands_snoc.mpr (.inl ⟨hold, hends⟩), ?_⟩
      intro j hj hstands
      rcases stands_snoc.mp hstands with ⟨hearlier, -⟩ | ⟨rfl, -⟩
      · exact hfirst j hj hearlier
      · exact Nat.lt_asymm hj hold.lt_length
    · refine ⟨stands_snoc.mpr (.inr ⟨rfl, hentry⟩), ?_⟩
      intro j hj hstands
      rcases stands_snoc.mp hstands with ⟨hearlier, -⟩ | ⟨rfl, -⟩
      · obtain ⟨k, hk⟩ := exists_began hearlier
        exact hnone k hk
      · exact Nat.lt_irrefl _ hj

/-! ## Members as their memberships began -/

/-- Those whose membership of a room has not ended, in the order in which it began. -/
structure Listed (calls : List Call) (room : String) (members : List Address) : Prop where
  mem_iff : ∀ a, a ∈ members ↔ ∃ i, Began calls room a i
  ordered : members.Pairwise fun a b =>
    ∃ i j, Began calls room a i ∧ Began calls room b j ∧ i < j

namespace Listed

variable {members : List Address} {c : Call}

/-- Somebody enters a room. -/
theorem enter (h : Listed calls room members) (hentry : c.change.entry? = some (room, a)) :
    Listed (calls ++ [c]) room (if a ∈ members then members else members ++ [a]) := by
  have hends : ∀ b, c.change.ends room b = false := Change.ends_of_entry hentry room
  have hgoes : ∀ {b i}, Began calls room b i → Began (calls ++ [c]) room b i :=
    fun hb => began_snoc.mpr (.inl ⟨hb, hends _⟩)
  have hordered : members.Pairwise fun a b =>
      ∃ i j, Began (calls ++ [c]) room a i ∧ Began (calls ++ [c]) room b j ∧ i < j := by
    refine h.ordered.imp ?_
    rintro b d ⟨i, j, hi, hj, hlt⟩
    exact ⟨i, j, hgoes hi, hgoes hj, hlt⟩
  by_cases hmem : a ∈ members
  · rw [if_pos hmem]
    refine ⟨?_, hordered⟩
    intro b
    rw [h.mem_iff]
    refine exists_congr fun i => ?_
    rw [began_snoc, hends]
    constructor
    · exact fun hb => .inl ⟨hb, rfl⟩
    · rintro (⟨hb, -⟩ | ⟨-, hb, hnone⟩)
      · exact hb
      · rw [hentry] at hb
        cases hb
        obtain ⟨k, hk⟩ := (h.mem_iff a).mp hmem
        exact absurd hk (hnone k)
  · rw [if_neg hmem]
    have hnone : ∀ j, ¬ Began calls room a j := fun j hj => hmem ((h.mem_iff a).mpr ⟨j, hj⟩)
    have hnew : Began (calls ++ [c]) room a calls.length :=
      began_snoc.mpr (.inr ⟨rfl, hentry, hnone⟩)
    refine ⟨?_, ?_⟩
    · intro b
      rw [List.mem_append, List.mem_singleton, h.mem_iff]
      constructor
      · rintro (⟨i, hi⟩ | rfl)
        · exact ⟨i, hgoes hi⟩
        · exact ⟨_, hnew⟩
      · rintro ⟨i, hi⟩
        rcases began_snoc.mp hi with ⟨hold, -⟩ | ⟨-, hb, -⟩
        · exact .inl ⟨i, hold⟩
        · rw [hentry] at hb
          cases hb
          exact .inr rfl
    · refine List.pairwise_append.mpr ⟨hordered, List.pairwise_singleton _ _, ?_⟩
      intro b hb d hd
      obtain ⟨i, hi⟩ := (h.mem_iff b).mp hb
      rw [List.mem_singleton.mp hd]
      exact ⟨i, _, hgoes hi, hnew, hi.1.lt_length⟩

/-- Nobody enters a room, and some memberships end. -/
theorem lose (h : Listed calls room members)
    (hnone : ∀ a, c.change.entry? ≠ some (room, a)) :
    Listed (calls ++ [c]) room (members.filter (!c.change.ends room ·)) := by
  have hbegan : ∀ b i, Began (calls ++ [c]) room b i ↔
      Began calls room b i ∧ c.change.ends room b = false := by
    intro b i
    rw [began_snoc]
    exact or_iff_left fun hentry => hnone b hentry.2.1
  refine ⟨?_, ?_⟩
  · intro b
    rw [List.mem_filter, h.mem_iff, Bool.not_eq_true']
    simp only [hbegan, exists_and_right]
  · have hstays : members.Pairwise fun a b => c.change.ends room a = false →
        c.change.ends room b = false →
          ∃ i j, Began (calls ++ [c]) room a i ∧ Began (calls ++ [c]) room b j ∧ i < j := by
      refine h.ordered.imp ?_
      rintro b d ⟨i, j, hi, hj, hlt⟩ hb hd
      exact ⟨i, j, (hbegan b i).mpr ⟨hi, hb⟩, (hbegan d j).mpr ⟨hj, hd⟩, hlt⟩
    refine List.pairwise_filter.mpr (hstays.imp ?_)
    intro b d hbd hb hd
    exact hbd (by simpa using hb) (by simpa using hd)

end Listed

/-- After any calls, every room lists its members as they began. -/
theorem listed_after (calls : List Call) (room : String) :
    Listed calls room ((Rooms.empty.after calls).members room) := by
  induction calls using List.reverseRecOn with
  | nil =>
    refine ⟨?_, List.Pairwise.nil⟩
    intro a
    refine ⟨nofun, ?_⟩
    rintro ⟨i, hi⟩
    exact absurd hi.1.lt_length (Nat.not_lt_zero i)
  | append_singleton calls c ih =>
    rw [Rooms.after_snoc]
    by_cases hentry : ∃ a, c.change.entry? = some (room, a)
    · obtain ⟨a, hentry⟩ := hentry
      rw [Rooms.members_change_of_entry _ hentry]
      exact ih.enter hentry
    · have hnone := not_exists.mp hentry
      rw [Rooms.members_change_of_no_entry (Rooms.tidy_empty.after calls) hnone]
      exact ih.lose hnone

/-- After any calls the rooms are those with members, and each of them lists, once each and in the
order in which their memberships began, those who have registered to it and were neither
unregistered nor swept out since. Registering a member again changes nothing. Taking a member out
tells whether it was one. A call that is about one room leaves the others as they are, and leaving
everywhere takes just the one who leaves out of each room. -/
theorem rooms_follow_calls (calls : List Call) :
    (∀ e ∈ (Rooms.empty.after calls).entries,
      e.2 ≠ [] ∧ e.2.Nodup ∧ e.2 = (Rooms.empty.after calls).members e.1) ∧
    (∀ room a, a ∈ (Rooms.empty.after calls).members room ↔ ∃ i, Began calls room a i) ∧
    (∀ room, ((Rooms.empty.after calls).members room).Pairwise fun a b =>
      ∃ i j, Began calls room a i ∧ Began calls room b j ∧ i < j) ∧
    (∀ room, (Rooms.empty.after calls).contains room = true ↔
      (Rooms.empty.after calls).members room ≠ []) ∧
    (∀ room a, a ∈ (Rooms.empty.after calls).members room →
      (Rooms.empty.after calls).register room a = Rooms.empty.after calls) ∧
    (∀ room a, ((Rooms.empty.after calls).removeMember room a).2 = true ↔
      a ∈ (Rooms.empty.after calls).members room) ∧
    (∀ c : Call, ∀ other, (∀ a, c ≠ .unregisterEverywhere a) → c.change.room? ≠ some other →
      ((Rooms.empty.after calls).perform c).entries.lookup other =
        (Rooms.empty.after calls).entries.lookup other) ∧
    ∀ a room, ((Rooms.empty.after calls).unregisterEverywhere a).members room =
      ((Rooms.empty.after calls).members room).filter (· != a) := by
  have htidy : (Rooms.empty.after calls).Tidy := Rooms.tidy_empty.after calls
  have hlisted := listed_after calls
  refine ⟨?_, fun room => (hlisted room).mem_iff, fun room => (hlisted room).ordered,
    htidy.contains_iff, ?_, Rooms.removeMember_snd _, ?_, ?_⟩
  · intro e he
    refine ⟨htidy.nonempty e he, htidy.nodup e he, ?_⟩
    rw [Rooms.members, htidy.lookup_of_mem he]
    rfl
  · intro room a ha
    rw [Rooms.register, if_pos (by simpa using ha)]
  · intro c other hall hroom
    rw [Rooms.perform_eq]
    exact Rooms.lookup_change_of_ne _ (fun a heq => hall a (Call.eq_of_change heq)) hroom
  · exact fun a room => Rooms.members_unregisterEverywhere htidy a room

/-! ## One who is swept out and comes back -/

def guest : Address := .ipv4 10 0 0 1 1

def regular : Address := .ipv4 10 0 0 2 2

/-- The end of a server to which only the regular is connected. -/
def hall : Site := .new ((Network.new .server .default (.ipv4 10 8 8 8 8) none).connect regular)

/-- The guest is the first in two rooms. A line to the second one sweeps it out, and it registers
again. -/
def evening : List Call :=
  [.register "x" guest, .register "y" guest, .register "y" regular, .register "y" guest,
    .message hall regular (.chat (.message "hi" "y")), .message hall guest (.chat (.register "y"))]

/-- The guest is the last in the second room then, and still in the first, which what happens in the
second does not change. -/
theorem guest_comes_back :
    ("y", [regular, guest]) ∈ (Rooms.empty.after evening).entries ∧
      [regular, guest].Nodup ∧ [regular, guest] = (Rooms.empty.after evening).members "y" ∧
      (∃ i j, Began evening "y" regular i ∧ Began evening "y" guest j ∧ i < j) ∧
      (Rooms.empty.after evening).register "y" guest = Rooms.empty.after evening ∧
      ((Rooms.empty.after evening).removeMember "y" guest).2 = true ∧
      ((Rooms.empty.after evening).perform (.unregister "y" guest)).entries.lookup "x" =
        some [guest] := by
  obtain ⟨hentries, hmem, hordered, -, hagain, hremove, hother, -⟩ := rooms_follow_calls evening
  have hentry : ("y", [regular, guest]) ∈ (Rooms.empty.after evening).entries := by decide
  obtain ⟨-, hnodup, hmembers⟩ := hentries _ hentry
  have hguest : guest ∈ (Rooms.empty.after evening).members "y" := by decide
  have hboth := hordered "y"
  rw [← hmembers, List.pairwise_pair] at hboth
  refine ⟨hentry, hnodup, hmembers, hboth, hagain "y" guest hguest,
    (hremove "y" guest).mpr hguest, ?_⟩
  rw [hother (.unregister "y" guest) "x" nofun (by decide)]
  decide

end Chat

end Parley
