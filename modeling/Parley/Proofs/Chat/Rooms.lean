import Mathlib.Data.List.Nodup
import Parley.Chat

/-!
# The rooms of a chat

Every operation on rooms keeps them tidy, and touches the one room that it names. A line that is
passed on sweeps out the members that have no connection any more.

- `Rooms.Tidy`: a room has one entry, and at least one member, none of them twice.
- `Rooms.removeMember_fst`, `Rooms.removeMember_snd`: taking a member out of a room.
- `Rooms.members_unregisterEverywhere`: leaving all rooms at once.
- `Chat.rooms_forward`, `Chat.members_forward`: the rooms after a line was passed on.
-/

namespace Parley

namespace Rooms

/-! ## Tidy rooms -/

/-- A room has one entry, and at least one member, none of them twice. -/
structure Tidy (r : Rooms) : Prop where
  distinct : r.names.Nodup
  nonempty : ∀ e ∈ r.entries, e.2 ≠ []
  nodup : ∀ e ∈ r.entries, e.2.Nodup

theorem tidy_empty : empty.Tidy :=
  ⟨List.nodup_nil, nofun, nofun⟩

theorem contains_eq_false_iff (r : Rooms) (room : String) :
    r.contains room = false ↔ room ∉ r.names := by
  rw [contains, Option.isSome_eq_false_iff, Option.isNone_iff_eq_none, List.lookup_eq_none_iff,
    names, List.mem_map]
  constructor
  · rintro h ⟨e, he, rfl⟩
    simpa using h e he
  · intro h e he
    rw [bne_iff_ne]
    rintro rfl
    exact h ⟨e, he, rfl⟩

theorem mem_entries_of_lookup {r : Rooms} {room : String} {members : List Address}
    (h : r.entries.lookup room = some members) : (room, members) ∈ r.entries := by
  obtain ⟨front, back, hsplit, -⟩ := List.lookup_eq_some_iff.mp h
  rw [hsplit]
  exact List.mem_append_right _ List.mem_cons_self

theorem Tidy.lookup_of_mem {r : Rooms} (h : r.Tidy) {room : String} {members : List Address}
    (hmem : (room, members) ∈ r.entries) : r.entries.lookup room = some members := by
  obtain ⟨front, back, hsplit⟩ := List.append_of_mem hmem
  refine List.lookup_eq_some_iff.mpr ⟨front, back, hsplit, ?_⟩
  intro e he
  have hdistinct := h.distinct
  rw [names, hsplit, List.map_append, List.map_cons] at hdistinct
  rw [bne_iff_ne]
  rintro rfl
  exact List.disjoint_of_nodup_append hdistinct (List.mem_map_of_mem he) List.mem_cons_self

/-- A room is there while it has members. -/
theorem Tidy.contains_iff {r : Rooms} (h : r.Tidy) (room : String) :
    r.contains room = true ↔ r.members room ≠ [] := by
  unfold contains members
  cases hlookup : r.entries.lookup room with
  | none => simp
  | some members => simpa using h.nonempty _ (mem_entries_of_lookup hlookup)

theorem Tidy.nodup_members {r : Rooms} (h : r.Tidy) (room : String) :
    (r.members room).Nodup := by
  unfold members
  cases hlookup : r.entries.lookup room with
  | none => exact List.nodup_nil
  | some members => exact h.nodup _ (mem_entries_of_lookup hlookup)

theorem names_replaceMembers (l : List (String × List Address)) (room : String)
    (members : List Address) :
    (l.map (replaceMembers room members)).map (·.1) = l.map (·.1) := by
  rw [List.map_map]
  refine List.map_congr_left ?_
  intro e _
  show (replaceMembers room members e).1 = e.1
  unfold replaceMembers
  split <;> rfl

theorem Tidy.put {r : Rooms} (h : r.Tidy) (room : String) {members : List Address}
    (hnodup : members.Nodup) : (r.put room members).Tidy := by
  unfold Rooms.put
  split
  · have hsub : List.Sublist (r.entries.filter (·.1 != room)) r.entries := List.filter_sublist
    refine ⟨h.distinct.sublist (hsub.map _), ?_, ?_⟩
    · exact fun e he => h.nonempty e (hsub.subset he)
    · exact fun e he => h.nodup e (hsub.subset he)
  rename_i hmembers
  have hne : members ≠ [] := by simpa using hmembers
  split
  · -- the members of an entry that is replaced are the new ones
    have hentry : ∀ e ∈ r.entries.map (replaceMembers room members),
        e.2 = members ∨ e ∈ r.entries := by
      intro e he
      obtain ⟨old, hold, rfl⟩ := List.mem_map.mp he
      unfold replaceMembers
      split
      · exact .inl rfl
      · exact .inr hold
    refine ⟨?_, ?_, ?_⟩
    · rw [names, names_replaceMembers]
      exact h.distinct
    · intro e he
      rcases hentry e he with heq | hold
      · rwa [heq]
      · exact h.nonempty e hold
    · intro e he
      rcases hentry e he with heq | hold
      · rwa [heq]
      · exact h.nodup e hold
  · rename_i hnew
    have habsent : room ∉ r.names := (contains_eq_false_iff r room).mp (by simpa using hnew)
    refine ⟨?_, ?_, ?_⟩
    · show (List.map _ (r.entries ++ [(room, members)])).Nodup
      rw [List.map_append]
      refine List.nodup_append'.mpr ⟨h.distinct, List.nodup_singleton _, ?_⟩
      rw [List.map_singleton, List.disjoint_singleton]
      exact habsent
    · intro e he
      rcases List.mem_append.mp he with hold | hlast
      · exact h.nonempty e hold
      · rwa [List.mem_singleton.mp hlast]
    · intro e he
      rcases List.mem_append.mp he with hold | hlast
      · exact h.nodup e hold
      · rwa [List.mem_singleton.mp hlast]

theorem Tidy.register {r : Rooms} (h : r.Tidy) (room : String) (a : Address) :
    (r.register room a).Tidy := by
  unfold Rooms.register
  split
  · exact h
  · rename_i hnew
    have habsent : a ∉ r.members room := by simpa using hnew
    refine h.put room (List.nodup_append'.mpr ⟨h.nodup_members room, List.nodup_singleton a, ?_⟩)
    exact List.disjoint_singleton.mpr habsent

theorem Tidy.unregister {r : Rooms} (h : r.Tidy) (room : String) (a : Address) :
    (r.unregister room a).Tidy := by
  unfold Rooms.unregister
  split
  · exact h.put room ((h.nodup_members room).erase a)
  · exact h

/-! ## Other rooms -/

theorem lookup_put_of_ne (r : Rooms) {room other : String} (members : List Address)
    (h : other ≠ room) : (r.put room members).entries.lookup other = r.entries.lookup other := by
  unfold put
  split
  · exact lookup_filter_of_ne _ h
  split
  · exact lookup_replaceMembers_of_ne _ _ h
  · simp [List.lookup_append, lookup_cons, h]

theorem lookup_register_of_ne (r : Rooms) {room other : String} (a : Address) (h : other ≠ room) :
    (r.register room a).entries.lookup other = r.entries.lookup other := by
  unfold register
  split
  · rfl
  · exact r.lookup_put_of_ne _ h

theorem lookup_unregister_of_ne (r : Rooms) {room other : String} (a : Address)
    (h : other ≠ room) : (r.unregister room a).entries.lookup other = r.entries.lookup other := by
  unfold unregister
  split
  · exact r.lookup_put_of_ne _ h
  · rfl

/-! ## Taking members out -/

/-- The rooms after a member was taken out of one of them. -/
theorem removeMember_fst (r : Rooms) (room : String) (a : Address) :
    (r.removeMember room a).1 = r.unregister room a := by
  unfold removeMember unregister contains members
  cases r.entries.lookup room with
  | none => rfl
  | some members =>
    simp only [Option.isSome_some, if_true, Option.getD_some, List.erase_eq_eraseIdx]
    cases members.idxOf? a with
    | none => rfl
    | some i => rfl

/-- Who is taken out was a member exactly if that is what is told. -/
theorem removeMember_snd (r : Rooms) (room : String) (a : Address) :
    (r.removeMember room a).2 = true ↔ a ∈ r.members room := by
  unfold removeMember members
  cases r.entries.lookup room with
  | none => simp
  | some members =>
    simp only [Option.getD_some]
    cases hfound : members.idxOf? a with
    | none => simpa using List.idxOf?_eq_none_iff.mp hfound
    | some i =>
      obtain ⟨hlt, hget, -⟩ := List.idxOf?_eq_some_iff.mp hfound
      have hmem : a ∈ members := hget ▸ List.getElem_mem hlt
      simpa using hmem

theorem members_unregister {r : Rooms} (h : r.Tidy) (room : String) (a : Address) :
    (r.unregister room a).members room = (r.members room).filter (· != a) := by
  rw [members_unregister_self, (h.nodup_members room).erase_eq_filter]

/-- Somebody leaves some of the rooms. -/
theorem Tidy.leave {r : Rooms} (h : r.Tidy) (a : Address) (rooms : List String) :
    (rooms.foldl (fun r room => r.unregister room a) r).Tidy := by
  induction rooms generalizing r with
  | nil => exact h
  | cons room rooms ih => exact ih (h.unregister room a)

theorem members_leave {r : Rooms} (h : r.Tidy) (a : Address) (rooms : List String)
    (room : String) :
    (rooms.foldl (fun r room => r.unregister room a) r).members room =
      if room ∈ rooms then (r.members room).filter (· != a) else r.members room := by
  induction rooms generalizing r with
  | nil => rfl
  | cons first rooms ih =>
    rw [List.foldl_cons, ih (h.unregister first a)]
    by_cases hfirst : room = first
    · subst hfirst
      rw [members_unregister h, if_pos List.mem_cons_self, List.filter_filter]
      simp only [Bool.and_self, ite_self]
    · rw [members_unregister_of_ne r a hfirst]
      simp only [List.mem_cons, hfirst, false_or]

theorem Tidy.unregisterEverywhere {r : Rooms} (h : r.Tidy) (a : Address) :
    (r.unregisterEverywhere a).Tidy :=
  h.leave a r.names

/-- Who leaves everywhere is taken out of every room, and nobody else is. -/
theorem members_unregisterEverywhere {r : Rooms} (h : r.Tidy) (a : Address) (room : String) :
    (r.unregisterEverywhere a).members room = (r.members room).filter (· != a) := by
  rw [unregisterEverywhere, members_leave h]
  split
  · rfl
  · rename_i habsent
    have hnone := (contains_eq_false_iff r room).mpr habsent
    have hnobody : r.members room = [] := by
      by_contra hne
      rw [(h.contains_iff room).mpr hne] at hnone
      cases hnone
    rw [hnobody, List.filter_nil]

/-! ## Sweeping -/

/-- Takes some members out of a room. -/
def sweep (r : Rooms) (room : String) (gone : List Address) : Rooms :=
  gone.foldl (fun r a => r.unregister room a) r

theorem Tidy.sweep {r : Rooms} (h : r.Tidy) (room : String) (gone : List Address) :
    (r.sweep room gone).Tidy := by
  induction gone generalizing r with
  | nil => exact h
  | cons a gone ih => exact ih (h.unregister room a)

theorem members_sweep {r : Rooms} (h : r.Tidy) (room : String) (gone : List Address) :
    (r.sweep room gone).members room = (r.members room).filter (· ∉ gone) := by
  induction gone generalizing r with
  | nil => simp [Rooms.sweep]
  | cons a gone ih =>
    show ((r.unregister room a).sweep room gone).members room = _
    rw [ih (h.unregister room a), members_unregister h, List.filter_filter]
    refine List.filter_congr ?_
    intro b _
    rw [Bool.eq_iff_iff]
    simp [and_comm]

theorem lookup_sweep_of_ne (r : Rooms) {room other : String} (gone : List Address)
    (h : other ≠ room) : (r.sweep room gone).entries.lookup other = r.entries.lookup other := by
  induction gone generalizing r with
  | nil => rfl
  | cons a gone ih => exact (ih (r.unregister room a)).trans (r.lookup_unregister_of_ne a h)

end Rooms

namespace Chat

/-- Passing a line on to one member leaves the connections as they are, and the room without the
member if it has no connection. -/
theorem forwardTo_spec (m : ChatMessage) (site : Site) (rooms : Rooms) (a : Address) :
    (forwardTo m (site, rooms) a).1.net.table = site.net.table ∧
      (forwardTo m (site, rooms) a).2 =
        if site.net.isConnected a then rooms else rooms.unregister m.room a := by
  unfold forwardTo
  cases hsend : site.net.send a (.chat m) with
  | ok net =>
    obtain ⟨bytes, -, rfl⟩ := Network.send_ok hsend
    have hconnected : site.net.isConnected a = true := Network.isConnected_of_send hsend
    simp [hsend, hconnected]
  | error e =>
    by_cases hconnected : site.net.isConnected a = true <;> simp [hsend, hconnected, Site.note]

/-- Passing a line on sweeps out the members without a connection. -/
theorem rooms_forward (m : ChatMessage) (site : Site) (rooms : Rooms) :
    (forward m site rooms).2 =
      rooms.sweep m.room ((rooms.members m.room).filter (!site.net.isConnected ·)) := by
  unfold forward Rooms.sweep
  generalize rooms.members m.room = members
  induction members generalizing site rooms with
  | nil => rfl
  | cons a members ih =>
    obtain ⟨htable, hrooms⟩ := forwardTo_spec m site rooms a
    have hconnected : (forwardTo m (site, rooms) a).1.net.isConnected = site.net.isConnected := by
      unfold Network.isConnected
      rw [htable]
    rw [List.foldl_cons, ← Prod.eta (forwardTo m (site, rooms) a), ih, hconnected, hrooms,
      List.filter_cons]
    cases site.net.isConnected a <;> rfl

/-- The members that stay are those that have a connection. -/
theorem members_forward {rooms : Rooms} (h : rooms.Tidy) (m : ChatMessage) (site : Site) :
    (forward m site rooms).2.members m.room =
      (rooms.members m.room).filter (site.net.isConnected ·) := by
  rw [rooms_forward, Rooms.members_sweep h]
  refine List.filter_congr ?_
  intro a ha
  simp [ha]

end Chat

end Parley
