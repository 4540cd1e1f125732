import Parley.Network.Basic

/-!
# Chat rooms

The server keeps the members of each room and passes a line for a room on to all of them, its
sender included. A room exists while it has members.

- `Rooms.members` is the view of the rooms; `Rooms.register` and `Rooms.unregister` change the one
  room they name.
- `Chat.forward` passes a line on and drops the members it finds without a connection.
- `Chat.handleWith` handles a message and calls a listener with each line; `Chat.handle` has one that
  does no more than remember it.
-/

namespace Parley

/-- The rooms with their members, each in the order of joining. -/
structure Rooms where
  entries : List (String × List Address)
deriving DecidableEq, Repr

namespace Rooms

def empty : Rooms := ⟨[]⟩

instance : Inhabited Rooms := ⟨empty⟩

/-- The members of a room, none if it does not exist. -/
def members (r : Rooms) (room : String) : List Address :=
  (r.entries.lookup room).getD []

def contains (r : Rooms) (room : String) : Bool :=
  (r.entries.lookup room).isSome

def names (r : Rooms) : List String :=
  r.entries.map (·.1)

/-- An entry with other members, if it is the one of a room. -/
def replaceMembers (room : String) (members : List Address) (e : String × List Address) :
    String × List Address :=
  if e.1 == room then (e.1, members) else e

/-- Gives a room the members; without members it is no room any more. -/
def put (r : Rooms) (room : String) (members : List Address) : Rooms :=
  if members.isEmpty then ⟨r.entries.filter (·.1 != room)⟩
  else if r.contains room then ⟨r.entries.map (replaceMembers room members)⟩
  else ⟨r.entries ++ [(room, members)]⟩

/-- Adds a member to a room, if it is not one already. -/
def register (r : Rooms) (room : String) (a : Address) : Rooms :=
  if (r.members room).contains a then r else r.put room (r.members room ++ [a])

def unregister (r : Rooms) (room : String) (a : Address) : Rooms :=
  if r.contains room then r.put room ((r.members room).erase a) else r

/-- Takes a member out of a room, and tells whether it was one. -/
def removeMember (r : Rooms) (room : String) (a : Address) : Rooms × Bool :=
  match r.entries.lookup room with
  | none => (r, false)
  | some members =>
    match members.idxOf? a with
    | none => (r.put room members, false)
    | some i => (r.put room (members.eraseIdx i), true)

def unregisterEverywhere (r : Rooms) (a : Address) : Rooms :=
  r.names.foldl (fun r room => r.unregister room a) r

/-! ## The view after each operation -/

theorem lookup_cons (name other : String) (ms : List Address) (l : List (String × List Address)) :
    List.lookup other ((name, ms) :: l) = if other = name then some ms else l.lookup other := by
  by_cases h : other = name
  · rw [h, List.lookup_cons_self, if_pos rfl]
  · have hne : (other == name) = false := by simpa using h
    rw [List.lookup_cons, hne, if_neg h]

theorem lookup_filter_self (l : List (String × List Address)) (room : String) :
    (l.filter (·.1 != room)).lookup room = none := by
  induction l with
  | nil => rfl
  | cons e l ih =>
    obtain ⟨name, ms⟩ := e
    by_cases he : name = room
    · simp [he, ih]
    · simp [lookup_cons, he, Ne.symm he, ih]

theorem lookup_filter_of_ne (l : List (String × List Address)) {room other : String}
    (h : other ≠ room) : (l.filter (·.1 != room)).lookup other = l.lookup other := by
  induction l with
  | nil => rfl
  | cons e l ih =>
    obtain ⟨name, ms⟩ := e
    by_cases he : name = room
    · subst he
      simp [lookup_cons, h, ih]
    · simp [lookup_cons, he, ih]

theorem lookup_replaceMembers_self (l : List (String × List Address)) (room : String)
    (members : List Address) :
    (l.map (replaceMembers room members)).lookup room = (l.lookup room).map fun _ => members := by
  induction l with
  | nil => rfl
  | cons e l ih =>
    obtain ⟨name, ms⟩ := e
    by_cases he : name = room
    · simp [replaceMembers, he]
    · simp [replaceMembers, lookup_cons, he, Ne.symm he, ih]

theorem lookup_replaceMembers_of_ne (l : List (String × List Address)) {room other : String}
    (members : List Address) (h : other ≠ room) :
    (l.map (replaceMembers room members)).lookup other = l.lookup other := by
  induction l with
  | nil => rfl
  | cons e l ih =>
    obtain ⟨name, ms⟩ := e
    by_cases he : name = room
    · subst he
      simp [replaceMembers, lookup_cons, h, ih]
    · simp [replaceMembers, lookup_cons, he, ih]

@[simp] theorem members_put_self (r : Rooms) (room : String) (members : List Address) :
    (r.put room members).members room = members := by
  unfold put
  split
  · rename_i h
    rw [List.isEmpty_iff] at h
    simp only [Rooms.members, lookup_filter_self, h, Option.getD_none]
  split
  · rename_i h
    obtain ⟨ms, hms⟩ := Option.isSome_iff_exists.1 h
    simp only [Rooms.members, lookup_replaceMembers_self, hms, Option.map_some, Option.getD_some]
  · rename_i h
    have hn : r.entries.lookup room = none := Option.not_isSome_iff_eq_none.1 h
    simp [Rooms.members, List.lookup_append, hn]

theorem members_put_of_ne (r : Rooms) {room other : String} (members : List Address)
    (h : other ≠ room) : (r.put room members).members other = r.members other := by
  unfold put
  split
  · simp only [Rooms.members, lookup_filter_of_ne _ h]
  split
  · simp only [Rooms.members, lookup_replaceMembers_of_ne _ _ h]
  · simp [Rooms.members, List.lookup_append, lookup_cons, h]

/-- Registering adds a new member behind the others and changes nothing for an old one. -/
theorem members_register_self (r : Rooms) (room : String) (a : Address) :
    (r.register room a).members room =
      if a ∈ r.members room then r.members room else r.members room ++ [a] := by
  unfold register
  by_cases h : a ∈ r.members room <;> simp [h]

theorem members_register_of_ne (r : Rooms) {room other : String} (a : Address)
    (h : other ≠ room) : (r.register room a).members other = r.members other := by
  unfold register
  split
  · rfl
  · exact r.members_put_of_ne _ h

theorem members_unregister_self (r : Rooms) (room : String) (a : Address) :
    (r.unregister room a).members room = (r.members room).erase a := by
  unfold unregister
  split
  · simp
  · rename_i h
    have hn : r.entries.lookup room = none := Option.not_isSome_iff_eq_none.1 h
    simp [Rooms.members, hn]

theorem members_unregister_of_ne (r : Rooms) {room other : String} (a : Address)
    (h : other ≠ room) : (r.unregister room a).members other = r.members other := by
  unfold unregister
  split
  · exact r.members_put_of_ne _ h
  · rfl

end Rooms

/-- A line of text as a listener hears it. -/
structure Heard where
  msg : String
  room : String
deriving DecidableEq, Repr

namespace Chat

def join (net : Network) (room : String) : Except Error Network :=
  net.sendToServer (.chat (.register room))

def leave (net : Network) (room : String) : Except Error Network :=
  net.sendToServer (.chat (.unregister room))

def say (net : Network) (msg room : String) : Except Error Network :=
  net.sendToServer (.chat (.message msg room))

/-- Passes a line on to one member. A member without a connection leaves the room; any other
failure is written down and the member stays. -/
def forwardTo (m : ChatMessage) (state : Site × Rooms) (member : Address) : Site × Rooms :=
  let (site, rooms) := state
  match site.net.send member (.chat m) with
  | .ok net => ({ site with net := net }, rooms)
  | .error e =>
    if site.net.isConnected member then (site.note (.chatNotForwarded member e), rooms)
    else (site, rooms.unregister m.room member)

def forward (m : ChatMessage) (site : Site) (rooms : Rooms) : Site × Rooms :=
  (rooms.members m.room).foldl (forwardTo m) (site, rooms)

/-- A server passes a line on, a client does not. -/
def passOn (m : ChatMessage) (site : Site) (rooms : Rooms) : Site × Rooms :=
  if site.net.role = .server then forward m site rooms else (site, rooms)

/-- What hears the lines of a chat. When it is called it may use the network and the rooms as they
are then, and it has a memory of its own. -/
abbrev Listener (ρ : Type) := Heard → Site × Rooms × ρ → Site × Rooms × ρ

/-- Handles a message from `sender`. A line is passed on by a server, and then the listener is called
with it, at every node. -/
def handleWith {ρ : Type} (listener : Listener ρ) (site : Site) (rooms : Rooms) (memory : ρ)
    (sender : Address) (m : Message) : Site × Rooms × ρ :=
  match m with
  | .chat m =>
    match m.kind with
    | .register => (site, rooms.register m.room sender, memory)
    | .unregister => (site, rooms.unregister m.room sender, memory)
    | .message =>
      let (site, rooms) := passOn m site rooms
      listener ⟨m.msg, m.room⟩ (site, rooms, memory)
  | _ => (site, rooms, memory)

/-- Remembers a line, and does nothing else. -/
def remember : Listener (Option Heard) :=
  fun line (site, rooms, _) => (site, rooms, some line)

/-- Handles a message from `sender` and returns the line that is heard, if it is one. -/
def handle (site : Site) (rooms : Rooms) (sender : Address) (m : Message) :
    Site × Rooms × Option Heard :=
  handleWith remember site rooms none sender m

end Chat

end Parley
