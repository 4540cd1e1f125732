import Parley.Network.Basic

/-!
# Requests that wait for an answer

A request carries a response id out of a pool; the answer brings the id back and is handed to
whoever asked. Whoever asks is known by a ticket of its own choice.

- Sending a request is four steps: `Requests.forget`, `Requests.reserve`, `Requests.dispatch` and, if
  that fails, `Requests.remove`. Other threads may come between them.
- `Requests.send` is all of them in a row.
-/

namespace Parley

/-- Who waits for an answer. -/
abbrev Ticket := Nat

/-- A request that waits. -/
structure Pending where
  id : ResponseId
  peer : Address
  ticket : Ticket
deriving DecidableEq, Repr

/-- The requests that wait, and the ids that are taken. -/
structure Requests where
  taken : List ResponseId
  entries : List Pending
deriving DecidableEq, Repr

namespace Requests

def empty : Requests := ⟨[], []⟩

instance : Inhabited Requests := ⟨empty⟩

/-- The lowest id from 1 on that is not taken. One of as many numbers as are taken, plus one, is
free; none of them is an id once all ids are taken. -/
def freeId? (r : Requests) : Option ResponseId :=
  ((List.range (r.taken.length + 1)).find? fun n => !r.taken.contains (UInt32.ofNat (n + 1))).bind
    fun n => if n + 1 < 4294967296 then some (UInt32.ofNat (n + 1)) else none

/-- A free id is not taken. -/
theorem freeId?_not_mem {r : Requests} {id : ResponseId} (h : r.freeId? = some id) :
    id ∉ r.taken := by
  unfold freeId? at h
  obtain ⟨n, hn, hid⟩ := Option.bind_eq_some_iff.1 h
  have hfree := List.find?_some hn
  split at hid
  · cases hid
    simpa using hfree
  · cases hid

def get? (r : Requests) (id : ResponseId) : Option Pending :=
  r.entries.find? (·.id == id)

/-- Ends the request of an id and frees the id. An id that was not taken is worth a notice. -/
def remove (r : Requests) (id : ResponseId) : Option (Pending × Requests × Option Notice) :=
  match r.get? id with
  | none => none
  | some p =>
    let rest : Requests := ⟨r.taken.erase id, r.entries.filter (·.id != id)⟩
    some (p, rest, if r.taken.contains id then none else some (.responseIdNotTaken id.toNat))

/-- Ends the request of an id, if there is one, and writes down what is worth it. -/
def drop (state : Requests × Site) (id : ResponseId) : Requests × Site :=
  match state.1.remove id with
  | none => state
  | some (_, r, none) => (r, state.2)
  | some (_, r, some n) => (r, state.2.note n)

/-- The ids of requests to peers that are not connected any more. -/
def lost (r : Requests) (net : Network) : List ResponseId :=
  (r.entries.filter fun p => !net.isConnected p.peer).map (·.id)

/-- Ends the requests whose answer cannot come any more. -/
def forget (r : Requests) (site : Site) : Requests × Site :=
  (r.lost site.net).foldl drop (r, site)

def reserve (r : Requests) (peer : Address) (ticket : Ticket) : Option (ResponseId × Requests) :=
  r.freeId?.map fun id =>
    (id, ⟨id :: r.taken, r.entries.filter (·.id != id) ++ [⟨id, peer, ticket⟩]⟩)

/-- Marks a message as the request of an id and sends it. -/
def dispatch (net : Network) (peer : Address) (m : Message) (id : ResponseId) :
    Except Error Network :=
  match m.withResponseId id with
  | .error e => .error e
  | .ok m => net.send peer m

/-- Sends a request. If it cannot be sent, it does not wait either. -/
def send (r : Requests) (site : Site) (peer : Address) (m : Message) (ticket : Ticket) :
    Requests × Site × Except Error Unit :=
  let (r, site) := r.forget site
  match r.reserve peer ticket with
  | none => (r, site, .error .responseIdsExhausted)
  | some (id, r) =>
    match dispatch site.net peer m id with
    | .ok net => (r, { site with net := net }, .ok ())
    | .error e =>
      -- the id is free again
      let (r, site) := drop (r, site) id
      (r, site, .error e)

/-- A message that comes back to whoever sends it. -/
def pingMessage : Message := .echo (.new [])

/-- Stops waiting for the answer to a request. The flag tells whether it was waiting. -/
def cancel (r : Requests) (site : Site) (ticket : Ticket) : Requests × Site × Bool :=
  match r.entries.find? (·.ticket == ticket) with
  | none => (r, site, false)
  | some p =>
    let (r, site) := drop (r, site) p.id
    (r, site, true)

/-- Takes an answer: the ticket of the request that it belongs to, if one waits under its id. -/
def answer (r : Requests) (site : Site) (id : ResponseId) :
    Requests × Site × Option Ticket :=
  match r.get? id with
  | none => (r, site, none)
  | some p =>
    let (r, site) := drop (r, site) id
    (r, site, some p.ticket)

end Requests

end Parley
