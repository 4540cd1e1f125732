import Parley.Network.Basic

/-!
# Shared objects

Objects whose state is told to all peers. The objects live in a store and are known by their place
there; a table says which of them is registered under which id.

- `SyncTable.sync` tells the state of every registered object and changes none.
- `SyncTable.handle` takes over a state that a peer tells, for a registered object only.
-/

namespace Parley

/-- What can be done with the state of an object. -/
structure SyncBehaviour (σ : Type) where
  /-- The id that all peers know the object by. -/
  id : σ → String
  /-- The message that tells the state. -/
  message : σ → Except Error SyncMessage
  /-- Takes over a state that was told. -/
  apply : SyncMessage → σ → Except Error σ
  /-- What is done when the object is removed. -/
  teardown : σ → σ

/-- Objects and their registration. -/
structure SyncTable (σ : Type) where
  /-- All objects, registered or not. -/
  objects : List σ
  /-- The place of the object that is registered under an id. -/
  registered : List (String × Nat)

namespace SyncTable

variable {σ : Type}

def empty : SyncTable σ := ⟨[], []⟩

instance : Inhabited (SyncTable σ) := ⟨empty⟩

def place? (t : SyncTable σ) (id : String) : Option Nat :=
  t.registered.lookup id

def get? (t : SyncTable σ) (id : String) : Option σ :=
  (t.place? id).bind (t.objects[·]?)

def contains (t : SyncTable σ) (id : String) : Bool :=
  (t.place? id).isSome

/-- Number of registered objects. -/
def size (t : SyncTable σ) : Nat :=
  t.registered.length

/-- Registers a new object in place of any other with its id, which is returned. -/
def add (b : SyncBehaviour σ) (t : SyncTable σ) (object : σ) : SyncTable σ × Option σ :=
  let id := b.id object
  let place := t.objects.length
  let registered :=
    if t.contains id then t.registered.map fun (i, p) => if i == id then (i, place) else (i, p)
    else t.registered ++ [(id, place)]
  (⟨t.objects ++ [object], registered⟩, t.get? id)

def modifyAt (t : SyncTable σ) (place : Nat) (f : σ → σ) : SyncTable σ :=
  { t with objects := t.objects.modify place f }

/-- Removes the registration of an id and tears the object down. -/
def remove (b : SyncBehaviour σ) (t : SyncTable σ) (id : String) : Except Error (SyncTable σ) :=
  match t.place? id with
  | none => .error (.noSuchObject id)
  | some place =>
    .ok { t.modifyAt place b.teardown with registered := t.registered.filter (·.1 != id) }

def messages (b : SyncBehaviour σ) (t : SyncTable σ) : List (String × Except Error SyncMessage) :=
  t.registered.filterMap fun (id, place) => t.objects[place]?.map fun o => (id, b.message o)

/-- Sends one message to all peers. The number counts the successes. -/
def tell (state : Site × Nat) (entry : String × Except Error SyncMessage) : Site × Nat :=
  let (site, synced) := state
  match entry.2 >>= fun m => site.net.broadcast (.sync m) with
  | .ok net => ({ site with net := net }, synced + 1)
  | .error e => (site.note (.objectNotSynced entry.1 e), synced)

/-- Tells all peers the state of every registered object. Returns how many went out. -/
def sync (b : SyncBehaviour σ) (t : SyncTable σ) (site : Site) : Site × Nat :=
  (t.messages b).foldl tell (site, 0)

def sendRemove (net : Network) (id : String) : Except Error Network :=
  net.broadcast (.sync (.remove id))

/-- Handles a message. A state for an unknown id is passed over; a removal of one is an error. -/
def handle (b : SyncBehaviour σ) (t : SyncTable σ) (m : Message) : Except Error (SyncTable σ) :=
  match m with
  | .sync m =>
    match m.kind with
    | .sync =>
      match t.place? m.id with
      | none => .ok t
      | some place =>
        match t.objects[place]? with
        | none => .ok t
        | some o =>
          match b.apply m o with
          | .ok o => .ok (t.modifyAt place fun _ => o)
          | .error e => .error e
    | .remove => t.remove b m.id
  | _ => .ok t

end SyncTable

end Parley
