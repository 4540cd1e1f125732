import Parley.Response.Event

/-!
# Handlers of responses

A handler runs the hooks of the events in its queue, in their order: an event that is not fulfilled
holds back all that stand behind it. Its loop sleeps on a signal that is raised when an event in
the queue is fulfilled for the first time.

- `Responses.drain` processes the fulfilled events at the head of a queue.
- `Responses.wake` is one round of the loop, once its signal is raised.
- Adding an event and storing a value are given in their steps, too, because other threads may come
  between them.
-/

namespace Parley

/-- The queue of a handler and the signal of its loop. -/
structure ResponseHandler where
  /-- Events to be processed, by number. -/
  queue : List Nat
  stopped : Bool
  raised : Bool
deriving DecidableEq, Repr

/-- A handler with nothing to do. -/
def ResponseHandler.new : ResponseHandler := ⟨[], false, false⟩

/-- A hook that ran: the event it belongs to, and the value it was given. -/
structure HookCall (α : Type) where
  event : Nat
  value : α
deriving DecidableEq, Repr

/-- Events and handlers, each known by its number, and the hooks that ran so far. -/
structure Responses (α : Type) where
  events : List (ResponseEvent α)
  handlers : List ResponseHandler
  calls : List (HookCall α)
deriving DecidableEq, Repr

namespace Responses

variable {α : Type}

/-- No events, and a number of handlers. -/
def new (handlers : Nat) : Responses α := ⟨[], List.replicate handlers .new, []⟩

def addEvent (r : Responses α) (e : ResponseEvent α) : Responses α :=
  { r with events := r.events ++ [e] }

def isFulfilled (r : Responses α) (event : Nat) : Bool :=
  match r.events[event]? with
  | some e => e.isFulfilled
  | none => false

def response? (r : Responses α) (event : Nat) : Option α :=
  r.events[event]?.bind (·.value)

def raise (r : Responses α) (handler : Nat) : Responses α :=
  { r with handlers := r.handlers.modify handler fun h => { h with raised := true } }

/-- Stores a value in an event. Returns the handler to be woken. -/
def store (r : Responses α) (event : Nat) (v : α) : Responses α × Option Nat :=
  match r.events[event]? with
  | none => (r, none)
  | some e =>
    let (e, first) := e.store v
    ({ r with events := r.events.set event e }, if first then e.handler else none)

def handle (r : Responses α) (event : Nat) (v : α) : Responses α :=
  match r.store event v with
  | (r, some handler) => r.raise handler
  | (r, none) => r

/-- The first step of adding an event to a handler: the event learns whom to wake. -/
def attach (r : Responses α) (handler event : Nat) : Responses α :=
  { r with events := r.events.modify event (·.attach handler) }

/-- The third step, after looking whether the event is fulfilled: it joins the queue. -/
def enqueue (r : Responses α) (handler event : Nat) : Responses α :=
  { r with handlers := r.handlers.modify handler fun h => { h with queue := h.queue ++ [event] } }

def add (r : Responses α) (handler event : Nat) : Responses α :=
  let r := r.attach handler event
  let fulfilled := r.isFulfilled event
  let r := r.enqueue handler event
  if fulfilled then r.raise handler else r

/-- Writes down a hook that ran. -/
def called (r : Responses α) (event : Nat) (e : ResponseEvent α × Option α) : Responses α :=
  { r with
    events := r.events.set event e.1
    calls := r.calls ++ (e.2.map (⟨event, ·⟩)).toList }

/-- Waits for an event, which has to be fulfilled. -/
def wait? (r : Responses α) (event : Nat) : Option (α × Responses α) :=
  match r.events[event]? with
  | none => none
  | some e => e.wait?.map fun (v, fired) => (v, r.called event fired)

def process (r : Responses α) (event : Nat) : Responses α :=
  match r.events[event]? with
  | none => r
  | some e => r.called event e.process

def head? (r : Responses α) (handler : Nat) : Option Nat :=
  match (r.handlers[handler]?.bind (·.queue.head?)) with
  | some event => if r.isFulfilled event then some event else none
  | none => none

def popHead (r : Responses α) (handler : Nat) : Responses α :=
  { r with handlers := r.handlers.modify handler fun h => { h with queue := h.queue.tail } }

/-- Processes heads for a number of rounds, or until the head is not fulfilled. -/
def drainFor (handler : Nat) : Nat → Responses α → Nat × Responses α
  | 0, r => (0, r)
  | rounds + 1, r =>
    match r.head? handler with
    | none => (0, r)
    | some event =>
      let (n, r) := drainFor handler rounds ((r.popHead handler).process event)
      (n + 1, r)

/-- Number of events in a handler's queue. -/
def pending (r : Responses α) (handler : Nat) : Nat :=
  match r.handlers[handler]? with
  | some h => h.queue.length
  | none => 0

/-- Processes the fulfilled events at the head of a handler's queue and returns their number. -/
def drain (r : Responses α) (handler : Nat) : Nat × Responses α :=
  drainFor handler (r.pending handler) r

def stop (r : Responses α) (handler : Nat) : Responses α :=
  { r with
    handlers := r.handlers.modify handler fun h => { h with stopped := true, raised := true } }

/-- What a handler's loop does when it looks at its signal. -/
inductive Round (α : Type)
  /-- The signal is lowered: the loop sleeps. -/
  | asleep
  /-- The handler is stopped: the loop ends. -/
  | over (r : Responses α)
  /-- The loop has drained the queue and looks at the signal again. -/
  | again (r : Responses α)

def wake (r : Responses α) (handler : Nat) : Round α :=
  match r.handlers[handler]? with
  | none => .asleep
  | some h =>
    if !h.raised then .asleep
    else
      -- lowered before the queue is looked at, so that a signal raised meanwhile is not lost
      let r : Responses α := { r with
        handlers := r.handlers.modify handler fun h => { h with raised := false } }
      if h.stopped then .over r else .again (r.drain handler).2

/-- Gives events their values while the loop of a handler runs. -/
def handleAll (r : Responses α) (handler : Nat) (values : List (Nat × α)) : Responses α :=
  let round (r : Responses α) : Responses α :=
    match r.wake handler with
    | .again r | .over r => r
    | .asleep => r
  values.foldl (fun r (event, v) => round (r.handle event v)) (round r)

end Responses

end Parley
