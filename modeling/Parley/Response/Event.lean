/-!
# Responses that are waited for

A response event is fulfilled by the first value that it is given; later values replace the first.
A hook, if there is one, is handed the value of the event once, by whoever first waits for the event
with success or processes it.

- `ResponseEvent.fire` hands over the hook, `ResponseEvent.store` stores a value.
-/

namespace Parley

/-- A response that may not have come yet. -/
structure ResponseEvent (α : Type) where
  value : Option α
  /-- Whether there is a hook that has not run. -/
  hooked : Bool
  /-- The handler that is woken when the event is fulfilled. -/
  handler : Option Nat
deriving DecidableEq, Repr

namespace ResponseEvent

variable {α : Type}

/-- An event without a hook. -/
def new : ResponseEvent α := ⟨none, false, none⟩

def withHook : ResponseEvent α := ⟨none, true, none⟩

def isFulfilled (e : ResponseEvent α) : Bool :=
  e.value.isSome

/-- Stores a value. The flag tells whether it is the first. -/
def store (e : ResponseEvent α) (v : α) : ResponseEvent α × Bool :=
  ({ e with value := some v }, e.value.isNone)

def attach (e : ResponseEvent α) (handler : Nat) : ResponseEvent α :=
  { e with handler := some handler }

/-- Takes the hook, if it has not run: the value it is called with. -/
def fire (e : ResponseEvent α) (v : α) : ResponseEvent α × Option α :=
  ({ e with hooked := false }, if e.hooked then some v else none)

/-- Runs the hook with the value of the event, if it has one. -/
def process (e : ResponseEvent α) : ResponseEvent α × Option α :=
  match e.value with
  | some v => e.fire v
  | none => (e, none)

/-- The value of the event, which a waiting thread goes on with after the hook has run. -/
def wait? (e : ResponseEvent α) : Option (α × ResponseEvent α × Option α) :=
  e.value.map fun v => (v, e.fire v)

theorem isFulfilled_store (e : ResponseEvent α) (v : α) : (e.store v).1.isFulfilled = true := rfl

end ResponseEvent

end Parley
