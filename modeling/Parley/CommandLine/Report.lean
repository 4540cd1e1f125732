import Parley.Chat
import Parley.Primes.Tally
import Parley.Text.Blank

/-!
# What the program tells its user

The lines that a task prints while it runs. Times are given as text.
-/

namespace Parley

namespace CommandLine

/-- A room as it is shown. -/
def displayRoom (room : String) : String :=
  if room = ChatMessage.mainRoom then "main" else room

namespace Report

/-- A number of nanoseconds in units of `unit` nanoseconds with some decimals, rounded to the
nearest. -/
def decimal (unit places nanos : Nat) : String :=
  let scale := Nat.pow 10 places
  let scaled := (2 * nanos * scale + unit) / (2 * unit)
  let digits := toString (scaled % scale)
  toString (scaled / scale) ++ "." ++
    String.ofList (List.replicate (places - digits.length) '0') ++ digits

/-- Nanoseconds as seconds. -/
def seconds (nanos : Nat) : String := decimal 1000000000 2 nanos

/-- Nanoseconds as milliseconds. -/
def millis (nanos : Nat) : String := decimal 1000000 3 nanos

def interrupted : String := "Initiating graceful shutdown..."

def servingChat (a : Address) : String := "listening for chat clients on: " ++ toString a

def joined (room name : String) (server : Address) : String :=
  "joined room " ++ displayRoom room ++ " on " ++ toString server ++ " as " ++ name ++
    ", type a message and press enter"

def heard (h : Heard) : String := "[" ++ displayRoom h.room ++ "] " ++ h.msg

/-- What a line of a user says to the others. A blank line says nothing. -/
def said? (name line : String) : Option String :=
  let line := Text.trim line
  if line.isEmpty then none else some (name ++ ": " ++ line)

def serverLost : String := "connection to server lost"

def searching (p : Primes.SearchParams) (needed : UInt64) (a : Address) : String :=
  s!"searching primes below {p.limit} in {needed} ranges, waiting for workers on: {a}"

def found (t : Primes.Tally) (time : String) : List String :=
  s!"{t.ranges} ranges searched in {time}s, found {t.primes} primes, largest: {t.largest}" ::
    (if 0 < t.failed then [s!"{t.failed} ranges failed and were skipped"] else [])

def working (coordinator : Address) (threads : Nat) : String :=
  s!"working for coordinator {coordinator} on {threads} threads"

def coordinatorLost : String := "coordinator went away"

def echoed (server : Address) (seq : Nat) (time : String) : String :=
  s!"echo from {server}: seq={seq} time={time} ms"

/-- An echo did not come back in time. -/
def notEchoed (server : Address) (seq : Nat) : String :=
  s!"echo from {server}: seq={seq} timed out"

def echoes (sent received : Nat) (average : String) : String :=
  s!"{sent} sent, {received} received" ++
    if received = 0 then "" else ", average " ++ average ++ " ms"

end Report

end CommandLine

end Parley
