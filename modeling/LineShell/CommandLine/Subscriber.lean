import LineShell.CommandLine
import LineShell.Disk
import LineShell.Log.Event

/-!
# Subscriber — the events of a session on the error output

While the shell runs, its events go to a subscriber, which writes a record of those that pass a
filter to the error output of the process, at once. How a filter is worded, what a record looks like
and what time it shows are not for the shell to say.

- `Subscriber`         : filters, clock and records
- `Subscriber.records` : the records of events, with their places
- `Subscriber.weave`   : texts and records as they came
-/

namespace LineShell
namespace CommandLine

/-- What the process does with events. -/
structure Subscriber where
  /-- What a filter lets pass, if its text can be read. -/
  filter? : String → Option (Log.Event → Bool)
  /-- When the `n`th event is recorded. -/
  clock : Nat → Moment
  /-- What is written for an event. -/
  text : Moment → Log.Event → Bytes

namespace Subscriber

/-- What passes if no filter is given: warnings, and with the debug switch all but traces. -/
def passesUnasked (debug : Bool) (event : Log.Event) : Bool :=
  match event.level with
  | .warn => true
  | .debug => debug
  | .trace => false

/-- Whether an event is written. A filter that can be read wins over the debug switch. -/
def passes (s : Subscriber) (filter : Option String) (debug : Bool) : Log.Event → Bool :=
  (filter.bind s.filter?).getD (passesUnasked debug)

/-- The records that are written, from the `n`th event on, each with the number of bytes that were
written to the error output before it by others. -/
def recordsFrom (s : Subscriber) (passes : Log.Event → Bool) :
    Nat → List Log.Record → List (Nat × Bytes)
  | _, [] => []
  | n, record :: rest =>
      let later := recordsFrom s passes (n + 1) rest
      if passes record.event then (record.told, s.text (s.clock n) record.event) :: later else later

/-- The records of a session. -/
def records (s : Subscriber) (filter : Option String) (debug : Bool) (events : List Log.Record) :
    List (Nat × Bytes) :=
  s.recordsFrom (s.passes filter debug) 0 events

/-- Bytes with records among them, from a place on. -/
def weave (bs : Bytes) (place : Nat) : List (Nat × Bytes) → Bytes
  | [] => bs.drop place
  | (told, record) :: rest =>
      (bs.drop place).take (told - place) ++ record ++ weave bs (max place told) rest

end Subscriber
end CommandLine
end LineShell
