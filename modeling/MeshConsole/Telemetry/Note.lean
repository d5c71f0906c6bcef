import MeshConsole.Telemetry.Event

/-!
# Notes

What an activity tells those who listen, in order: lines for the log and events.
-/

namespace MeshConsole.Telemetry

inductive Note where
  | log (line : Text)
  | publish (event : Event)
  deriving Repr, DecidableEq

/-- The events among notes, in order. -/
def Note.events (notes : List Note) : List Event :=
  notes.filterMap fun
    | .publish event => some event
    | .log _ => none

@[simp] theorem Note.events_nil : Note.events [] = [] := rfl

@[simp] theorem Note.events_log (line : Text) (notes : List Note) :
    Note.events (.log line :: notes) = Note.events notes := rfl

@[simp] theorem Note.events_publish (event : Event) (notes : List Note) :
    Note.events (.publish event :: notes) = event :: Note.events notes := rfl

@[simp] theorem Note.events_append (notes more : List Note) :
    Note.events (notes ++ more) = Note.events notes ++ Note.events more :=
  List.filterMap_append

end MeshConsole.Telemetry
