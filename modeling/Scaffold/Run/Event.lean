import Scaffold.Error
import Scaffold.Log
import Scaffold.Operation

set_option autoImplicit false

/-! # Events of a run

What a run does is told as a list of events. The report of a run counts the files that were written
and lists the errors of the items that were skipped; its log has a line for every event. -/

namespace Scaffold

/-- One thing that happens while operations run. -/
inductive Event
  | started (op : Operation)
  /-- A file was copied to the path `target`. -/
  | copied (target : String)
  /-- A filtered file was written to the path `target`. -/
  | wrote (target : String)
  /-- An item was passed over. -/
  | skipped (error : Error)
  /-- The set of the section `name` is about to run. -/
  | sectionFound (name : String)
  /-- There is no section `name` to run. -/
  | sectionMissing (name : String)
  deriving DecidableEq, Repr

namespace Event

/-- The log line of an event. -/
def log : Event → LogLine
  | .started op =>
    ⟨.debug, op.kind.name ++ ": " ++ op.transfer.source.display ++ " -> " ++
      op.transfer.target.display⟩
  | .copied target => ⟨.debug, "Copied " ++ target⟩
  | .wrote target => ⟨.debug, "Wrote " ++ target⟩
  | .skipped error => ⟨.warning, error.message⟩
  | .sectionFound name => ⟨.debug, "Running manifest section '" ++ name ++ "'"⟩
  | .sectionMissing name => ⟨.debug, "Manifest has no section '" ++ name ++ "'"⟩

/-- Whether the event is that of a file being written. -/
def isWriting : Event → Bool
  | .copied _ | .wrote _ => true
  | _ => false

/-- The error of a skipped item. -/
def error? : Event → Option Error
  | .skipped error => some error
  | _ => none

end Event

/-- What one or more runs came to. -/
structure Report where
  /-- The number of files copied or written. -/
  written : Nat
  /-- The errors of the skipped items, in the order in which they happened. -/
  skipped : List Error
  deriving DecidableEq, Repr

namespace Report

/-- The report of nothing. -/
def empty : Report :=
  ⟨0, []⟩

/-- The report of what happened. -/
def ofEvents (events : List Event) : Report :=
  ⟨events.countP Event.isWriting, events.filterMap Event.error?⟩

/-- The report of one run after another. -/
def merge (first second : Report) : Report :=
  ⟨first.written + second.written, first.skipped ++ second.skipped⟩

end Report

end Scaffold
