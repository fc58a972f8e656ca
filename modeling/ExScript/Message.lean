import ExScript.Error
import ExScript.Text.Blank

/-!
# Messages

A run of a script tells its user things: messages, errors, and bells, which say that something went
wrong without saying what. They are kept in the order in which they were given, and shown later in
the form that suits the surroundings: as a transcript of lines, or as the text of the two streams
of a program.
-/

namespace ExScript

/-- Something that the user is told. -/
inductive Event where
  | report (text : String)
  | error (cause : Error)
  | bell
  deriving DecidableEq, Repr

namespace Event

/-- The text of an event, if it has one. -/
def text? : Event → Option String
  | report text => some text
  | error cause => some cause.message
  | bell => none

end Event

/-- The lines that were shown, the errors among them as a whole, and the number of bells. -/
structure Transcript where
  lines : List String := []
  errors : List String := []
  bells : Nat := 0
  deriving DecidableEq, Repr

namespace Transcript

/-- The transcript with a message. -/
def report (t : Transcript) (text : String) : Transcript :=
  { t with lines := t.lines ++ linesOf text }

/-- The transcript with an error. -/
def reportError (t : Transcript) (text : String) : Transcript :=
  { t.report text with errors := t.errors ++ [text] }

/-- The transcript with a bell. -/
def ring (t : Transcript) : Transcript :=
  { t with bells := t.bells + 1 }

/-- The transcript with an event. -/
def add (t : Transcript) : Event → Transcript
  | .report text => t.report text
  | .error cause => t.reportError cause.message
  | .bell => t.ring

/-- The transcript of a row of events. -/
def ofEvents (events : List Event) : Transcript :=
  { lines := events.flatMap fun e => (e.text?.map linesOf).getD []
    errors := events.filterMap fun
      | .error cause => some cause.message
      | _ => none
    bells := events.countP (· == .bell) }

theorem add_ofEvents (events : List Event) (e : Event) :
    (ofEvents events).add e = ofEvents (events ++ [e]) := by
  cases e <;>
    simp [ofEvents, add, report, reportError, ring, Event.text?, List.flatMap_append,
      List.filterMap_append, List.countP_append]

/-- The lines that were not taken yet, and the transcript without them and the errors. -/
def take (t : Transcript) : List String × Transcript :=
  (t.lines, { t with lines := [], errors := [] })

end Transcript

/-! ### Streams -/

/-- The messages of a row of events, each followed by a line feed. -/
def reportStream (events : List Event) : String :=
  String.join <| events.filterMap fun
    | .report text => some (text ++ "\n")
    | _ => none

/-- The errors of a row of events, each followed by a line feed. -/
def errorStream (events : List Event) : String :=
  String.join <| events.filterMap fun
    | .error cause => some (cause.message ++ "\n")
    | _ => none

end ExScript
