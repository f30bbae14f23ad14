/-!
# Progress of a long run

A display of how far a run has come: a bar counts the steps of a known number, a spinner turns
while their number is unknown. Both show a message.
-/

namespace EntitySchema

/-- What a display of progress shows. -/
structure Progress where
  /-- The number of steps, if it is known. -/
  length : Option Nat
  message : String
  /-- How many steps are done. -/
  position : Nat := 0
  finished : Bool := false
  deriving DecidableEq, Repr

namespace Progress

/-- A message as it is shown, with eight blanks for every tab. -/
def shown (message : String) : String :=
  String.ofList (message.toList.flatMap fun c => if c = '\t' then List.replicate 8 ' ' else [c])

/-- A spinner at its start. -/
def spinner (message : String) : Progress := { length := none, message := shown message }

/-- A bar for this many steps at its start. -/
def bar (length : Nat) (message : String) : Progress :=
  { length := some length, message := shown message }

/-- The display after more steps. -/
def advance (p : Progress) (steps : Nat) : Progress := { p with position := p.position + steps }

/-- The display at the end of the run; a bar is full then. -/
def finish (p : Progress) (message : String) : Progress :=
  { p with
    message := shown message
    position := p.length.getD p.position
    finished := true }

/-- The display at the end of a run that failed. -/
def fail (p : Progress) (message : String) : Progress := p.finish ("ERROR: " ++ message)

end Progress

end EntitySchema
