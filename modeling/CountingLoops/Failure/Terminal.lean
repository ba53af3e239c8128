import CountingLoops.Failure

/-!
The text of a failure on a terminal: the word error in front, and the two labels in bold colours
where colour is in effect. Colour is in effect if the terminal shows any and the last choice that
was made of it, if one was made, is in its favour.
-/

namespace CountingLoops.Failure

/-- Whether colour is in effect, given whether the terminal shows it and the choices made, the
oldest first. -/
def isColoured (shown : Bool) (choices : List Bool) : Bool := shown && choices.getLastD true

/-- A colour for a label. -/
inductive Colour where
  | red
  | blue
  deriving DecidableEq

/-- The number by which a terminal selects the colour for text. -/
def Colour.code : Colour → String
  | .red => "31"
  | .blue => "34"

/-- A label in bold and in a colour, and after it the terminal's own style again. -/
def bold (colour : Colour) (label : String) : String :=
  "\x1b[1;" ++ colour.code ++ "m" ++ label ++ "\x1b[0m"

/-- A label as it is or, where colour is in effect, in bold and in its colour. -/
def paint (coloured : Bool) (colour : Colour) (label : String) : String :=
  if coloured then bold colour label else label

/-- The failure as it is shown to a user. -/
def terminalText (coloured : Bool) (failure : Failure) : String :=
  paint coloured .red "error" ++ ": " ++ failure.kind.label ++ ": " ++ failure.message ++
    noteText (paint coloured .blue "note") failure.note

end CountingLoops.Failure
