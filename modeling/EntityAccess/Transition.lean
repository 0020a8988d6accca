import EntityAccess.Error

/-!
# state transitions

A graph says which values a state column may take next.  A change of the column is checked against
it; a state without successors is final, and a change that leaves the column out is not looked at.

* `validate_of_get?_eq_none` : no change of state, no objection.
-/

namespace EntityAccess

/-- the values of a row or a payload, by column -/
abbrev Row := Dict Json

/-- the permitted next states of each state -/
structure TransitionGraph where
  key : String
  edges : Dict (List String)
deriving DecidableEq

namespace TransitionGraph

/-- the name of a state: a text itself, nothing for null, the JSON text of anything else -/
def stateName : Json → String
  | .str s => s
  | .null => ""
  | v => v.write

/-- whether `after` may follow `before` -/
def permits (g : TransitionGraph) (before after : String) : Bool :=
  ((g.edges.get? before).getD []).contains after

/-- checks changes of a row with the values `current` -/
def validate (g : TransitionGraph) (resource : String) (current changes : Row) :
    Except Error Unit :=
  match changes.get? g.key with
  | none => .ok ()
  | some proposed =>
    let before := ((current.get? g.key).map stateName).getD ""
    let after := stateName proposed
    if g.permits before after then .ok ()
    else .error (.transitionNotPermitted resource before after)

theorem validate_of_get?_eq_none (g : TransitionGraph) (resource : String) (current : Row)
    {changes : Row} (h : changes.get? g.key = none) :
    g.validate resource current changes = .ok () := by
  simp [validate, h]

end TransitionGraph
end EntityAccess
