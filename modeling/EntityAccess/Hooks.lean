import EntityAccess.Program

/-!
# hooks

Rules of their own that an entity adds to its reads and writes.  Hooks before a write, and the one
for its relationships, act inside the transaction of the write, so that an error undoes it; hooks
after a write act when it is committed.

* `none` : an entity without rules.
-/

namespace EntityAccess

structure Hooks where
  /-- the values to insert, from the projected values and the whole payload -/
  preCreate : (id : String) → (values input : Row) → Action Row
  postCreate : Record → Action Unit
  /-- the values to assign, from those that differ and the whole payload -/
  preUpdate : (current : Record) → (values input : Row) → Action Row
  postUpdate : Record → Changes → Action Unit
  /-- writes of associated rows; there is no current record on a creation -/
  relationship : (id : String) → (input : Row) → (current : Option Record) → Action Unit
  /-- changes to a read before it is rendered -/
  customizeQuery : SelectPlan → Filters → Action SelectPlan
  modifyLoadPlan : Filters → LoadPlan → Program LoadPlan

/-- an entity without rules -/
def Hooks.none : Hooks where
  preCreate _ values _ := pure values
  postCreate _ := pure ()
  preUpdate _ values _ := pure values
  postUpdate _ _ := pure ()
  relationship _ _ _ := pure ()
  customizeQuery plan _ := pure plan
  modifyLoadPlan _ plan := pure plan

end EntityAccess
