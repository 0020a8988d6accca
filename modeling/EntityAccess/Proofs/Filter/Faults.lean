import EntityAccess.Proofs.Outcome
import EntityAccess.Query.Assembly

/-!
# what keys and values are refused with

A filter is refused for its key or for its value, and a value for its type or for its text: errors
about a request, whatever the request is.

* `Error.CastFault` : the errors of values;
* `Error.QueryFault` : the errors of filters and sort keys;
* `castWith_error` : casts;
* `operandFor_error`, `readFilters_error` : the values and the keys of filters.
-/

namespace EntityAccess

open Outcome

/-- a value that is none of its column -/
inductive Error.CastFault : Error → Prop where
  | badRequest (reason : BadRequest) : CastFault (.badRequest reason)
  | invalidDateFormat (text : String) : CastFault (.invalidDateFormat text)

/-- a filter or sort key that cannot be understood -/
inductive Error.QueryFault : Error → Prop where
  | badRequest (reason : BadRequest) : QueryFault (.badRequest reason)
  | invalidDateFormat (text : String) : QueryFault (.invalidDateFormat text)
  | unknownOperator (token : String) : QueryFault (.unknownOperator token)
  | noSuchRelationship (path entity : String) : QueryFault (.noSuchRelationship path entity)
  | unknownField (field entity : String) : QueryFault (.unknownField field entity)

theorem Error.CastFault.query {e : Error} : e.CastFault → e.QueryFault
  | .badRequest reason => .badRequest reason
  | .invalidDateFormat text => .invalidDateFormat text

variable {e : Error}

/-! ### values -/

theorem expect_error {kind : ValueKind} {v : Json} {x : Option SqlValue}
    (h : expect kind v x = .error e) : e.CastFault := by
  cases x with
  | some x => cases h
  | none =>
    obtain rfl := Except.error.inj h
    exact .badRequest _

theorem castText_error {v : Json} (h : castText v = .error e) : e.CastFault := by
  unfold castText at h
  split at h
  · cases h
  · cases h
  · cases h
  · cases h
  · obtain rfl := Except.error.inj h
    exact .badRequest _

theorem castTime_error {kind : ValueKind} {read : String → Option SqlValue} {v : Json}
    (h : castTime kind read v = .error e) : e.CastFault := by
  unfold castTime at h
  split at h
  · split at h
    · cases h
    · obtain rfl := Except.error.inj h
      exact .invalidDateFormat _
  · obtain rfl := Except.error.inj h
    exact .badRequest _

theorem castWith_error {readDate : String → Option Date}
    {readDateTime : String → Option DateTime} {type : ColumnType} {v : Json}
    (h : castWith readDate readDateTime type v = .error e) : e.CastFault := by
  cases type with
  | text => exact castText_error h
  | integer => exact expect_error h
  | float => exact expect_error h
  | boolean => exact expect_error h
  | date => exact castTime_error h
  | dateTime => exact castTime_error h
  | json => cases h
  | searchVector =>
    obtain rfl := Except.error.inj h
    exact .badRequest _

theorem castFilter_error {type : ColumnType} {v : Json} (h : castFilter type v = .error e) :
    e.CastFault := by
  unfold castFilter at h
  split at h
  · cases h
  · exact castWith_error h

theorem castWrite_error {type : ColumnType} {v : Json} (h : castWrite type v = .error e) :
    e.CastFault := by
  unfold castWrite at h
  split at h
  · cases h
  · exact castWith_error h

theorem castDay_error {v : Json} (h : castDay v = .error e) : e.CastFault := by
  unfold castDay at h
  split at h
  · split at h
    · cases h
    · obtain rfl := Except.error.inj h
      exact .invalidDateFormat _
  · obtain rfl := Except.error.inj h
    exact .invalidDateFormat _

/-! ### filters -/

theorem operandFor_error {op : Operator} {type : ColumnType} {v : Json}
    (h : operandFor op type v = .error e) : e.CastFault := by
  unfold operandFor at h
  split at h
  · cases h
  · exact castFilter_error (map_eq_error.1 h)
  · cases h
  · obtain ⟨item, _, hitem⟩ := mapM_error (map_eq_error.1 h)
    exact castFilter_error hitem
  · exact castDay_error (map_eq_error.1 h)

/-- a key is refused for its operator, or for an empty part -/
theorem readFilterKey_error {key : String} (h : readFilterKey key = .error e) : e.QueryFault := by
  rw [readFilterKey_eq] at h
  rcases bind_eq_error.1 h with htail | ⟨⟨field, op⟩, _, h⟩
  · unfold readTail at htail
    split at htail
    · rcases bind_eq_error.1 htail with hop | ⟨op, _, h⟩
      · unfold Operator.ofToken at hop
        split at hop
        · cases hop
        · obtain rfl := Except.error.inj hop
          exact .unknownOperator _
      · cases h
    · cases htail
  · dsimp only at h
    split at h
    · cases h
    · obtain rfl := Except.error.inj h
      exact .badRequest _

theorem readFilters_error {fs : Filters} (h : readFilters fs = .error e) : e.QueryFault := by
  obtain ⟨f, _, hf⟩ := mapM_error h
  rcases bind_eq_error.1 hf with hkey | ⟨k, _, h⟩
  · exact readFilterKey_error hkey
  · cases h

end EntityAccess
