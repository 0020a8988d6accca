import EntityAccess.Proofs.Dict
import EntityAccess.Proofs.Outcome
import EntityAccess.Proofs.Schema.Accepted
import EntityAccess.Repository.Write

/-!
# states in a change

The state of a record is looked at three times: as the value of a payload, as the value that is
bound to the statement, and as the value in the row.  For a text column the three have one name.

* `state_of_castWrite` : a bound value has the name of the value that it was cast from;
* `diff_entries` : what an update keeps of the values it is given;
* `permits_of_assigned` : an assigned state follows the current one in the graph;
* `checkTransition_of_same` : a state that stays is not looked at.
-/

namespace EntityAccess

open Outcome TransitionGraph

/-- the name of the state that a value stands for -/
def SqlValue.state (x : SqlValue) : String := stateName x.toJson

/-- the name of the state of a record -/
def Record.state (r : Record) (key : String) : String := stateName (r.value key)

/-- a value bound to a text column has the name of the value it was cast from -/
theorem state_of_castWrite {v : Json} {x : SqlValue} (h : castWrite .text v = .ok x) :
    x.state = stateName v := by
  cases v <;>
    simp_all [castWrite, castWith, castText, unexpected, Json.isNull] <;> subst h <;> rfl

/-- a value bound to a text column is sent as it is -/
theorem sent_of_castWrite {v : Json} {x : SqlValue} (h : castWrite .text v = .ok x) :
    x.sent = x := by
  cases v <;>
    simp_all [castWrite, castWith, castText, unexpected, Json.isNull] <;> subst h <;> rfl

theorem Record.state_eq (r : Record) (key : String) :
    r.state key = ((r.values.get? key).map stateName).getD "" := by
  unfold state value get?
  cases r.values.get? key <;> rfl

namespace Entity

variable {e : Entity} {current : Record} {values kept : Row} {changes : Changes}

/-- whether an entry assigns another value than the current one -/
def differs (e : Entity) (current : Record) (entry : String × Json) : Bool :=
  match e.scalarColumn entry.1 with
  | .error _ => false
  | .ok c =>
    match castWrite c.type entry.2 with
    | .error _ => false
    | .ok x => !(current.value entry.1).same x.toJson

theorem change_eq_ok {entry : String × Json} {found : Option ((String × Json) × Change)}
    (h : e.change current entry = .ok found) :
    found.map (·.1) = if e.differs current entry then some entry else none := by
  unfold change at h
  obtain ⟨c, hc, h⟩ := bind_eq_ok.1 h
  obtain ⟨x, hx, h⟩ := bind_eq_ok.1 h
  have hfound : (if (current.value entry.1).same x.toJson then none
      else some (entry, ⟨current.value entry.1, x.toJson⟩)) = found := by
    simpa [pure, Except.pure] using h
  have hdiffers : e.differs current entry = !(current.value entry.1).same x.toJson := by
    simp [differs, hc, hx]
  rw [hdiffers, ← hfound]
  cases (current.value entry.1).same x.toJson <;> rfl

/-- the changes that are found are those of the entries that assign another value -/
theorem found_changes {found : List (Option ((String × Json) × Change))}
    (h : values.entries.mapM (e.change current) = .ok found) :
    (found.filterMap id).map (·.1) = values.entries.filter (e.differs current) := by
  have hmap : found.map (Option.map (·.1)) =
      values.entries.map fun entry => if e.differs current entry then some entry else none :=
    map_eq_map h fun entry found h => change_eq_ok h
  have hleft : (found.filterMap id).map (·.1) = (found.map (Option.map (·.1))).filterMap id := by
    rw [List.map_filterMap, List.filterMap_map]
    rfl
  rw [hleft, hmap, List.filterMap_map, ← List.filterMap_eq_filter]
  rfl

/-- an update keeps the entries that assign another value -/
theorem diff_entries (h : e.diff current values = .ok (kept, changes)) :
    kept.entries = values.entries.filter (e.differs current) := by
  unfold diff at h
  obtain ⟨found, hfound, h⟩ := bind_eq_ok.1 h
  simp only [pure, Except.pure, Except.ok.injEq, Prod.mk.injEq] at h
  have hkept : Dict.ofList ((found.filterMap id).map (·.1)) = kept := h.1
  rw [← hkept, found_changes hfound]
  exact Dict.entries_ofList (values.sorted.filter _)

theorem get?_of_diff (h : e.diff current values = .ok (kept, changes)) {key : String} {v : Json} :
    kept.get? key = some v ↔ values.get? key = some v ∧ e.differs current (key, v) = true := by
  rw [Dict.get?_eq_some_iff, diff_entries h, List.mem_filter, Dict.get?_eq_some_iff]

/-- what a payload may assign, a write may -/
theorem assignableColumn?_of_writable {name : String} {c : Column}
    (h : e.writableColumn? name = some c) : e.assignableColumn? name = some c := by
  obtain ⟨hfound, hwrite⟩ := Option.filter_eq_some_iff.1 h
  refine Option.filter_eq_some_iff.2 ⟨hfound, ?_⟩
  revert hwrite
  cases c.readOnly <;> simp

theorem type_of_assignable {name : String} {c : Column} (h : e.assignableColumn? name = some c) :
    c.type = e.columnType name := by
  unfold columnType
  rw [(Option.filter_eq_some_iff.1 h).1]
  rfl

/-- a value that is bound has been cast from a value of the column -/
theorem of_mem_assignments {assigned : Sql.Assignments} (h : e.assignments values = .ok assigned)
    {key : String} {x : SqlValue} (hx : (key, x) ∈ assigned) :
    ∃ v c, values.get? key = some v ∧ e.assignableColumn? key = some c ∧
      castWrite c.type v = .ok x := by
  obtain ⟨⟨key', v⟩, hmem, hassign⟩ := exists_of_mem_result h hx
  unfold assignment at hassign
  split at hassign
  · next c hc =>
    obtain ⟨x', hcast, heq⟩ := map_eq_ok.1 hassign
    obtain ⟨rfl, rfl⟩ := Prod.mk.inj heq
    exact ⟨v, c, Dict.get?_eq_some_iff.2 hmem, hc, hcast⟩
  · simp at hassign

/-- a value that is bound to a text column has been cast to text -/
theorem castWrite_of_assigned (he : e.WellFormed) {c : Column} (hc : c ∈ e.columns)
    (ht : c.type = .text) {assigned : Sql.Assignments} (h : e.assignments values = .ok assigned)
    {x : SqlValue} (hx : (c.name, x) ∈ assigned) :
    ∃ v, values.get? c.name = some v ∧ castWrite .text v = .ok x := by
  obtain ⟨v, c', hv, hassignable, hcast⟩ := of_mem_assignments h hx
  have hfound := (Option.filter_eq_some_iff.1 hassignable).1
  rw [column?_of_mem he hc] at hfound
  obtain rfl := Option.some.inj hfound
  exact ⟨v, hv, ht ▸ hcast⟩

/-! ### the graph -/

section

variable {g : TransitionGraph} (hg : e.transitions = some g)

include hg

/-- a state that is assigned follows the current one -/
theorem permits_of_assigned (he : e.WellFormed) {c : Column} (hc : c ∈ e.columns)
    (hname : c.name = g.key) (ht : c.type = .text) {assigned : Sql.Assignments}
    (hcheck : Repository.checkTransition e current kept = .ok ())
    (h : e.assignments kept = .ok assigned) {x : SqlValue} (hx : (g.key, x) ∈ assigned) :
    g.permits (current.state g.key) x.state = true := by
  obtain ⟨v, hv, hcast⟩ := castWrite_of_assigned he hc ht h (hname ▸ hx)
  rw [hname] at hv
  rw [state_of_castWrite hcast, Record.state_eq]
  by_contra hno
  simp [Repository.checkTransition, hg, validate, hv, hno] at hcheck

/-- a state that stays as it is stored is not looked at -/
theorem checkTransition_of_same (he : e.WellFormed) {c : Column} (hc : c ∈ e.columns)
    (hname : c.name = g.key) (ht : c.type = .text)
    (hdiff : e.diff current values = .ok (kept, changes))
    (hsame : ∀ v, values.get? g.key = some v → ∃ x, castWrite .text v = .ok x ∧
      (current.value g.key).same x.toJson = true) :
    Repository.checkTransition e current kept = .ok () := by
  have hno : kept.get? g.key = none := by
    rw [Option.eq_none_iff_forall_ne_some]
    intro v hv
    obtain ⟨hvalue, hdiffers⟩ := (get?_of_diff hdiff).1 hv
    obtain ⟨x, hx, hsame⟩ := hsame v hvalue
    have hcol : e.scalarColumn g.key = .ok c := by
      rw [← hname]
      exact scalarColumn_of_mem he hc (by rw [ht]; decide)
    unfold differs at hdiffers
    simp [hcol, ht, hx, hsame] at hdiffers
  unfold Repository.checkTransition
  rw [hg]
  exact validate_of_get?_eq_none g _ _ hno

end

end Entity
end EntityAccess
