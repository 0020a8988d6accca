import EntityAccess.Proofs.Filter.Faults
import EntityAccess.Proofs.Query.Joins
import EntityAccess.Proofs.Query.Paged

/-!
# what plans are refused with

The error of a plan is that of one of its filters, or of a path that leads nowhere: past a name that
is no relationship, or to an entity that the schema does not have.

* `walk_error` : where a path stops;
* `SelectPlan.extend_eq_error` : the part of a plan that an error comes from;
* `planOf_error` : the errors of plans in any schema;
* `queryFault_of_planOf` : and in a well-formed one.
-/

namespace EntityAccess

open Outcome

variable {schema : Schema} {root entity : Entity} {e : Error}

/-! ### paths -/

/-- whoever cannot follow a path has come to an entity without the relationship, or with one whose
target does not exist -/
theorem walk_error {parent : String} {done path : Path} {f : WalkFault}
    (h : walk schema entity parent done path = .error f) :
    ∃ rs last, Walk schema entity rs last ∧
      ((∀ p : Path, f.error p = .noSuchRelationship p.text last.name) ∨
        ∃ r ∈ last.relationships, schema.entity? r.target = none ∧
          ∀ p, f.error p = .config (.missingReference .entity r.target)) := by
  induction path generalizing entity parent done with
  | nil => cases h
  | cons name rest ih =>
    unfold walk at h
    dsimp only at h
    split at h
    · obtain rfl := Except.error.inj h
      exact ⟨[], entity, .here entity, .inl fun _ => rfl⟩
    · next r hr =>
      have hdeclared : r ∈ entity.relationships := List.mem_of_find?_eq_some hr
      split at h
      · next hnone =>
        obtain rfl := Except.error.inj h
        exact ⟨[], entity, .here entity, .inr ⟨r, hdeclared, hnone, fun _ => rfl⟩⟩
      · next target ht =>
        have htarget : target.name = r.target := by simpa using List.find?_some ht
        obtain ⟨rs, last, hw, herror⟩ := ih (map_eq_error.1 h)
        exact ⟨r :: rs, last, .step hdeclared (List.mem_of_find?_eq_some ht) htarget hw, herror⟩

/-! ### parts of a plan -/

theorem Entity.scalarColumn_error {field : String} (h : entity.scalarColumn field = .error e) :
    e = .unknownField field entity.name := by
  unfold scalarColumn at h
  split at h
  · cases h
  · exact (Except.error.inj h).symm

/-- a column at the end of a path is not there, or the path has no join, or its join no entity -/
theorem columnRef_error {js : Joins} {path : Path} {field : String}
    (h : columnRef schema root js path field = .error e) :
    e.QueryFault ∨ ∃ j, js.at? path = some j ∧ schema.entity? j.entity = none ∧
      e = .config (.missingReference .entity j.entity) := by
  unfold columnRef at h
  split at h
  · rcases bind_eq_error.1 h with hcolumn | ⟨c, _, h⟩
    · rw [Entity.scalarColumn_error hcolumn]
      exact .inl (.unknownField _ _)
    · cases h
  · split at h
    · obtain rfl := Except.error.inj h
      exact .inl (.noSuchRelationship _ _)
    · next j hj =>
      split at h
      · next hnone =>
        obtain rfl := Except.error.inj h
        exact .inr ⟨j, hj, hnone, rfl⟩
      · rcases bind_eq_error.1 h with hcolumn | ⟨c, _, h⟩
        · rw [Entity.scalarColumn_error hcolumn]
          exact .inl (.unknownField _ _)
        · cases h

theorem untilFault_mem {α : Type} {rs : List (Except Error α)}
    (h : (untilFault rs).2 = some e) : .error e ∈ rs := by
  induction rs with
  | nil => cases h
  | cons r rs ih =>
    cases r with
    | ok a => exact List.mem_cons_of_mem _ (ih h)
    | error e' =>
      obtain rfl := Option.some.inj h
      exact List.mem_cons_self

/-- the error of filters and sort keys is that of their paths, or of one of them -/
theorem SelectPlan.extend_eq_error {plan found : SelectPlan} {filters : List Filter}
    {sort : List SortKey} {policy : SortPolicy}
    (h : plan.extend schema filters sort policy = (found, some e)) :
    resolveJoins schema plan.entity
        (filters.map (·.key.path) ++ (effectiveSort sort policy).map (·.path)) = .error e ∨
      ∃ js, resolveJoins schema plan.entity
          (filters.map (·.key.path) ++ (effectiveSort sort policy).map (·.path)) = .ok js ∧
        ((∃ f ∈ filters, predicateOf schema plan.entity (plan.joins.merge js) f = .error e) ∨
          ∃ k ∈ effectiveSort sort policy,
            orderOf schema plan.entity (plan.joins.merge js) k = .error e) := by
  unfold extend at h
  dsimp only at h
  split at h
  · next hjoins =>
    obtain rfl := Option.some.inj (Prod.mk.inj h).2
    exact .inl hjoins
  · next js hjs =>
    refine .inr ⟨js, hjs, ?_⟩
    split at h
    · next hfault =>
      obtain rfl := Option.some.inj (Prod.mk.inj h).2
      exact .inl (List.mem_map.1 (untilFault_mem hfault))
    · exact .inr (List.mem_map.1 (untilFault_mem (Prod.mk.inj h).2))

/-! ### plans -/

/-- a relationship that can be walked to, and has no target -/
inductive Error.Dangling (schema : Schema) (root : Entity) : Error → Prop where
  | target {rs : List Relationship} {last : Entity} {r : Relationship}
      (walk : Walk schema root rs last) (declared : r ∈ last.relationships)
      (missing : schema.entity? r.target = none) :
      Dangling schema root (.config (.missingReference .entity r.target))

theorem error_of_resolveJoins {paths : List Path}
    (h : resolveJoins schema root paths = .error e) : e.QueryFault ∨ e.Dangling schema root := by
  obtain ⟨f, p, hfirst, rfl⟩ := resolveJoins_eq_error h
  obtain ⟨rs, last, hw, hunknown | ⟨r, hr, hnone, hmissing⟩⟩ := walk_error hfirst.stops
  · rw [hunknown]
    exact .inl (.noSuchRelationship _ _)
  · rw [hmissing]
    exact .inr (.target hw hr hnone)

/-- with the joins of its paths a plan finds all the entities of its joins -/
theorem queryFault_of_columnRef {paths : List Path} {js : Joins}
    (hjs : resolveJoins schema root paths = .ok js) {path : Path} {field : String}
    (h : columnRef schema root js path field = .error e) : e.QueryFault := by
  rcases columnRef_error h with hquery | ⟨j, hj, hnone, _⟩
  · exact hquery
  · obtain ⟨entity, hentity⟩ := entity?_isSome_of_resolveJoins hjs (Dict.get?_eq_some_iff.1 hj)
    rw [hentity] at hnone
    cases hnone

/-- a plan is refused for a filter or a sort key, unless the schema is to blame -/
theorem planOf_error {filters : Filters} {sort : List SortKey} {policy : SortPolicy}
    (h : planOf schema root filters sort policy = .error e) :
    e.QueryFault ∨ e.Dangling schema root := by
  rcases bind_eq_error.1 h with hread | ⟨fs, _, h⟩
  · exact .inl (readFilters_error hread)
  unfold SelectPlan.assemble SelectPlan.apply at h
  split at h
  · cases h
  · next found err hextend =>
    obtain rfl := Except.error.inj h
    rcases SelectPlan.extend_eq_error hextend with hjoins | ⟨js, hjs, hpart⟩
    · exact error_of_resolveJoins hjoins
    · rw [SelectPlan.merge_ofEntity] at hpart
      rcases hpart with ⟨f, _, hf⟩ | ⟨k, _, hk⟩
      · rcases bind_eq_error.1 hf with hcolumn | ⟨c, _, hf⟩
        · exact .inl (queryFault_of_columnRef hjs hcolumn)
        · rcases bind_eq_error.1 hf with hvalue | ⟨x, _, hf⟩
          · exact .inl (operandFor_error hvalue).query
          · cases hf
      · rcases bind_eq_error.1 hk with hcolumn | ⟨c, _, hk⟩
        · exact .inl (queryFault_of_columnRef hjs hcolumn)
        · cases hk

theorem Error.not_dangling (hs : schema.WellFormed) (hroot : root ∈ schema.entities) :
    ¬ e.Dangling schema root := by
  rintro ⟨hw, hr, hnone⟩
  obtain ⟨target, _, hfound⟩ := Schema.exists_target hs (hw.mem hroot) hr
  rw [hfound] at hnone
  cases hnone

/-- where all targets exist, a plan is refused for a filter or a sort key -/
theorem queryFault_of_planOf (hs : schema.WellFormed) (hroot : root ∈ schema.entities)
    {filters : Filters} {sort : List SortKey} {policy : SortPolicy}
    (h : planOf schema root filters sort policy = .error e) : e.QueryFault :=
  (planOf_error h).resolve_right (Error.not_dangling hs hroot)

end EntityAccess
