import EntityAccess.Proofs.Occurrences
import EntityAccess.Proofs.Transitions.Runs

/-!
# what a write executes

A write executes one statement of its own, inside a transaction and after the rule before it; all
else that it executes comes from its rules or reads the record again.

* `of_get?_projected` : where a value that is written comes from;
* `runOn_prepareCreate` : the values and the primary key of a new row, without a statement;
* `Hooks.Leading` : rules that act before a write, whatever they execute;
* `executes_create`, `executes_update` : where a statement of a write comes from, and what has been
  logged before its own one;
* `Statement.bindings` : the values that a statement binds to columns of an entity.
-/

namespace EntityAccess

open EntityAccess.Action
open Program (Store)

/-- the columns of an entity that a statement binds, with their values -/
def Statement.bindings (e : Entity) : Statement → Sql.Assignments
  | .insert e' values => if e' = e then values else []
  | .update e' _ values => if e' = e then values else []
  | _ => []

theorem Statement.bindings_of_isRead {q : Statement} (h : q.isRead = true) (e : Entity) :
    q.bindings e = [] := by
  cases q with
  | insert e' values => cases h
  | update e' id values => cases h
  | _ => rfl

/-- rules that act on a write only before it, or after a creation -/
structure Hooks.Leading (h : Hooks) : Prop where
  relationship : ∀ id input current, h.relationship id input current = pure ()
  postUpdate : ∀ record changes, h.postUpdate record changes = pure ()
  customizeQuery : ∀ plan filters, h.customizeQuery plan filters = pure plan
  modifyLoadPlan : ∀ filters plan, h.modifyLoadPlan filters plan = pure plan

theorem Hooks.Preparing.leading {h : Hooks} (hhooks : h.Preparing) : h.Leading :=
  ⟨hhooks.relationship, hhooks.postUpdate, hhooks.customizeQuery, hhooks.modifyLoadPlan⟩

/-- reading a record again changes nothing -/
theorem Hooks.Leading.reading_reread {h : Hooks} (hhooks : h.Leading) {schema : Schema}
    {e : Entity} {load : LoadPlan} (id : String) :
    Reading (Repository.reread ⟨schema, e, h, load⟩ id) := by
  refine Repository.reading_reread (fun plan filters => ?_) (fun filters plan => ?_) id
  · rw [hhooks.customizeQuery]
    exact .pure plan
  · rw [hhooks.modifyLoadPlan]
    exact .pure plan

namespace Entity

variable {e : Entity} {current : Record} {input values : Row} {changes : Changes}

theorem eq_projected_of_checkCreate (h : e.checkCreate input = .ok values) :
    values = e.projected input := by
  obtain ⟨_, _, hvalues⟩ := Outcome.bind_eq_ok.1 h
  simpa [pure, Except.pure] using hvalues.symm

theorem diff_of_prepareUpdate (h : e.prepareUpdate current input = .ok (values, changes)) :
    e.diff current (e.projected input) = .ok (values, changes) := by
  unfold prepareUpdate at h
  split at h
  · cases h
  · exact h

/-- a projected value is the payload's, and not null -/
theorem of_get?_projected {name : String} {v : Json} (h : (e.projected input).get? name = some v) :
    input.get? name = some v ∧ v.isNull = false ∧ ∃ c, e.writableColumn? name = some c := by
  have hfilter : (e.projected input).get? name = (input.get? name).filter (e.takes name) :=
    Dict.get?_filter input e.takes name
  rw [hfilter] at h
  obtain ⟨hinput, htakes⟩ := Option.filter_eq_some_iff.1 h
  unfold takes at htakes
  split at htakes
  · next c hc =>
    refine ⟨hinput, ?_, c, hc⟩
    cases hnull : v.isNull with
    | true => simp [hnull] at htakes
    | false => rfl
  · cases htakes

end Entity

namespace Repository

variable {schema : Schema} {e : Entity} {hooks : Hooks} {load : LoadPlan} {r : Repository}
  {σ : Type} {store : Store σ} {s s' : σ} {input : Row} {current : Record} {before : List Event}
  {q : Statement}

/-- the primary key of a new row: that of the payload, or one that is not in use -/
def keyOfNew (input : Row) (store : Store σ) (s : σ) : String :=
  (Entity.suppliedId input).getD (store.fresh s).1

/-- a payload is refused, or it has a primary key and values; nothing is executed -/
theorem runOn_prepareCreate (r : Repository) (input : Row) (store : Store σ) (s : σ) :
    ∃ mid, (r.prepareCreate input).runOn store s =
      ((r.entity.checkCreate input).map (keyOfNew input store s, ·), [], mid) := by
  unfold prepareCreate
  rw [runOn_liftM_bind]
  cases r.entity.checkCreate input with
  | error err => exact ⟨s, rfl⟩
  | ok values =>
    unfold keyOfNew
    dsimp only
    cases Entity.suppliedId input with
    | some id => exact ⟨s, rfl⟩
    | none => exact ⟨(store.fresh s).2, rfl⟩

theorem runOn_prepareCreate_cases {result : Except Error (String × Row)} {log : List Event}
    (h : (r.prepareCreate input).runOn store s = (result, log, s')) :
    log = [] ∧ result =
      (r.entity.checkCreate input).map fun values => (keyOfNew input store s, values) := by
  obtain ⟨mid, hrun⟩ := runOn_prepareCreate r input store s
  rw [hrun] at h
  simp only [Prod.mk.injEq] at h
  exact ⟨h.2.1.symm, h.1.symm⟩

/-- a statement of a creation: one of the rule before it, the insertion, a read, or one of the rule
after it -/
theorem executes_create (hhooks : hooks.Leading)
    (h : (create ⟨schema, e, hooks, load⟩ input).Executes store s before q) :
    (∃ id values inner mid, before = .marked .begin :: inner ∧
        (hooks.preCreate id values input).Executes store mid inner q) ∨
      (∃ id values inner hooked assigned mid mid', before = .marked .begin :: inner ∧
        e.checkCreate input = .ok values ∧
        (hooks.preCreate id values input).runOn store mid = (.ok hooked, inner, mid') ∧
        e.assignments hooked = .ok assigned ∧
        q = .insert e ((primaryKey, .text id) :: assigned)) ∨
      q.isRead = true ∨
      ∃ record rest mid, (hooks.postCreate record).Executes store mid rest q := by
  unfold create at h
  rcases h.of_bind with hnone | ⟨⟨id, values⟩, first, s₁, rest, hprepare, rfl, hwrite⟩
  · obtain ⟨mid, hrun⟩ := runOn_prepareCreate ⟨schema, e, hooks, load⟩ input store s
    have hlog := hnone.mem_log
    rw [hrun] at hlog
    exact absurd hlog List.not_mem_nil
  obtain ⟨rfl, hvalues⟩ := runOn_prepareCreate_cases hprepare
  obtain ⟨values, hcheck, heq⟩ := Outcome.map_eq_ok.1 hvalues.symm
  obtain ⟨rfl, rfl⟩ := Prod.mk.inj heq
  rw [List.nil_append]
  -- inside the transaction, or after it has been committed
  rcases hwrite.of_bind with hrow | ⟨_, _, s₂, rest', _, _, hafter⟩
  · obtain ⟨inner, rfl, hbody⟩ := hrow.of_transaction
    rcases hbody.of_bind with hrule | ⟨hooked, log, s₂, last, hrule, rfl, hrest⟩
    · exact .inl ⟨_, _, inner, s₁, rfl, hrule⟩
    · obtain ⟨assigned, hassigned, hinsert⟩ := hrest.of_liftM_bind
      rcases hinsert.of_bind with hinsert | ⟨_, _, _, _, _, _, hrelated⟩
      · obtain ⟨rfl, rfl⟩ := hinsert.of_query
        rw [List.append_nil]
        exact .inr (.inl ⟨_, _, log, hooked, assigned, s₁, s₂, rfl, hcheck, hrule, hassigned, rfl⟩)
      · dsimp only at hrelated
        rw [hhooks.relationship] at hrelated
        exact hrelated.not_pure.elim
  · rcases hafter.of_bind with hread | ⟨record, _, s₃, rest'', _, _, hafter⟩
    · exact .inr (.inr (.inl ((hhooks.reading_reread _).of_mem_log hread.mem_log)))
    · rcases hafter.of_bind with hrule | ⟨_, _, _, _, _, _, hpure⟩
      · exact .inr (.inr (.inr ⟨record, rest'', s₃, hrule⟩))
      · exact hpure.not_pure.elim

/-- a statement of an update: one of the rule before it, the update itself, or a read -/
theorem executes_update (hhooks : hooks.Leading)
    (h : (update ⟨schema, e, hooks, load⟩ current input).Executes store s before q) :
    (∃ values inner, before = .marked .begin :: inner ∧
        (hooks.preUpdate current values input).Executes store s inner q) ∨
      (∃ values changes inner hooked kept changes' assigned mid, before = .marked .begin :: inner ∧
        e.prepareUpdate current input = .ok (values, changes) ∧
        (hooks.preUpdate current values input).runOn store s = (.ok hooked, inner, mid) ∧
        e.diff current hooked = .ok (kept, changes') ∧ e.assignments kept = .ok assigned ∧
        kept.isEmpty = false ∧ q = .update e current.id assigned) ∨
      q.isRead = true := by
  unfold update at h
  obtain ⟨⟨values, changes⟩, hprepare, hwrite⟩ := h.of_liftM_bind
  rcases hwrite.of_bind with hrow | ⟨_, _, s₂, _, _, _, hafter⟩
  · obtain ⟨inner, rfl, hbody⟩ := hrow.of_transaction
    rcases hbody.of_bind with hrule | ⟨hooked, log, s₂, rest, hrule, rfl, hrest⟩
    · exact .inl ⟨values, inner, rfl, hrule⟩
    · obtain ⟨⟨kept, changes'⟩, hdiff, hchecked⟩ := hrest.of_liftM_bind
      obtain ⟨_, _, hlast⟩ := hchecked.of_liftM_bind
      rcases hlast.of_bind with hassign | ⟨_, _, _, _, _, _, hrelated⟩
      · unfold assign at hassign
        split at hassign
        · exact hassign.not_pure.elim
        · next hsome =>
          obtain ⟨assigned, hassigned, hupdate⟩ := hassign.of_liftM_bind
          obtain ⟨rfl, rfl⟩ := hupdate.of_query
          rw [List.append_nil]
          exact .inr (.inl ⟨values, changes, log, hooked, kept, changes', assigned, s₂, rfl,
            hprepare, hrule, hdiff, hassigned, Bool.eq_false_iff.2 hsome, rfl⟩)
      · dsimp only at hrelated
        rw [hhooks.relationship] at hrelated
        rcases hrelated.of_bind with hpure | ⟨_, _, _, _, _, _, hpure⟩
        · exact hpure.not_pure.elim
        · exact hpure.not_pure.elim
  · rcases hafter.of_bind with hread | ⟨record, _, _, _, _, _, hrule⟩
    · exact .inr (.inr ((hhooks.reading_reread _).of_mem_log hread.mem_log))
    · dsimp only at hrule
      rw [hhooks.postUpdate] at hrule
      rcases hrule.of_bind with hpure | ⟨_, _, _, _, _, _, hpure⟩
      · exact hpure.not_pure.elim
      · exact hpure.not_pure.elim

end Repository
end EntityAccess
