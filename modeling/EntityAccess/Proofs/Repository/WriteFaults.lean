import EntityAccess.Proofs.Partner.Memberships
import EntityAccess.Proofs.Repository.Assignment
import EntityAccess.Proofs.Repository.Faults

/-!
# what writes fail with

A write whose payload has been accepted fails with the database, with its rules, with a refused
change of state, or as the read of its record does.

* `Hooks.Courteous` : rules that refuse no payload for what a caller can do wrong;
* `assignable_of_prepareUpdate` : an accepted payload can be assigned;
* `ends_create`, `ends_update` : what writes fail with;
* `courteous_rules` : the rules for partners.
-/

namespace EntityAccess

open EntityAccess.Action Outcome
open Program (Store)

/-- the values can be assigned -/
def Entity.Assignable (e : Entity) (values : Row) : Prop :=
  ∃ assigned, e.assignments values = .ok assigned

/-- rules that fail with nothing that a caller can do wrong; those before a creation leave values
that can be assigned, those before an update leave them as they are -/
structure Hooks.Courteous (e : Entity) (h : Hooks) : Prop where
  preCreate : ∀ id values input, e.Assignable values →
    Ends (fun err => err.isCaller = false) e.Assignable (h.preCreate id values input)
  preUpdate : ∀ current values input,
    Ends (fun err => err.isCaller = false) (fun hooked => hooked = values)
      (h.preUpdate current values input)
  postCreate : ∀ record,
    Ends (fun err => err.isCaller = false) (fun _ => True) (h.postCreate record)

theorem Hooks.courteous_none (e : Entity) : Hooks.none.Courteous e where
  preCreate _ _ _ h := .pure h
  preUpdate _ _ _ := .pure rfl
  postCreate _ := .pure trivial

namespace Entity

variable {e : Entity} {current : Record} {input values : Row} {changes : Changes}

theorem assignable_of_checkCreate (h : e.checkCreate input = .ok values) : e.Assignable values := by
  obtain ⟨assigned, hassigned, hvalues⟩ := bind_eq_ok.1 h
  obtain rfl : e.projected input = values := by simpa [pure, Except.pure] using hvalues
  exact ⟨assigned, hassigned⟩

/-- what an update keeps of an accepted payload is compared again and assigned -/
theorem assignable_of_prepareUpdate (h : e.prepareUpdate current input = .ok (values, changes)) :
    ∃ kept changes', e.diff current values = .ok (kept, changes') ∧ e.Assignable kept := by
  have hdiff := diff_of_prepareUpdate h
  have hcast := diff_isOk.1 ⟨_, hdiff⟩
  have hsub : ∀ entry ∈ values.entries, entry ∈ (e.projected input).entries := by
    intro entry hentry
    rw [diff_entries hdiff] at hentry
    exact (List.mem_filter.1 hentry).1
  obtain ⟨⟨kept, changes'⟩, hagain⟩ :=
    diff_isOk.2 fun entry hentry => hcast entry (hsub entry hentry)
  refine ⟨kept, changes', hagain, mapM_isOk.2 fun entry hentry => ?_⟩
  rw [diff_entries hagain] at hentry
  have hprojected := hsub entry (List.mem_filter.1 hentry).1
  obtain ⟨y, hy⟩ := hcast entry hprojected
  refine ⟨(entry.1, y), ?_⟩
  rw [assignment_of_takes (List.mem_filter.1 hprojected).2, hy]
  rfl

end Entity

/-- a change of state is refused as such -/
theorem isCaller_of_checkTransition {e : Entity} {current : Record} {kept : Row} {err : Error}
    (h : Repository.checkTransition e current kept = .error err) : err.isCaller = false := by
  unfold Repository.checkTransition at h
  split at h
  · unfold TransitionGraph.validate at h
    split at h
    · cases h
    · dsimp only at h
      split at h
      · cases h
      · obtain rfl := Except.error.inj h
        rfl
  · cases h

namespace Repository

variable {r : Repository} {input values : Row} {current : Record} {changes : Changes}
  (hr : r.Served) (hrules : r.hooks.Courteous r.entity)

include hr hrules

/-- a creation from a payload that has been accepted -/
theorem ends_create (hcheck : r.entity.checkCreate input = .ok values) :
    Ends (r.ReadFault r.loadPlan) (fun _ => True) (r.create input) := by
  have hprepare : Ends (r.ReadFault r.loadPlan) (fun prepared => r.entity.Assignable prepared.2)
      (r.prepareCreate input) := by
    refine .liftM_bind (fun e he => ?_) fun values hvalues => ?_
    · rw [hcheck] at he
      cases he
    · have hassignable := Entity.assignable_of_checkCreate hvalues
      split
      · exact .pure hassignable
      · exact Ends.bind (Q := fun _ => True) (fun _ _ _ => ⟨fun _ _ => trivial, nofun⟩)
          fun id _ => .pure hassignable
  unfold create
  refine hprepare.bind fun ⟨id, values⟩ hassignable => ?_
  have hrow : Ends (r.ReadFault r.loadPlan) (fun _ => True) (r.insertRow id values input) := by
    refine .transaction (((hrules.preCreate id values input hassignable).mono (fun _ h => .inl h)
      fun _ h => h).bind fun hooked hhooked => ?_)
    refine .liftM_bind (fun e he => ?_) fun assigned _ => ?_
    · obtain ⟨assigned, hassigned⟩ := hhooked
      rw [hassigned] at he
      cases he
    · rw [hr.hooks.relationship]
      exact Ends.bind (Q := fun _ => True) (.query (fun _ _ _ => trivial) readFault_database)
        fun _ _ => .pure trivial
  refine hrow.bind fun _ _ => (ends_reread hr id).bind fun record _ => ?_
  exact ((hrules.postCreate record).mono (fun _ h => .inl h) fun _ h => h).bind fun _ _ =>
    .pure trivial

/-- an update with a payload that has been accepted -/
theorem ends_update (hprepare : r.entity.prepareUpdate current input = .ok (values, changes)) :
    Ends (r.ReadFault r.loadPlan) (fun _ => True) (r.update current input) := by
  unfold update
  refine .liftM_bind (fun e he => ?_) fun ⟨values', changes'⟩ hvalues => ?_
  · rw [hprepare] at he
    cases he
  have hrow : Ends (r.ReadFault r.loadPlan) (fun _ => True)
      (r.updateRow current values' input) := by
    refine .transaction (((hrules.preUpdate current values' input).mono (fun _ h => .inl h)
      fun _ h => h).bind fun hooked hhooked => ?_)
    subst hhooked
    -- the values are compared and cast again, as they have been in front of the transaction
    obtain ⟨kept, changes'', hdiff, assigned, hassigned⟩ :=
      Entity.assignable_of_prepareUpdate hvalues
    refine .liftM_bind (fun e he => ?_) fun ⟨kept', _⟩ hkept => ?_
    · rw [hdiff] at he
      cases he
    obtain ⟨rfl, _⟩ := Prod.mk.inj (Except.ok.inj (hdiff.symm.trans hkept))
    refine .liftM_bind (fun e he => .inl (isCaller_of_checkTransition he)) fun _ _ => ?_
    have hassign : Ends (r.ReadFault r.loadPlan) (fun _ => True)
        (assign r.entity current.id kept) := by
      unfold assign
      split
      · exact .pure trivial
      · refine .liftM_bind (fun e he => ?_) fun _ _ =>
          .query (fun _ _ _ => trivial) readFault_database
        rw [hassigned] at he
        cases he
    rw [hr.hooks.relationship]
    exact hassign.bind fun _ _ => Ends.bind (Q := fun _ => True) (.pure trivial)
      fun _ _ => .pure trivial
  refine hrow.bind fun changes _ => (ends_reread hr current.id).bind fun record _ => ?_
  rw [hr.hooks.postUpdate]
  exact Ends.bind (Q := fun _ => True) (.pure trivial) fun _ _ => .pure trivial

end Repository

/-! ### the rules for partners -/

namespace Partner

theorem ends_ensureUniqueName (partners : Entity) (name exceptId : String) :
    Ends (fun err => err.isCaller = false) (fun _ => True)
      (ensureUniqueName partners name exceptId) := by
  unfold ensureUniqueName
  refine Ends.bind (Q := fun _ => True) (.query (fun _ _ _ => trivial) Error.isCaller_database)
    fun taken _ => ?_
  split
  · exact .liftM (fun _ _ => trivial) fun e he => Except.error.inj he ▸ rfl
  · exact .pure trivial

/-- a name is assigned with or without the white space around it -/
theorem assignable_insert_name {e : Entity} (ht : e.columnType "name" = .text) {values : Row}
    (h : e.Assignable values) {t : String} (hname : textOf values "name" = some t) (t' : String) :
    e.Assignable (values.insert "name" (.str t')) := by
  have hassigned := mapM_isOk.1 h
  refine mapM_isOk.2 fun entry hentry => ?_
  rcases Dict.mem_insert.1 hentry with rfl | ⟨_, hentry⟩
  · obtain ⟨v, hv, _⟩ := Option.bind_eq_some_iff.1 hname
    obtain ⟨bound, hbound⟩ := hassigned ("name", v) (Dict.get?_eq_some_iff.1 hv)
    unfold Entity.assignment at hbound ⊢
    cases hc : e.assignableColumn? "name" with
    | none =>
      rw [hc] at hbound
      cases hbound
    | some c =>
      dsimp only
      rw [Entity.type_of_assignable hc, ht]
      exact ⟨_, rfl⟩
  · exact hassigned entry hentry

theorem courteous_rules {schema : Schema} {partners members : Entity}
    (ht : partners.columnType "name" = .text) (hcolumns : OwnerColumns partners members)
    (hmembers : (Repository.plain schema members).Served) :
    (rules schema partners members).Courteous partners where
  preCreate id values input h := by
    show Ends _ _ (preCreate partners id values input)
    unfold preCreate
    split
    · exact .pure h
    · next name hname =>
      exact (ends_ensureUniqueName _ _ _).bind fun _ _ =>
        .pure (assignable_insert_name ht h hname _)
  preUpdate current values input := by
    show Ends _ _ (preUpdate partners current values input)
    unfold preUpdate
    split
    · exact .pure rfl
    · exact (ends_ensureUniqueName _ _ _).bind fun _ _ => .pure rfl
  postCreate record := by
    show Ends _ _ (postCreate (.plain schema members) record)
    unfold postCreate
    split
    · exact .pure trivial
    · next owner _ =>
      have hcreate := Repository.ends_create hmembers (Hooks.courteous_none members)
        (checkCreate_membership hcolumns record.id owner)
      exact .discard (hcreate.mono (fun _ h => h.of_empty) fun _ h => h)

end Partner
end EntityAccess
