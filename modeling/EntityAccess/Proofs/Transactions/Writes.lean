import EntityAccess.Partner
import EntityAccess.Proofs.Schema.Accepted
import EntityAccess.Proofs.Transactions.Orderly

/-!
# writes and their transactions

A creation and an update are made of reads and of transactions that are neither nested nor left
open; whatever fails before the first commit leaves nothing committed.

* `Hooks.Orderly` : rules that keep to where they act;
* `orderly_create`, `orderly_update` : writes under such rules;
* `writes_in_transactions` : what the log of a write looks like.
-/

namespace EntityAccess

open Program (Store)

/-! ### rules -/

/-- rules that act where they belong: those before a write inside its transaction, all others
outside of one -/
structure Hooks.Orderly (h : Hooks) : Prop where
  preCreate : ∀ id values input, Inside (h.preCreate id values input)
  preUpdate : ∀ current values input, Inside (h.preUpdate current values input)
  relationship : ∀ id input current, Inside (h.relationship id input current)
  postCreate : ∀ record, EntityAccess.Orderly (h.postCreate record)
  postUpdate : ∀ record changes, EntityAccess.Orderly (h.postUpdate record changes)
  customizeQuery : ∀ plan filters, Reading (h.customizeQuery plan filters)
  modifyLoadPlan : ∀ filters plan,
    Reading (ExceptT.lift (h.modifyLoadPlan filters plan) : Action LoadPlan)

theorem Hooks.orderly_none : Hooks.none.Orderly where
  preCreate _ values _ := .pure values
  preUpdate _ values _ := .pure values
  relationship _ _ _ := .pure ()
  postCreate _ := .pure ()
  postUpdate _ _ := .pure ()
  customizeQuery plan _ := .pure plan
  modifyLoadPlan _ plan := .pure plan

/-! ### reads -/

namespace Repository

variable {r : Repository}

theorem reading_loadOne (records : List Record) (name : String) :
    Reading (r.loadOne records name) := by
  unfold loadOne
  refine .bind (.liftM _) fun rel => .bind (.liftM _) fun keys => .bind ?_ fun rows => .pure _
  unfold relatedRows
  split
  · exact .pure []
  · exact .query (by rfl) _

theorem reading_loadRelated (records : List Record) (load : LoadPlan) :
    Reading (r.loadRelated records load) := by
  unfold loadRelated
  split
  · exact .pure _
  · exact .foldlM (fun records name => reading_loadOne records name) _ _

theorem reading_fetch (plan : SelectPlan) (load : LoadPlan) : Reading (r.fetch plan load) :=
  .bind (.query (by rfl) _) fun _ => reading_loadRelated _ load

section

variable (hq : ∀ plan filters, Reading (r.hooks.customizeQuery plan filters))
  (hl : ∀ filters plan,
    Reading (ExceptT.lift (r.hooks.modifyLoadPlan filters plan) : Action LoadPlan))

include hq hl

theorem reading_getById (id : String) : Reading (r.getById id) := by
  unfold getById get compile resolveLoadPlan
  refine .bind (.bind (.liftM _) fun plan => hq plan _) fun plan => ?_
  refine .bind (.bind (.liftM _) fun load => hl _ load) fun load => ?_
  exact .bind (reading_fetch _ _) fun records => .pure _

theorem reading_reread (id : String) : Reading (r.reread id) :=
  .bind (reading_getById hq hl id) fun _ => .liftM _

end

variable (h : r.hooks.Orderly)

include h

/-! ### writes -/

theorem orderly_insertRow (id : String) (values input : Row) :
    Orderly (r.insertRow id values input) := by
  refine .transaction (.bind (h.preCreate id values input) fun values => ?_)
  refine .bind (.liftM _) fun assignments => .bind (.query trivial _) fun _ => ?_
  exact h.relationship id input none

theorem orderly_create (input : Row) : Orderly (r.create input) := by
  unfold create
  refine .bind ?_ fun (id, values) => ?_
  · unfold prepareCreate
    refine .bind (.liftM _) fun values => ?_
    split
    · exact .pure _
    · exact .bind .fresh fun id => .pure _
  · have hreread := reading_reread h.customizeQuery h.modifyLoadPlan id
    refine .bind (orderly_insertRow h id values input) fun _ => ?_
    refine .bind (.of_reading hreread) fun record => ?_
    exact .bind (h.postCreate record) fun _ => .pure record

theorem orderly_updateRow (current : Record) (values input : Row) :
    Orderly (r.updateRow current values input) := by
  refine .transaction (.bind (h.preUpdate current values input) fun values => ?_)
  refine .bind (.liftM _) fun (values, changes) => .bind (.liftM _) fun _ => ?_
  refine .bind ?_ fun _ => .bind (h.relationship current.id input (some current)) fun _ => .pure _
  unfold assign
  split
  · exact .pure ()
  · exact .bind (.liftM _) fun assignments => .query trivial _

theorem orderly_update (current : Record) (input : Row) : Orderly (r.update current input) := by
  unfold update
  refine .bind (.liftM _) fun (values, _) => ?_
  refine .bind (orderly_updateRow h current values input) fun changes => ?_
  refine .bind (.of_reading (reading_reread h.customizeQuery h.modifyLoadPlan _)) fun record => ?_
  exact .bind (h.postUpdate record changes) fun _ => .pure record

end Repository

/-! ### the rules for partners -/

namespace Partner

theorem inside_ensureUniqueName (partners : Entity) (name exceptId : String) :
    Inside (ensureUniqueName partners name exceptId) := by
  refine .bind (.query trivial _) fun taken => ?_
  split
  · exact .liftM (.error _)
  · exact .pure ()

theorem inside_preCreate (partners : Entity) (id : String) (values input : Row) :
    Inside (preCreate partners id values input) := by
  unfold preCreate
  split
  · exact .pure values
  · exact .bind (inside_ensureUniqueName _ _ _) fun _ => .pure _

theorem inside_preUpdate (partners : Entity) (current : Record) (values input : Row) :
    Inside (preUpdate partners current values input) := by
  unfold preUpdate
  split
  · exact .pure values
  · exact .bind (inside_ensureUniqueName _ _ _) fun _ => .pure _

theorem orderly_postCreate {members : Repository} (hm : members.hooks.Orderly) (record : Record) :
    Orderly (postCreate members record) := by
  unfold postCreate
  split
  · exact .pure ()
  · exact .discard (Repository.orderly_create hm _)

theorem orderly_hooks {schema : Schema} {h : Hooks} (hh : hooks schema = .ok h) : h.Orderly := by
  unfold hooks at hh
  split at hh
  · simp at hh
  · simp at hh
  · next partners members _ _ =>
    obtain rfl := Except.ok.inj hh
    exact { Hooks.orderly_none with
      preCreate := inside_preCreate partners
      preUpdate := inside_preUpdate partners
      postCreate := orderly_postCreate Hooks.orderly_none }

end Partner

/-! ### the log of a write -/

/-- creations and updates, without rules or with those for partners, against any store -/
theorem writes_in_transactions (r : Repository)
    (hr : r.hooks = .none ∨ Partner.hooks r.schema = .ok r.hooks) (input : Row) (current : Record)
    {σ : Type} (store : Store σ) (s : σ) :
    (∃ entries result s', Transactional store s (r.create input) entries result s') ∧
      ∃ entries result s', Transactional store s (r.update current input) entries result s' := by
  have horderly : r.hooks.Orderly := by
    rcases hr with hnone | hpartner
    · exact hnone ▸ Hooks.orderly_none
    · exact Partner.orderly_hooks hpartner
  exact ⟨(r.orderly_create horderly input).transactional store s,
    (r.orderly_update horderly current input).transactional store s⟩

/-- a database that refuses everything -/
def refusing : Store Unit := ⟨fun _ s => (.error .driver, s), fun s => ("5", s)⟩

/-- a refused insertion is rolled back -/
theorem create_refused :
    ∃ entries s', Transactional refusing () ((Repository.plain tasksSchema tasksEntity).create
        (Dict.ofList [("state", .str "open")])) entries (.error (.database .driver)) s' ∧
      entries.flatMap Entry.events = [.marked .begin,
        .executed (.insert tasksEntity [("id", .text "5"), ("state", .text "open")]),
        .marked .rollback] := by
  obtain ⟨⟨entries, result, s', h⟩, _⟩ :=
    writes_in_transactions (.plain tasksSchema tasksEntity) (.inl rfl)
      (Dict.ofList [("state", .str "open")]) (.ofRow .empty) refusing ()
  have hrun : ((Repository.plain tasksSchema tasksEntity).create
      (Dict.ofList [("state", .str "open")])).runOn refusing () =
        (.error (.database .driver), [.marked .begin,
          .executed (.insert tasksEntity [("id", .text "5"), ("state", .text "open")]),
          .marked .rollback], ()) := by rfl
  have heq := h.run.symm.trans hrun
  simp only [Prod.mk.injEq] at heq
  obtain ⟨rfl, hevents, _⟩ := heq
  exact ⟨entries, s', h, hevents⟩

end EntityAccess
