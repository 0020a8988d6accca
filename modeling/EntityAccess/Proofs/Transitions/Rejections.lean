import EntityAccess.Proofs.Actions
import EntityAccess.Proofs.Query.Faults
import EntityAccess.Repository.Write

/-!
# who refuses a change of state

Casts, plans, reads and statements fail in ways of their own; a refused change of state comes from
nothing but the check of the graph, or from a rule.

* `MildOutcome`, `Mild` : outcomes and actions that refuse no change of state;
* `mild_castFilter`, `mild_castWrite` : casts;
* `mild_planOf` : plans;
* `mild_reread` : reading a record again.
-/

namespace EntityAccess

open Program (Store)

/-- a refused change of state -/
def Error.isRejection : Error → Bool
  | .transitionNotPermitted _ _ _ => true
  | _ => false

/-- an outcome that is no refused change of state -/
def MildOutcome {α : Type} (x : Except Error α) : Prop :=
  ∀ e, x = .error e → e.isRejection = false

/-- an action that refuses no change of state -/
def Mild {α : Type} (x : Action α) : Prop :=
  ∀ (σ : Type) (store : Store σ) (s : σ), MildOutcome (x.runOn store s).1

/-! ### outcomes -/

namespace MildOutcome

variable {α β : Type}

theorem ok (a : α) : MildOutcome (.ok a : Except Error α) := by
  intro e h
  simp at h

theorem error {e : Error} (h : e.isRejection = false) :
    MildOutcome (.error e : Except Error α) := by
  intro e' he
  obtain rfl := Except.error.inj he
  exact h

theorem bind {x : Except Error α} {f : α → Except Error β} (hx : MildOutcome x)
    (hf : ∀ a, MildOutcome (f a)) : MildOutcome (x >>= f) := by
  cases x with
  | ok a => exact hf a
  | error e => exact error (hx e rfl)

theorem map {x : Except Error α} (hx : MildOutcome x) (f : α → β) : MildOutcome (x.map f) := by
  cases x with
  | ok a => exact ok (f a)
  | error e => exact error (hx e rfl)

theorem mapM {f : α → Except Error β} (hf : ∀ a, MildOutcome (f a)) (l : List α) :
    MildOutcome (l.mapM f) := by
  intro e h
  obtain ⟨a, _, ha⟩ := Outcome.mapM_error h
  exact hf a e ha

end MildOutcome

/-! ### casts -/

theorem Error.QueryFault.not_rejection {e : Error} (h : e.QueryFault) : e.isRejection = false := by
  cases h <;> rfl

theorem mild_castFilter (type : ColumnType) (v : Json) : MildOutcome (castFilter type v) :=
  fun _ h => (castFilter_error h).query.not_rejection

theorem mild_castWrite (type : ColumnType) (v : Json) : MildOutcome (castWrite type v) :=
  fun _ h => (castWrite_error h).query.not_rejection

/-! ### payloads -/

namespace Entity

theorem mild_scalarColumn (e : Entity) (name : String) : MildOutcome (e.scalarColumn name) := by
  unfold scalarColumn
  split
  · exact .ok _
  · exact .error rfl

theorem mild_assignments (e : Entity) (values : Row) : MildOutcome (e.assignments values) := by
  refine .mapM (fun entry => ?_) _
  unfold assignment
  split
  · exact .map (mild_castWrite _ _) _
  · exact .error rfl

theorem mild_diff (e : Entity) (current : Record) (values : Row) :
    MildOutcome (e.diff current values) := by
  refine .bind (.mapM (fun entry => ?_) _) fun found => .ok _
  exact .bind (e.mild_scalarColumn _) fun c => .bind (mild_castWrite _ _) fun x => .ok _

end Entity

/-! ### plans -/

theorem mild_planOf (schema : Schema) (e : Entity) (filters : Filters) (sort : List SortKey)
    (policy : SortPolicy) : MildOutcome (planOf schema e filters sort policy) := by
  intro err h
  rcases planOf_error h with hquery | hdangling
  · exact hquery.not_rejection
  · cases hdangling
    rfl

/-! ### actions -/

namespace Mild

variable {α β : Type}

theorem pure (a : α) : Mild (pure a : Action α) := fun _ _ _ => .ok a

theorem liftM {x : Except Error α} (h : MildOutcome x) : Mild (liftM x : Action α) :=
  fun _ _ _ => h

theorem query (q : Statement) (read : ResultSet → Except DatabaseError α) :
    Mild (Action.query q read) := by
  intro σ store s
  rw [Action.runOn_query]
  unfold Action.ofReply
  cases (store.reply q s).1.bind read with
  | ok a => exact .ok a
  | error e => exact .error rfl

theorem bind {x : Action α} {f : α → Action β} (hx : Mild x) (hf : ∀ a, Mild (f a)) :
    Mild (x >>= f) := by
  intro σ store s
  have hout := hx σ store s
  rcases h : x.runOn store s with ⟨e | a, log, s'⟩
  · rw [Action.runOn_bind_error f h]
    rw [h] at hout
    exact .error (hout e rfl)
  · rw [Action.runOn_bind_ok f h]
    exact hf a σ store s'

theorem foldlM {f : β → α → Action β} (hf : ∀ b a, Mild (f b a)) (l : List α) (b : β) :
    Mild (l.foldlM f b) := by
  induction l generalizing b with
  | nil => exact .pure b
  | cons a l ih =>
    rw [List.foldlM_cons]
    exact (hf b a).bind ih

end Mild

namespace Repository

variable {r : Repository}

theorem mild_relation (name : String) : MildOutcome (r.relation name) := by
  unfold relation
  split
  · exact .error rfl
  · split
    · exact .error rfl
    · exact .ok _

theorem mild_loadRelated (records : List Record) (load : LoadPlan) :
    Mild (r.loadRelated records load) := by
  unfold loadRelated
  split
  · exact .pure _
  · refine .foldlM (fun records name => ?_) _ _
    unfold loadOne
    refine .bind (.liftM (mild_relation name)) fun rel => ?_
    refine .bind (.liftM (.mapM (mild_castFilter _) _)) fun keys => .bind ?_ fun rows => .pure _
    unfold relatedRows
    split
    · exact .pure _
    · exact .query _ _

/-- reading a record again, under rules that leave reads alone -/
theorem mild_reread (hq : ∀ plan filters, r.hooks.customizeQuery plan filters = pure plan)
    (hl : ∀ filters plan, r.hooks.modifyLoadPlan filters plan = pure plan) (id : String) :
    Mild (r.reread id) := by
  unfold reread getById get compile resolveLoadPlan
  refine .bind ?_ fun record => .liftM ?_
  · refine .bind (.bind (.liftM (mild_planOf _ _ _ _ _)) fun plan => ?_) fun plan => ?_
    · rw [hq]
      exact .pure plan
    · refine .bind (.bind (.liftM (.ok _)) fun load => ?_) fun load => ?_
      · rw [hl]
        exact .pure load
      · exact .bind (.bind (.query _ _) fun rows => mild_loadRelated _ _) fun records => .pure _
  · unfold required
    split
    · exact .ok _
    · exact .error rfl

end Repository
end EntityAccess
