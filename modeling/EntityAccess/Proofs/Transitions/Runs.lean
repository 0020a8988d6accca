import EntityAccess.Proofs.Repository.Fetch
import EntityAccess.Proofs.Sql.Rows
import EntityAccess.Proofs.Transactions.Writes
import EntityAccess.Proofs.Transitions.Changes
import EntityAccess.Proofs.Transitions.Rejections

/-!
# runs of updates

Updates one after the other, each from the record that the one before has returned, under a rule
that may change their values at will: the states that are bound follow the graph, and so do the
states that a database holds which keeps what is bound.

* `updateCalls` : the calls of a run;
* `executed_update` : where a statement that updates comes from;
* `Keeps` : a database that keeps what is bound to a column;
* `updates_follow_graph` : the run, from any record, against any database.
-/

namespace EntityAccess

open EntityAccess.Action Outcome
open Program (Store)

/-- an action that executes no update -/
def NoUpdate {α : Type} (x : Action α) : Prop :=
  ∀ (σ : Type) (store : Store σ) (s : σ) (e : Entity) (id : String) (assigned : Sql.Assignments),
    .executed (.update e id assigned) ∉ (x.runOn store s).2.1

/-- one update of a run: what it starts from, what comes of it, and the store on both sides -/
structure UpdateCall (σ : Type) where
  current : Record
  input : Row
  before : σ
  outcome : Except Error Record
  log : List Event
  after : σ

/-- the updates of a run, up to the first that fails -/
def updateCalls {σ : Type} (r : Repository) (store : Store σ) :
    σ → Record → List Row → List (UpdateCall σ)
  | _, _, [] => []
  | s, current, input :: inputs =>
    let (outcome, log, s') := (r.update current input).runOn store s
    ⟨current, input, s, outcome, log, s'⟩ :: match outcome with
      | .ok next => updateCalls r store s' next inputs
      | .error _ => []

/-- the rules that only have a say in the values of an update -/
def Hooks.updating (hook : Record → Row → Row → Action Row) : Hooks :=
  { Hooks.none with preUpdate := hook }

/-- rules that act on an update only before it, and execute none of their own -/
structure Hooks.Preparing (h : Hooks) : Prop where
  preUpdate : ∀ current values input, NoUpdate (h.preUpdate current values input)
  relationship : ∀ id input current, h.relationship id input current = pure ()
  postUpdate : ∀ record changes, h.postUpdate record changes = pure ()
  customizeQuery : ∀ plan filters, h.customizeQuery plan filters = pure plan
  modifyLoadPlan : ∀ filters plan, h.modifyLoadPlan filters plan = pure plan

theorem Hooks.preparing_updating {hook : Record → Row → Row → Action Row}
    (hhook : ∀ current values input, NoUpdate (hook current values input)) :
    (Hooks.updating hook).Preparing :=
  ⟨hhook, fun _ _ _ => rfl, fun _ _ => rfl, fun _ _ => rfl, fun _ _ => rfl⟩

theorem Hooks.preparing_none : Hooks.none.Preparing := by
  have hno : ∀ current values input, NoUpdate (Hooks.none.preUpdate current values input) := by
    intro current values input σ store s e id assigned h
    simp [Hooks.none, runOn_pure] at h
  exact preparing_updating hno

section

variable {schema : Schema} {e : Entity} {load : LoadPlan} {σ : Type} {store : Store σ} {s : σ}
  {hook : Record → Row → Row → Action Row} {current : Record} {input : Row}

/-! ### one update -/

namespace Hooks.Preparing

variable {hooks : Hooks} (h : hooks.Preparing)

include h

theorem reading_getById (id : String) :
    Reading (Repository.getById ⟨schema, e, hooks, load⟩ id) := by
  refine Repository.reading_getById (fun plan filters => ?_) (fun filters plan => ?_) id
  · rw [h.customizeQuery]
    exact .pure plan
  · rw [h.modifyLoadPlan]
    exact .pure plan

/-- reading a record again changes nothing -/
theorem reading_reread (id : String) : Reading (Repository.reread ⟨schema, e, hooks, load⟩ id) :=
  .bind (h.reading_getById id) fun _ => .liftM _

end Hooks.Preparing

/-- an update statement: the values that were left by the rules, by comparing them with the current
ones, and by the checks -/
theorem executed_update {hooks : Hooks} (hhooks : hooks.Preparing) {e' : Entity} {id : String}
    {assigned : Sql.Assignments}
    (h : .executed (.update e' id assigned) ∈
      ((Repository.update ⟨schema, e, hooks, load⟩ current input).runOn store s).2.1) :
    e' = e ∧ id = current.id ∧ ∃ values changes hooked log s' kept changes',
      e.prepareUpdate current input = .ok (values, changes) ∧
      (hooks.preUpdate current values input).runOn store s = (.ok hooked, log, s') ∧
      e.diff current hooked = .ok (kept, changes') ∧
      Repository.checkTransition e current kept = .ok () ∧
      e.assignments kept = .ok assigned := by
  unfold Repository.update at h
  obtain ⟨⟨values, changes⟩, hprepare, h⟩ := mem_log_liftM_bind h
  rcases mem_log_bind h with h | ⟨_, _, s₁, _, h⟩
  · have h := mem_log_transaction h
    rcases mem_log_bind h with h | ⟨hooked, log, s₂, hhook, h⟩
    · exact absurd h (hhooks.preUpdate _ _ _ _ _ _ _ _ _)
    · obtain ⟨⟨kept, changes'⟩, hdiff, h⟩ := mem_log_liftM_bind h
      obtain ⟨_, hcheck, h⟩ := mem_log_liftM_bind h
      rcases mem_log_bind h with h | ⟨_, _, s₃, _, h⟩
      · unfold Repository.assign at h
        split at h
        · simp [runOn_pure] at h
        · obtain ⟨assigned', hassign, h⟩ := mem_log_liftM_bind h
          obtain ⟨rfl, rfl, rfl⟩ : e' = e ∧ id = current.id ∧ assigned = assigned' := by
            simpa [Action.execute, runOn_query] using h
          exact ⟨rfl, rfl, values, changes, hooked, log, s₂, kept, changes', hprepare, hhook, hdiff,
            hcheck, hassign⟩
      · rw [hhooks.relationship] at h
        rcases mem_log_bind h with h | ⟨_, _, _, _, h⟩
        · simp [runOn_pure] at h
        · simp [runOn_pure] at h
  · rcases mem_log_bind h with h | ⟨record, _, s₂, _, h⟩
    · have hread := (hhooks.reading_reread _).of_mem_log h
      simp [Statement.isRead] at hread
    · rw [hhooks.postUpdate] at h
      rcases mem_log_bind h with h | ⟨_, _, _, _, h⟩
      · simp [runOn_pure] at h
      · simp [runOn_pure] at h

/-- the write of an update whose value for the column is the one that is stored -/
theorem mild_updateRow_of_same {g : TransitionGraph} (hg : e.transitions = some g)
    (he : e.WellFormed) {c : Column} (hc : c ∈ e.columns) (hname : c.name = g.key)
    (ht : c.type = .text) {values hooked : Row} {log : List Event} {s' : σ}
    (hhooked : (hook current values input).runOn store s = (.ok hooked, log, s'))
    (hsame : ∀ v, hooked.get? g.key = some v → ∃ x, castWrite .text v = .ok x ∧
      (current.value g.key).same x.toJson = true) :
    MildOutcome ((Repository.updateRow ⟨schema, e, .updating hook, load⟩ current values input).runOn
      store s).1 := by
  have hrest : ∀ kept changes', e.diff current hooked = .ok (kept, changes') →
      Mild (do
        Repository.checkTransition e current kept
        Repository.assign e current.id kept
        (Hooks.updating hook).relationship current.id input (some current)
        return changes') := by
    intro kept changes' hdiff
    rw [Entity.checkTransition_of_same hg he hc hname ht hdiff hsame]
    refine .bind (.liftM (.ok ())) fun _ => .bind ?_ fun _ => .bind (.pure ()) fun _ => .pure _
    unfold Repository.assign
    split
    · exact .pure ()
    · exact .bind (.liftM (e.mild_assignments kept)) fun assigned => .query _ _
  unfold Repository.updateRow
  rw [runOn_transaction]
  dsimp only
  have hrule : ((Hooks.updating hook).preUpdate current values input).runOn store s =
      (.ok hooked, log, s') := hhooked
  rw [runOn_bind_ok _ hrule, runOn_liftM_bind]
  have hmild := e.mild_diff current hooked
  dsimp only
  cases hdiff : e.diff current hooked with
  | error err => exact .error (hmild err hdiff)
  | ok found => exact hrest found.1 found.2 hdiff σ store s'

/-- an update is not refused for a state that stays as it is stored -/
theorem mild_update_of_same {g : TransitionGraph} (hg : e.transitions = some g) (he : e.WellFormed)
    {c : Column} (hc : c ∈ e.columns) (hname : c.name = g.key) (ht : c.type = .text)
    {values hooked : Row} {changes : Changes} {log : List Event} {s' : σ}
    (hprepare : e.prepareUpdate current input = .ok (values, changes))
    (hhooked : (hook current values input).runOn store s = (.ok hooked, log, s'))
    (hsame : ∀ v, hooked.get? g.key = some v → ∃ x, castWrite .text v = .ok x ∧
      (current.value g.key).same x.toJson = true) :
    MildOutcome
      ((Repository.update ⟨schema, e, .updating hook, load⟩ current input).runOn store s).1 := by
  have hrow : MildOutcome ((Repository.updateRow ⟨schema, e, .updating hook, load⟩ current values
      input).runOn store s).1 := mild_updateRow_of_same hg he hc hname ht hhooked hsame
  unfold Repository.update
  rw [hprepare, runOn_liftM_bind]
  dsimp only
  rcases h : (Repository.updateRow ⟨schema, e, .updating hook, load⟩ current values input).runOn
    store s with ⟨err | changes', log', s''⟩
  · rw [runOn_bind_error _ h]
    rw [h] at hrow
    exact .error (hrow err rfl)
  · rw [runOn_bind_ok _ h]
    have hreread : Mild (Repository.reread ⟨schema, e, .updating hook, load⟩ current.id) :=
      Repository.mild_reread (fun _ _ => rfl) (fun _ _ => rfl) _
    exact (hreread.bind fun record => .bind (.pure ()) fun _ => .pure record) σ store s''

end

/-! ### what a database holds -/

/-- a database that keeps in a column of the row of an identifier what is bound to it, where `held`
is the value that it holds there -/
structure Keeps {σ : Type} (store : Store σ) (schema : Schema) (e : Entity) (id key : String)
    (held : σ → SqlValue) : Prop where
  /-- an update assigns what it binds, and nothing else -/
  updated : ∀ s assigned rs, (store.reply (.update e id assigned) s).1 = .ok rs →
    held (store.reply (.update e id assigned) s).2 =
      ((assigned.lookup key).map SqlValue.sent).getD (held s)
  /-- a refused update assigns nothing -/
  refused : ∀ s assigned err, (store.reply (.update e id assigned) s).1 = .error err →
    held (store.reply (.update e id assigned) s).2 = held s
  /-- neither does another statement -/
  others : ∀ s q, (∀ assigned, q ≠ .update e id assigned) → held (store.reply q s).2 = held s
  fresh : ∀ s, held (store.fresh s).2 = held s
  /-- a read by the identifier shows the row -/
  read : ∀ s plan rs, planOf schema e [(primaryKey, .str id)] [] .listing = .ok plan →
    (store.reply (.select schema (plan.window (some 1) none)) s).1 = .ok rs →
      rs.columns.contains primaryKey = true ∧ rs.columns.contains key = true ∧
        ∀ row ∈ rs.rows, (row.get? primaryKey).getD .null = .text id ∧
          (row.get? key).getD .null = held s

/-- a store in which nothing but updates changes what is held of a column -/
structure Assigns {σ : Type} (store : Store σ) (e : Entity) (id key : String)
    (held : σ → SqlValue) : Prop where
  updated : ∀ s assigned rs, (store.reply (.update e id assigned) s).1 = .ok rs →
    held (store.reply (.update e id assigned) s).2 =
      ((assigned.lookup key).map SqlValue.sent).getD (held s)
  refused : ∀ s assigned err, (store.reply (.update e id assigned) s).1 = .error err →
    held (store.reply (.update e id assigned) s).2 = held s
  others : ∀ s q, (∀ assigned, q ≠ .update e id assigned) → held (store.reply q s).2 = held s
  fresh : ∀ s, held (store.fresh s).2 = held s

namespace Assigns

variable {e : Entity} {σ : Type} {store : Store σ} {id key : String}
  {held : σ → SqlValue}

/-- one statement changes what is held only to what it binds, as an update -/
theorem held_reply (h : Assigns store e id key held) (q : Statement) (s : σ) :
    held (store.reply q s).2 = held s ∨ ∃ assigned x, q = .update e id assigned ∧
      (key, x) ∈ assigned ∧ held (store.reply q s).2 = x.sent := by
  by_cases hq : ∃ assigned, q = .update e id assigned
  · obtain ⟨assigned, rfl⟩ := hq
    cases hreply : (store.reply (.update e id assigned) s).1 with
    | error err => exact .inl (h.refused s assigned err hreply)
    | ok rs =>
      have hnow := h.updated s assigned rs hreply
      cases hlookup : assigned.lookup key with
      | none =>
        rw [hlookup] at hnow
        exact .inl hnow
      | some x =>
        rw [hlookup] at hnow
        obtain ⟨before, after, rfl, _⟩ := List.lookup_eq_some_iff.1 hlookup
        refine .inr ⟨_, x, rfl, ?_, hnow⟩
        exact List.mem_append_right _ List.mem_cons_self
  · exact .inl (h.others s q fun assigned heq => hq ⟨assigned, heq⟩)

/-- what is held changes only to what an update has bound -/
theorem held_run (h : Assigns store e id key held) {α : Type} (p : Program α) (s : σ) :
    held (p.run store s).2.2 = held s ∨ ∃ assigned x,
      .executed (.update e id assigned) ∈ (p.run store s).2.1 ∧ (key, x) ∈ assigned ∧
        held (p.run store s).2.2 = x.sent := by
  induction p generalizing s with
  | done a => exact .inl rfl
  | tell m next ih =>
    rcases ih s with hsame | ⟨assigned, x, hmem, hx, hheld⟩
    · exact .inl hsame
    · exact .inr ⟨assigned, x, List.mem_cons_of_mem _ hmem, hx, hheld⟩
  | fresh next ih =>
    rcases ih (store.fresh s).1 (store.fresh s).2 with hsame | hbound
    · exact .inl (hsame.trans (h.fresh s))
    · exact .inr hbound
  | ask q next ih =>
    rcases ih (store.reply q s).1 (store.reply q s).2 with hsame | ⟨assigned, x, hmem, hx, hheld⟩
    · rcases h.held_reply q s with hreply | ⟨assigned, x, rfl, hx, hreply⟩
      · exact .inl (hsame.trans hreply)
      · exact .inr ⟨assigned, x, List.mem_cons_self, hx, hsame.trans hreply⟩
    · exact .inr ⟨assigned, x, List.mem_cons_of_mem _ hmem, hx, hheld⟩

/-- what only reads changes nothing -/
theorem held_reading (h : Assigns store e id key held) {α : Type} {x : Action α}
    (hx : Reading x) (s : σ) : held (x.runOn store s).2.2 = held s := by
  rcases h.held_run x.run s with hsame | ⟨assigned, _, hmem, _, _⟩
  · exact hsame
  · have hread := hx.of_mem_log hmem
    simp [Statement.isRead] at hread

end Assigns

namespace Keeps

variable {schema : Schema} {e : Entity} {σ : Type} {store : Store σ} {id key : String}
  {held : σ → SqlValue}

theorem assigns (h : Keeps store schema e id key held) : Assigns store e id key held :=
  ⟨h.updated, h.refused, h.others, h.fresh⟩

/-- a row that is read shows the identifier and what is held -/
theorem read_cell (h : Keeps store schema e id key held) (he : e.WellFormed) {c : Column}
    (hc : c ∈ e.columns) (hname : c.name = key) (ht : c.type ≠ .searchVector) {s : σ}
    {plan : SelectPlan} (hplan : planOf schema e [(primaryKey, .str id)] [] .listing = .ok plan)
    {rs : ResultSet}
    (hreply : (store.reply (.select schema (plan.window (some 1) none)) s).1 = .ok rs)
    {rows : List Row} (hrows : rs.readRows e = .ok rows) {values : Row} (hvalues : values ∈ rows) :
    rowId values = id ∧ values.get? key = some (held s).sent.toJson ∧
      ((held s).isNull = true ∨ (held s).fits c.type = true) := by
  obtain ⟨row, hrow, hread⟩ := exists_of_mem_result hrows hvalues
  obtain ⟨hid, hkey, hcells⟩ := h.read s plan rs hplan hreply
  obtain ⟨hidcell, hkeycell⟩ := hcells row hrow
  obtain ⟨idSource, hid⟩ := Option.isSome_iff_exists.1 hid
  obtain ⟨keySource, hkey⟩ := Option.isSome_iff_exists.1 hkey
  obtain ⟨v, hv, hgetid⟩ := ResultSet.readRow_get? hread he he.key_mem (by decide) hid
  obtain ⟨w, hw, hgetkey⟩ := ResultSet.readRow_get? hread he hc ht (hname ▸ hkey)
  rw [hname] at hw hgetkey
  rw [hkeycell] at hw
  obtain ⟨rfl, hfits⟩ := ResultSet.readCell_eq_ok hw
  refine ⟨?_, hgetkey, hfits⟩
  have hidcell' : (row.get? keyColumn.name).getD .null = .text id := hidcell
  rw [hidcell'] at hv
  have hvid : v = .str id := (ResultSet.readCell_eq_ok hv).1
  have hgetid' : values.get? primaryKey = some v := hgetid
  simp [rowId, hgetid', hvid, Json.str?]

/-- a row that is read shows the state that is held -/
theorem read_row (h : Keeps store schema e id key held) (he : e.WellFormed) {c : Column}
    (hc : c ∈ e.columns) (hname : c.name = key) (ht : c.type = .text) {s : σ} {plan : SelectPlan}
    (hplan : planOf schema e [(primaryKey, .str id)] [] .listing = .ok plan) {rs : ResultSet}
    (hreply : (store.reply (.select schema (plan.window (some 1) none)) s).1 = .ok rs)
    {rows : List Row} (hrows : rs.readRows e = .ok rows) {values : Row} (hvalues : values ∈ rows) :
    rowId values = id ∧ ((values.get? key).map TransitionGraph.stateName).getD "" =
      (held s).state := by
  have hvector : c.type ≠ .searchVector := by
    rw [ht]
    decide
  obtain ⟨hid, hget, hfits⟩ := h.read_cell he hc hname hvector hplan hreply hrows hvalues
  rw [ht] at hfits
  refine ⟨hid, ?_⟩
  rw [hget]
  cases hheld : held s with
  | null => rfl
  | text t => rfl
  | _ => simp [hheld, SqlValue.isNull, SqlValue.fits] at hfits

variable {load : LoadPlan} {hook : Record → Row → Row → Action Row}

/-- a record that is read again has the state that is held -/
theorem reread_state (h : Keeps store schema e id key held) (he : e.WellFormed) {c : Column}
    (hc : c ∈ e.columns) (hname : c.name = key) (ht : c.type = .text) {s s' : σ} {next : Record}
    {log : List Event}
    (hrun : (Repository.reread ⟨schema, e, .updating hook, load⟩ id).runOn store s =
      (.ok next, log, s')) :
    next.id = id ∧ next.state key = (held s').state := by
  have hreading : Reading (Repository.reread ⟨schema, e, .updating hook, load⟩ id) :=
    Repository.reading_reread (fun plan _ => .pure plan) (fun _ plan => .pure plan) id
  have hheld := h.assigns.held_reading hreading s
  rw [hrun] at hheld
  unfold Repository.reread at hrun
  obtain ⟨found, _, _, _, hget, hlift, _⟩ := of_runOn_bind hrun
  obtain ⟨hrequired, _, _⟩ := of_runOn_liftM hlift
  obtain ⟨plan, rs, rows, hplan, hreply, hrows, hfound⟩ :=
    Repository.getById_eq_ok (fun _ _ => rfl) (fun _ _ => rfl) hget
  cases found with
  | none => simp [Repository.required] at hrequired
  | some record =>
    obtain rfl := Except.ok.inj hrequired
    have hvalues : record.values ∈ rows := List.mem_of_head? hfound.symm
    obtain ⟨hid, hstate⟩ := h.read_row he hc hname ht hplan hreply hrows hvalues
    exact ⟨hid, by rw [Record.state_eq, hstate, hheld]⟩

/-- the record that an update returns has the state that is held -/
theorem update_state (h : Keeps store schema e id key held) (he : e.WellFormed) {c : Column}
    (hc : c ∈ e.columns) (hname : c.name = key) (ht : c.type = .text) {s s' : σ}
    {current next : Record} (hid : current.id = id) {input : Row} {log : List Event}
    (hrun : (Repository.update ⟨schema, e, .updating hook, load⟩ current input).runOn store s =
      (.ok next, log, s')) :
    next.id = id ∧ next.state key = (held s').state := by
  unfold Repository.update at hrun
  obtain ⟨_, _, _, _, _, hrest, _⟩ := of_runOn_bind hrun
  obtain ⟨_, _, _, _, _, hrest, _⟩ := of_runOn_bind hrest
  obtain ⟨record, _, mid, rest, hreread, hpost, _⟩ := of_runOn_bind hrest
  obtain ⟨rfl, rfl⟩ : record = next ∧ s' = mid := of_runOn_pure hpost
  rw [hid] at hreread
  exact h.reread_state he hc hname ht hreread

end Keeps

/-! ### the run -/

section

variable {e : Entity} {g : TransitionGraph} {c : Column} {schema : Schema} {load : LoadPlan}
  {hook : Record → Row → Row → Action Row} {σ : Type} {store : Store σ} {id : String}
  {held : σ → SqlValue}

/-- the calls of a run, each of them with what an invariant of the records promises -/
theorem forall_updateCalls {r : Repository} {I : σ → Record → Prop}
    (hstep : ∀ s current input next log s', I s current →
      (r.update current input).runOn store s = (.ok next, log, s') → I s' next)
    {s : σ} {first : Record} (hfirst : I s first) (inputs : List Row) :
    ∀ call ∈ updateCalls r store s first inputs, I call.before call.current ∧
      (r.update call.current call.input).runOn store call.before =
        (call.outcome, call.log, call.after) := by
  induction inputs generalizing s first with
  | nil => simp [updateCalls]
  | cons input inputs ih =>
    unfold updateCalls
    rcases hrun : (r.update first input).runOn store s with ⟨err | next, log, s'⟩
    · simpa using ⟨hfirst, hrun⟩
    · refine List.forall_mem_cons.2 ⟨⟨hfirst, hrun⟩, ?_⟩
      exact ih (hstep s first input next log s' hfirst hrun)

/-- an update moves what is held along the graph, or leaves it -/
theorem Keeps.update_moves (h : Keeps store schema e id g.key held)
    (hg : e.transitions = some g) (he : e.WellFormed) (hc : c ∈ e.columns) (hname : c.name = g.key)
    (ht : c.type = .text) (hhook : ∀ current values input, NoUpdate (hook current values input))
    {s : σ} {current : Record} {input : Row} (hstate : current.state g.key = (held s).state) :
    (held ((Repository.update ⟨schema, e, .updating hook, load⟩ current input).runOn store
      s).2.2).state = (held s).state ∨
    g.permits (held s).state (held ((Repository.update ⟨schema, e, .updating hook, load⟩ current
      input).runOn store s).2.2).state = true := by
  rcases h.assigns.held_run (Repository.update ⟨schema, e, .updating hook, load⟩ current input).run
      s with
    hsame | ⟨assigned, x, hmem, hx, hheld⟩
  · exact .inl (congrArg SqlValue.state hsame)
  · obtain ⟨_, _, _, _, _, _, _, kept, _, _, _, _, hcheck, hassign⟩ :=
      executed_update (Hooks.preparing_updating hhook) hmem
    have hpermits := Entity.permits_of_assigned hg he hc hname ht hcheck hassign hx
    obtain ⟨v, _, hcast⟩ := Entity.castWrite_of_assigned he hc ht hassign (hname ▸ hx)
    have hafter : held ((Repository.update ⟨schema, e, .updating hook, load⟩ current input).runOn
        store s).2.2 = x := hheld.trans (sent_of_castWrite hcast)
    rw [hafter, ← hstate]
    exact .inr hpermits

end

/-- in every run of updates, whatever a hook makes of their values that executes no update itself,
the states that are bound follow the graph, an update whose value for the column is the one that is
stored is not refused by it, and what a database holds that keeps what is bound moves along it -/
theorem updates_follow_graph {d : Document} {schema : Schema} (hd : d.resolve = .ok schema)
    {e : Entity} (he : e ∈ schema.entities) {g : TransitionGraph} (hg : e.transitions = some g)
    {c : Column} (hc : c ∈ e.columns) (hname : c.name = g.key) (ht : c.type = .text)
    {hook : Record → Row → Row → Action Row}
    (hhook : ∀ current values input, NoUpdate (hook current values input)) (load : LoadPlan)
    {σ : Type} (store : Store σ) (s : σ) (first : Record) (inputs : List Row) :
    (∀ call ∈ updateCalls ⟨schema, e, .updating hook, load⟩ store s first inputs,
      (∀ e' id assigned x, .executed (.update e' id assigned) ∈ call.log →
        (g.key, x) ∈ assigned → g.permits (call.current.state g.key) x.state = true) ∧
      ∀ values changes hooked log s',
        e.prepareUpdate call.current call.input = .ok (values, changes) →
        (hook call.current values call.input).runOn store call.before = (.ok hooked, log, s') →
        (∀ v, hooked.get? g.key = some v → ∃ x, castWrite .text v = .ok x ∧
          (call.current.value g.key).same x.toJson = true) →
        ∀ resource before after,
          call.outcome ≠ .error (.transitionNotPermitted resource before after)) ∧
    ∀ held, Keeps store schema e first.id g.key held → first.state g.key = (held s).state →
      ∀ call ∈ updateCalls ⟨schema, e, .updating hook, load⟩ store s first inputs,
        call.current.state g.key = (held call.before).state ∧
          ((held call.after).state = (held call.before).state ∨
            g.permits (held call.before).state (held call.after).state = true) := by
  have hwf := (Document.wellFormed_of_resolve hd).entity e he
  refine ⟨fun call hcall => ?_, fun held hkeeps hfirst call hcall => ?_⟩
  · obtain ⟨_, hrun⟩ := forall_updateCalls (I := fun _ _ => True) (fun _ _ _ _ _ _ _ _ => trivial)
      trivial inputs call hcall
    refine ⟨fun e' id assigned x hmem hx => ?_, ?_⟩
    · have hlog : call.log = ((Repository.update ⟨schema, e, .updating hook, load⟩ call.current
          call.input).runOn store call.before).2.1 := by rw [hrun]
      rw [hlog] at hmem
      obtain ⟨_, _, _, _, _, _, _, kept, _, _, _, _, hcheck, hassign⟩ :=
      executed_update (Hooks.preparing_updating hhook) hmem
      exact Entity.permits_of_assigned hg hwf hc hname ht hcheck hassign hx
    · intro values changes hooked log s' hprepare hhooked hsame resource before after houtcome
      have hmild : MildOutcome ((Repository.update ⟨schema, e, .updating hook, load⟩ call.current
          call.input).runOn store call.before).1 :=
        mild_update_of_same hg hwf hc hname ht hprepare hhooked hsame
      rw [hrun] at hmild
      have hno := hmild _ houtcome
      simp [Error.isRejection] at hno
  · obtain ⟨⟨hid, hstate⟩, hrun⟩ := forall_updateCalls
      (I := fun s current => current.id = first.id ∧ current.state g.key = (held s).state)
      (fun s current input next log s' hI hrun => hkeeps.update_state hwf hc hname ht hI.1 hrun)
      ⟨rfl, hfirst⟩ inputs call hcall
    refine ⟨hstate, ?_⟩
    have hafter : call.after = ((Repository.update ⟨schema, e, .updating hook, load⟩ call.current
        call.input).runOn store call.before).2.2 := by rw [hrun]
    rw [hafter]
    exact hkeeps.update_moves hg hwf hc hname ht hhook hstate

/-! ### one task -/

/-- a database with one task, which holds its state -/
def oneTask : Store SqlValue where
  reply q held := match q with
    | .update e id assigned =>
      (.ok .empty, if e = tasksEntity ∧ id = "5" then
        ((assigned.lookup "state").map SqlValue.sent).getD held else held)
    | .select _ _ =>
      (.ok ⟨Dict.ofList [("id", "text"), ("state", "text")],
        [Dict.ofList [("id", .text "5"), ("state", held)]]⟩, held)
    | _ => (.ok .empty, held)
  fresh held := ("6", held)

theorem keeps_oneTask : Keeps oneTask tasksSchema tasksEntity "5" "state" id where
  updated s assigned rs _ := by simp [oneTask]
  refused s assigned err h := by simp [oneTask] at h
  others s q hq := by
    cases q with
    | update e id assigned =>
      have hno : ¬ (e = tasksEntity ∧ id = "5") := by
        rintro ⟨rfl, rfl⟩
        exact hq assigned rfl
      simp [oneTask, hno]
    | _ => rfl
  fresh _ := rfl
  read s plan rs _ h := by
    obtain rfl := Except.ok.inj h
    refine ⟨by rfl, by rfl, fun row hrow => ?_⟩
    obtain rfl := List.mem_singleton.1 hrow
    have hnd :
        (([("id", .text "5"), ("state", s)] : List (String × SqlValue)).map (·.1)).Nodup := by
      simp
    refine ⟨?_, ?_⟩
    · rw [show primaryKey = "id" from rfl, Dict.get?_ofList hnd List.mem_cons_self]
      rfl
    · rw [Dict.get?_ofList hnd (List.mem_cons_of_mem _ List.mem_cons_self)]
      rfl

/-- the rule that leaves the values of an update as they are -/
def leaveValues (_current : Record) (values _input : Row) : Action Row := pure values

theorem noUpdate_leaveValues (current : Record) (values input : Row) :
    NoUpdate (leaveValues current values input) := by
  intro σ store s e id assigned h
  simp [leaveValues, runOn_pure] at h

def taskRepository : Repository := ⟨tasksSchema, tasksEntity, .updating leaveValues, .empty⟩

/-- a task without a state -/
def newTask : Record := .ofRow (Dict.ofList [("id", .str "5"), ("state", .null)])

/-- a task is opened and then done -/
theorem task_run_follows_graph :
    (updateCalls taskRepository oneTask .null newTask
        [Dict.ofList [("state", .str "open")], Dict.ofList [("state", .str "done")]]).map
        (·.after.state) = ["open", "done"] ∧
      ∀ call ∈ updateCalls taskRepository oneTask .null newTask
          [Dict.ofList [("state", .str "open")], Dict.ofList [("state", .str "done")]],
        call.current.state "state" = call.before.state := by
  have hstate : (⟨"state", .text, true, false, none, false⟩ : Column) ∈ tasksEntity.columns :=
    List.mem_cons_of_mem _ List.mem_cons_self
  obtain ⟨_, hheld⟩ := updates_follow_graph resolve_tasksDocument List.mem_cons_self rfl hstate rfl
    rfl noUpdate_leaveValues .empty oneTask .null newTask
    [Dict.ofList [("state", .str "open")], Dict.ofList [("state", .str "done")]]
  refine ⟨by rfl, fun call hcall => ?_⟩
  exact (hheld id keeps_oneTask rfl call hcall).1

/-- no state and the empty state have one name and are not the same value: giving a task without a
state the empty state is a change, and is refused -/
theorem empty_state_refused :
    newTask.state "state" = (SqlValue.text "").state ∧
      castWrite .text (.str "") = .ok (.text "") ∧
      ((taskRepository.update newTask (Dict.ofList [("state", .str "")])).runOn oneTask .null).1 =
        .error (.transitionNotPermitted "tasks" "" "") := by
  exact ⟨rfl, rfl, by rfl⟩

end EntityAccess
