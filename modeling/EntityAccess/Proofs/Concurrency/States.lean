import EntityAccess.Http.Server
import EntityAccess.Proofs.Concurrency.Interleaving
import EntityAccess.Proofs.Transitions.Runs

/-!
# states under requests at the same time

Requests to update one record read it and write what they have computed from it, while others do the
same in between.  A change of state goes along the graph from the state that its request has read,
which is the state that it replaces unless another request has changed it in between.

* `executed_updateRow` : what a request executes, and which record it has read before;
* `updateRow_asks` : a request begins with its read;
* `Keeps.held_step` : which turns change what is held;
* `concurrent_updates_follow_reads` : any number of requests, in any interleaving.
-/

namespace EntityAccess

open EntityAccess.Action Outcome Program
open Http (Server)

/-! ### programs that begin with a statement -/

/-- an action that begins with a statement -/
def Asks {α : Type} (q : Statement) (x : Action α) : Prop := ∃ next, x.run = .ask q next

theorem Asks.bind {α β : Type} {q : Statement} {x : Action α} (h : Asks q x) (f : α → Action β) :
    Asks q (x >>= f) := by
  obtain ⟨next, hx⟩ := h
  unfold Asks
  rw [ExceptT.run_bind, hx]
  exact ⟨_, rfl⟩

/-- what is computed without a statement comes before -/
theorem Asks.after {α β : Type} {q : Statement} {x : Action α} {a : α} {f : α → Action β}
    (hx : x.run = .done (.ok a)) (h : Asks q (f a)) : Asks q (x >>= f) := by
  unfold Asks
  rw [ExceptT.run_bind, hx]
  exact h

theorem run_liftM {α : Type} {x : Except Error α} {a : α} (h : x = .ok a) :
    (liftM x : Action α).run = .done (.ok a) := by
  rw [h]
  rfl

/-- a read by the identifier begins with its statement -/
theorem getById_asks {r : Repository} (h : r.hooks.Preparing) {id : String} {plan : SelectPlan}
    (hplan : planOf r.schema r.entity [(primaryKey, .str id)] [] .listing = .ok plan) :
    Asks (.select r.schema (plan.window (some 1) none)) (r.getById id) := by
  have hcompile : (r.compile [(primaryKey, .str id)] [] .listing).run = .done (.ok plan) := by
    unfold Repository.compile
    rw [hplan, ExceptT.run_bind, run_liftM rfl]
    show (r.hooks.customizeQuery plan _).run = _
    rw [h.customizeQuery]
    rfl
  have hload : (r.resolveLoadPlan [(primaryKey, .str id)] []).run = .done (.ok r.loadPlan) := by
    show Program.bind (r.hooks.modifyLoadPlan _ r.loadPlan) _ = _
    rw [h.modifyLoadPlan]
    rfl
  refine .after hcompile (.after hload ?_)
  exact .bind (.bind ⟨_, rfl⟩ _) _

section

variable {server : Server} {name id : String} {r : Repository}
  (hr : server.repository name = .ok r) (hhooks : r.hooks.Preparing)

include hr

theorem schema_of_repository : r.schema = server.catalog.schema ∧
    r.entity ∈ server.catalog.schema.entities := by
  unfold Server.repository at hr
  split at hr
  · next found hfound =>
    obtain rfl := Except.ok.inj hr
    unfold Catalog.repository? at hfound
    obtain ⟨e, he, rfl⟩ := Option.map_eq_some_iff.1 hfound
    exact ⟨rfl, List.mem_of_find?_eq_some he⟩
  · simp at hr

include hhooks

/-- a request executes an update after its read has found the record, and under what checks -/
theorem executed_updateRow {body : Json} {σ : Type} {store : Store σ} {s : σ} {e : Entity}
    {id' : String} {assigned : Sql.Assignments}
    (h : .executed (.update e id' assigned) ∈
      ((server.updateRow name id body).runOn store s).2.1) :
    (∃ input, Server.readFields body = .ok input ∧ input.isEmpty = false) ∧
      ∃ current log s', (r.getById id).runOn store s = (.ok (some current), log, s') ∧
        ∃ kept, Repository.checkTransition r.entity current kept = .ok () ∧
          r.entity.assignments kept = .ok assigned := by
  unfold Server.updateRow at h
  obtain ⟨r', hr', h⟩ := mem_log_liftM_bind h
  obtain rfl : r = r' := Except.ok.inj (hr.symm.trans hr')
  obtain ⟨input, hinput, h⟩ := mem_log_liftM_bind h
  split at h
  · exact absurd h List.not_mem_nil
  · next hne =>
    refine ⟨⟨input, hinput, by simpa using hne⟩, ?_⟩
    rcases mem_log_bind h with h | ⟨found, log, s', hget, h⟩
    · have hread := (hhooks.reading_getById id).of_mem_log h
      simp [Statement.isRead] at hread
    · obtain ⟨current, hcurrent, h⟩ := mem_log_liftM_bind h
      rcases mem_log_bind h with h | ⟨_, _, _, _, h⟩
      · obtain ⟨_, _, _, _, _, _, _, kept, _, _, _, _, hcheck, hassign⟩ := executed_update hhooks h
        cases found with
        | none => simp [Repository.required] at hcurrent
        | some record =>
          obtain rfl := Except.ok.inj hcurrent
          exact ⟨record, log, s', hget, kept, hcheck, hassign⟩
      · simp [runOn_pure] at h

/-- a request that has something to write begins with its read -/
theorem updateRow_asks {body : Json} {input : Row} (hinput : Server.readFields body = .ok input)
    (hne : input.isEmpty = false) {plan : SelectPlan}
    (hplan : planOf r.schema r.entity [(primaryKey, .str id)] [] .listing = .ok plan) :
    Asks (.select r.schema (plan.window (some 1) none)) (server.updateRow name id body) := by
  refine .after (run_liftM hr) (.after (run_liftM hinput) ?_)
  rw [hne]
  exact (getById_asks hhooks hplan).bind _

end

/-! ### what is held -/

/-- a turn changes what is held only to what it binds, as an update -/
theorem Keeps.held_step {σ α : Type} {store : Store σ} {schema : Schema} {e : Entity}
    {id key : String} {held : σ → SqlValue} (h : Keeps store schema e id key held)
    {p next : Program α} {s s' : σ} {deed : Deed}
    (hstep : p.step? store s = some (deed, next, s')) :
    held s' = held s ∨ ∃ assigned x, deed = .asked (.update e id assigned) ∧
      (key, x) ∈ assigned ∧ held s' = x.sent := by
  cases p with
  | done a => cases hstep
  | tell m next => cases hstep; exact .inl rfl
  | fresh next => cases hstep; exact .inl (h.fresh s)
  | ask q next =>
    cases hstep
    rcases h.assigns.held_reply q s with hsame | ⟨assigned, x, rfl, hx, hheld⟩
    · exact .inl hsame
    · exact .inr ⟨assigned, x, rfl, hx, hheld⟩

/-- a turn that asks a statement is a program that begins with it -/
theorem Program.of_step_asked {σ α : Type} {store : Store σ} {p next : Program α} {s s' : σ}
    {q : Statement} (hstep : p.step? store s = some (.asked q, next, s')) :
    ∃ rest, p = .ask q rest := by
  cases p with
  | ask q' rest => cases hstep; exact ⟨rest, rfl⟩
  | _ => cases hstep

/-- any number of requests for one record: a change of what is held goes along the graph from the
state that was held when its request has read the record, and so from the state that it replaces if
that is still the same -/
theorem concurrent_updates_follow_reads {d : Document} {server : Server}
    (hd : d.resolve = .ok server.catalog.schema) {name : String} {r : Repository}
    (hr : server.repository name = .ok r) (hhooks : r.hooks.Preparing) {g : TransitionGraph}
    (hg : r.entity.transitions = some g) {c : Column} (hc : c ∈ r.entity.columns)
    (hname : c.name = g.key) (ht : c.type = .text) {σ : Type} {store : Store σ} {id : String}
    {held : σ → SqlValue} (hkeeps : Keeps store r.schema r.entity id g.key held) {ι : Type}
    [DecidableEq ι] (bodies : ι → Json) {s s' : σ} {turns earlier later : List (Turn ι σ)}
    {rest : ι → Program (Except Error Http.Response)} {t : Turn ι σ}
    (hrun : Interleaved store (fun i => (server.updateRow name id (bodies i)).run) s turns rest s')
    (hturns : turns = earlier ++ t :: later) :
    held t.after = held t.before ∨
      ∃ before read between plan, earlier = before ++ read :: between ∧ read.client = t.client ∧
        planOf r.schema r.entity [(primaryKey, .str id)] [] .listing = .ok plan ∧
        read.deed = .asked (.select r.schema (plan.window (some 1) none)) ∧
        g.permits (held read.before).state (held t.after).state = true ∧
        ((∀ u ∈ between, held u.after = held u.before) →
          g.permits (held t.before).state (held t.after).state = true) := by
  obtain ⟨hschema, hentity⟩ := schema_of_repository hr
  have he := (Document.wellFormed_of_resolve hd).entity r.entity hentity
  obtain ⟨mid, next, hearlier, hstep⟩ := hrun.before hturns
  rcases hkeeps.held_step hstep with hsame | ⟨assigned, x, hdeed, hx, hheld⟩
  · exact .inl hsame
  refine .inr ?_
  rw [hdeed] at hstep
  obtain ⟨after, hmid⟩ := of_step_asked hstep
  -- the client alone executes the update after it has read the record
  have hscript := hearlier.run_script (fun _ _ u => u) t.client [] ()
  rw [hmid] at hscript
  have hlog : .executed (.update r.entity id assigned) ∈
      ((server.updateRow name id (bodies t.client)).runOn (store.script fun _ _ u => u)
        ⟨seen (turnsOf t.client earlier) ++ [], ()⟩).2.1 := by
    unfold Action.runOn
    rw [hscript]
    exact List.mem_append_right _ List.mem_cons_self
  obtain ⟨⟨input, hinput, hne⟩, current, log, script, hget, kept, hcheck, hassign⟩ :=
    executed_updateRow hr hhooks hlog
  obtain ⟨plan, rs, rows, hplan, hreply, hrows, hcurrent⟩ :=
    Repository.getById_eq_ok hhooks.customizeQuery hhooks.modifyLoadPlan hget
  obtain ⟨s₀, states, hseen, hreply⟩ := Store.exists_ahead hreply
  have hvalues : current.values ∈ rows := List.mem_of_head? hcurrent.symm
  obtain ⟨_, hstate⟩ := hkeeps.read_row he hc hname ht hplan hreply hrows hvalues
  rw [← Record.state_eq] at hstate
  -- the state that is bound follows the one that was read
  have hpermits := Entity.permits_of_assigned hg he hc hname ht hcheck hassign hx
  obtain ⟨v, _, hcast⟩ := Entity.castWrite_of_assigned he hc ht hassign (hname ▸ hx)
  rw [hstate, ← sent_of_castWrite hcast, ← hheld] at hpermits
  -- the read is the first turn of the client
  rw [List.append_nil] at hseen
  obtain ⟨_, hasks⟩ := updateRow_asks hr hhooks hinput hne hplan
  obtain ⟨before, read, between, rfl, hclient, hselect, rfl⟩ := hearlier.exists_first hasks hseen
  refine ⟨before, read, between, plan, rfl, hclient, hplan, hselect, hpermits, fun hbetween => ?_⟩
  have hunread : held read.after = held read.before := by
    obtain ⟨_, _, _, hread⟩ := hearlier.before rfl
    rcases hkeeps.held_step hread with hsame | ⟨_, _, hupdate, _⟩
    · exact hsame
    · rw [hselect] at hupdate
      cases hupdate
  have hchain : (read :: (between ++ [t])).IsChain fun t u => u.before = t.after := by
    refine hrun.chain.infix ⟨before, later, ?_⟩
    rw [hturns]
    simp
  rw [before_eq_of_chain hchain hbetween, hunread]
  exact hpermits

/-! ### three requests for one task -/

def taskServer : Server := ⟨.plain tasksSchema, .default⟩

/-- two requests to open a task, and one to finish it -/
def taskRequests (i : Fin 3) : Program (Except Error Http.Response) :=
  (taskServer.updateRow "tasks" "5"
    (Json.ofFields [("state", .str (if i = 2 then "done" else "open"))])).run

/-- the first request reads a task without a state, and writes when the two others are done -/
def taskTurns : List (Turn (Fin 3) SqlValue) :=
  (interleave oneTask (0 :: List.replicate 5 1 ++ List.replicate 5 2 ++ List.replicate 5 0)
    taskRequests .null).1

theorem exists_stale_turn :
    ∃ t ∈ taskTurns, t.before.state = "done" ∧ t.after.state = "open" := by
  have hany : (taskTurns.any fun t => t.before.state == "done" && t.after.state == "open") =
      true := by decide
  simpa using hany

/-- the first request opens the task again, where no edge leads from being done to being open -/
theorem stale_update_leaves_graph :
    (∃ rest s', Interleaved oneTask taskRequests .null taskTurns rest s') ∧
      ∃ t ∈ taskTurns, t.before.state = "done" ∧ t.after.state = "open" ∧
        ∀ g, tasksEntity.transitions = some g → g.permits "done" "open" = false := by
  obtain ⟨t, hmem, hbefore, hafter⟩ := exists_stale_turn
  refine ⟨⟨_, _, interleaved_interleave oneTask _ taskRequests .null⟩, t, hmem, hbefore, hafter, ?_⟩
  intro g hg
  obtain rfl := Option.some.inj hg
  decide

/-- it has read the task when it could be opened -/
theorem stale_update_follows_read :
    ∃ earlier t later, taskTurns = earlier ++ t :: later ∧ t.before.state = "done" ∧
      ∃ read ∈ earlier, read.client = t.client ∧
        ∀ g, tasksEntity.transitions = some g →
          g.permits read.before.state t.after.state = true := by
  obtain ⟨t, hmem, hbefore, hafter⟩ := exists_stale_turn
  obtain ⟨earlier, later, hturns⟩ := List.append_of_mem hmem
  have hstate : (⟨"state", .text, true, false, none, false⟩ : Column) ∈ tasksEntity.columns :=
    List.mem_cons_of_mem _ List.mem_cons_self
  have hschema : tasksDocument.resolve = .ok taskServer.catalog.schema := resolve_tasksDocument
  have hserved : taskServer.repository "tasks" = .ok (.plain tasksSchema tasksEntity) := rfl
  have hfollows := concurrent_updates_follow_reads hschema hserved Hooks.preparing_none rfl hstate
    rfl rfl keeps_oneTask
    (fun i : Fin 3 => Json.ofFields [("state", .str (if i = 2 then "done" else "open"))])
    (interleaved_interleave oneTask _ taskRequests .null) hturns
  refine ⟨earlier, t, later, hturns, hbefore, ?_⟩
  rcases hfollows with hsame | ⟨before, read, between, _, rfl, hclient, _, _, hpermits, _⟩
  · have hno : t.after.state = t.before.state := congrArg SqlValue.state hsame
    rw [hbefore, hafter] at hno
    exact absurd hno (by decide)
  · refine ⟨read, by simp, hclient, fun g hg => ?_⟩
    obtain rfl := Option.some.inj hg
    exact hpermits

end EntityAccess
