import EntityAccess.Proofs.Repository.Executed

/-!
# the run of a creation

A creation ends in one of four ways: its payload is refused, its transaction fails, the new record
cannot be read again, or the rule after it has acted on the record.

* `Flat.exists_statements` : what is logged without transactions;
* `runOn_insertRow_cases` : the transaction of a creation;
* `Creation`, `creation_of_runOn` : the four ways.
-/

namespace EntityAccess

open EntityAccess.Action
open Program (Store)

/-- an action without transactions logs statements -/
theorem Flat.exists_statements {α : Type} {P : Statement → Prop} {x : Action α} (h : Flat P x)
    {σ : Type} {store : Store σ} {s s' : σ} {result : Except Error α} {log : List Event}
    (hrun : x.runOn store s = (result, log, s')) :
    ∃ qs : List Statement, log = qs.map .executed ∧ ∀ q ∈ qs, P q := by
  obtain ⟨ms, _, _, hcourse, hms⟩ := h σ store s
  have hlog := congrArg (·.2.1) (hrun.symm.trans hcourse.runOn_eq)
  dsimp only at hlog
  rw [hlog, Entry.events_moments]
  clear hcourse hlog hrun
  induction ms with
  | nil => exact ⟨[], rfl, by simp⟩
  | cons m ms ih =>
    obtain ⟨qs, hqs, hP⟩ := ih fun q failure hq => hms q failure (List.mem_cons_of_mem _ hq)
    rw [List.flatMap_cons, hqs]
    cases m with
    | asked q failure =>
      exact ⟨q :: qs, rfl, List.forall_mem_cons.2 ⟨hms q failure List.mem_cons_self, hP⟩⟩
    | raised e => exact ⟨qs, rfl, hP⟩

namespace Repository

variable {schema : Schema} {e : Entity} {hooks : Hooks} {load : LoadPlan} {r : Repository}
  {σ : Type} {store : Store σ} {s s' : σ} {input values : Row} {id : String} {log : List Event}

/-- the rule before it, what it binds, and whether it is committed -/
theorem runOn_insertRow_cases {P : Statement → Prop} (hhooks : hooks.Preparing)
    (hrule : Flat P (hooks.preCreate id values input)) {result : Except Error Unit}
    (h : (insertRow ⟨schema, e, hooks, load⟩ id values input).runOn store s = (result, log, s')) :
    ∃ outcome mid, ∃ checks : List Statement,
      (hooks.preCreate id values input).runOn store s = (outcome, checks.map .executed, mid) ∧
      (∀ q ∈ checks, P q) ∧
      ((∃ err, outcome.bind e.assignments = .error err ∧ result = .error err ∧
          log = .marked .begin :: checks.map .executed ++ [.marked .rollback]) ∨
        ∃ assigned, outcome.bind e.assignments = .ok assigned ∧
          log = .marked .begin :: (checks.map .executed ++
            [.executed (.insert e ((primaryKey, .text id) :: assigned))]) ++
            [.marked (if result.isOk then .commit else .rollback)]) := by
  obtain ⟨inner, hbody, rfl⟩ := runOn_transaction_cases h
  rcases runOn_bind_cases hbody with ⟨err, hpre, rfl⟩ | ⟨hooked, first, mid, rest, hpre, hrest, rfl⟩
  · obtain ⟨checks, rfl, hP⟩ := hrule.exists_statements hpre
    exact ⟨_, _, checks, hpre, hP, .inl ⟨err, rfl, rfl, rfl⟩⟩
  obtain ⟨checks, rfl, hP⟩ := hrule.exists_statements hpre
  refine ⟨_, _, checks, hpre, hP, ?_⟩
  rcases runOn_liftM_bind_cases hrest with
    ⟨err, hassigned, rfl, rfl, _⟩ | ⟨assigned, hassigned, hrest⟩
  · rw [List.append_nil]
    exact .inl ⟨err, hassigned, rfl, rfl⟩
  refine .inr ⟨assigned, hassigned, ?_⟩
  rcases runOn_bind_cases hrest with ⟨err, hinsert, rfl⟩ |
    ⟨_, inserted, _, last, hinsert, hrelated, rfl⟩
  · obtain rfl : [_] = rest := congrArg (·.2.1) hinsert
    rfl
  · obtain rfl : [_] = inserted := congrArg (·.2.1) hinsert
    dsimp only at hrelated
    rw [hhooks.relationship] at hrelated
    obtain ⟨rfl, hlast⟩ := Prod.mk.inj hrelated
    obtain ⟨rfl, _⟩ := Prod.mk.inj hlast
    rfl

/-- what a run of a creation can be -/
inductive Creation (r : Repository) {σ : Type} (store : Store σ) (input : Row) :
    Except Error Record → List Event → σ → Prop where
  /-- the payload is refused -/
  | refused {err : Error} {s' : σ} (hcheck : r.entity.checkCreate input = .error err) :
    Creation r store input (.error err) [] s'
  /-- the transaction fails -/
  | unwritten {id : String} {values : Row} {err : Error} {log : List Event} {s s' : σ}
    (hcheck : r.entity.checkCreate input = .ok values)
    (hrow : (r.insertRow id values input).runOn store s = (.error err, log, s')) :
    Creation r store input (.error err) log s'
  /-- the record is not read again -/
  | unread {id : String} {values : Row} {err : Error} {first reads : List Event} {s mid s' : σ}
    (hcheck : r.entity.checkCreate input = .ok values)
    (hrow : (r.insertRow id values input).runOn store s = (.ok (), first, mid))
    (hread : (r.reread id).runOn store mid = (.error err, reads, s')) :
    Creation r store input (.error err) (first ++ reads) s'
  /-- the record is read again, and then the rule after it acts -/
  | stored {id : String} {values : Row} {record : Record} {outcome : Except Error Unit}
    {first reads last : List Event} {s mid mid' s' : σ}
    (hcheck : r.entity.checkCreate input = .ok values)
    (hrow : (r.insertRow id values input).runOn store s = (.ok (), first, mid))
    (hread : (r.reread id).runOn store mid = (.ok record, reads, mid'))
    (hrule : (r.hooks.postCreate record).runOn store mid' = (outcome, last, s')) :
    Creation r store input (outcome.map fun _ => record) (first ++ (reads ++ last)) s'

theorem creation_of_runOn {result : Except Error Record}
    (h : (r.create input).runOn store s = (result, log, s')) :
    Creation r store input result log s' := by
  unfold create at h
  rcases runOn_bind_cases h with ⟨err, hprepare, rfl⟩ |
    ⟨⟨id, values⟩, first, mid, rest, hprepare, hwrite, rfl⟩
  · obtain ⟨rfl, hcheck⟩ := runOn_prepareCreate_cases hprepare
    refine .refused ?_
    cases hc : r.entity.checkCreate input with
    | error err' =>
      rw [hc] at hcheck
      exact congrArg Except.error (Except.error.inj hcheck).symm
    | ok values => rw [hc] at hcheck; cases hcheck
  obtain ⟨rfl, hvalues⟩ := runOn_prepareCreate_cases hprepare
  obtain ⟨values, hcheck, heq⟩ := Outcome.map_eq_ok.1 hvalues.symm
  obtain ⟨rfl, rfl⟩ := Prod.mk.inj heq
  rw [List.nil_append]
  rcases runOn_bind_cases hwrite with ⟨err, hrow, rfl⟩ | ⟨_, first, mid', rest', hrow, hafter, rfl⟩
  · exact .unwritten hcheck hrow
  rcases runOn_bind_cases hafter with ⟨err, hread, rfl⟩ |
    ⟨record, reads, mid'', last, hread, hruled, rfl⟩
  · exact .unread hcheck hrow hread
  rcases runOn_bind_cases hruled with ⟨err, hrule, rfl⟩ | ⟨_, ruled, _, rest'', hrule, hpure, rfl⟩
  · exact .stored hcheck hrow hread hrule
  · rw [runOn_pure] at hpure
    obtain ⟨rfl, rfl, rfl⟩ : .ok record = result ∧ [] = rest'' ∧ _ = s' := by
      simpa using hpure
    rw [List.append_nil]
    exact .stored hcheck hrow hread hrule

end Repository
end EntityAccess
