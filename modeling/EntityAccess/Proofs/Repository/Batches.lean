import EntityAccess.Proofs.Exchanges
import EntityAccess.Proofs.Partner.Rules
import EntityAccess.Proofs.Repository.Fetch
import EntityAccess.Proofs.Repository.Reads
import EntityAccess.Proofs.Sql.Grouping

/-!
# the statements of an export

An export in batches asks for the roots of one batch at a time, whatever it is answered.  Each of
these statements has the conditions of the compiled filters and, after the first batch, one more:
the primary key comes after that of the last record of the batch before.

* `SelectPlan.Batch`, `exists_keysetPlan` : the plan of a batch;
* `Sql.batchText`, `text_of_batch` : its text, flat or over groups;
* `rootOf_fetchAfter` : what is asked for a batch, and which of its answers is the batch;
* `Run.closed_after` : after an empty batch nothing is fetched;
* `Run.Traced.follows` : which key a fetch goes on after, and when there is no other;
* `statements_of_batches` : all statements of an export.
-/

namespace EntityAccess

open EntityAccess.Action
open Program (Store)

/-! ### plans of batches -/

/-- the condition of the rows after a primary key -/
def Predicate.afterKey (id : String) : Predicate := .compare rootKeyColumn .gt (.text id)

theorem Predicate.same_afterKey {p : Predicate} {id : String} :
    p.same (.afterKey id) = true ↔ p = .afterKey id := by
  cases p with
  | compare c o v => cases v <;> simp [afterKey, same, SqlValue.same, and_assoc]
  | _ => simp [afterKey, same]

namespace SelectPlan

/-- a plan for a batch: so many rows after a key, in the order of the primary keys -/
structure Batch (plan : SelectPlan) (after : Option String) (limit : Nat) (batch : SelectPlan) :
    Prop where
  entity : batch.entity = plan.entity
  joins : batch.joins = plan.joins
  first : after = none → batch.predicates = plan.predicates
  old : ∀ id, after = some id → .afterKey id ∈ plan.predicates →
    batch.predicates = plan.predicates
  new : ∀ id, after = some id → .afterKey id ∉ plan.predicates →
    batch.predicates = plan.predicates ++ [.afterKey id]
  order : batch.order = [.column rootKeyColumn false]
  limit : batch.limit = some limit
  offset : batch.offset = none

variable {plan : SelectPlan}

theorem hasPredicate_afterKey {id : String} :
    plan.hasPredicate (.afterKey id) = true ↔ .afterKey id ∈ plan.predicates := by
  simp [hasPredicate, Predicate.same_afterKey]

/-- the condition of the rows after a key is added to the conditions, if it is not there -/
theorem exists_addPredicate_afterKey (plan : SelectPlan) (id : String) :
    ∃ ps, plan.addPredicate (.afterKey id) = { plan with predicates := ps } ∧
      (.afterKey id ∈ plan.predicates → ps = plan.predicates) ∧
      (.afterKey id ∉ plan.predicates → ps = plan.predicates ++ [.afterKey id]) := by
  unfold addPredicate
  split
  · next h =>
    have hmem := hasPredicate_afterKey.1 h
    exact ⟨plan.predicates, rfl, fun _ => rfl, fun hno => absurd hmem hno⟩
  · next h =>
    exact ⟨_, rfl, fun hmem => absurd (hasPredicate_afterKey.2 hmem) h, fun _ => rfl⟩

theorem exists_keysetPlan (hkey : plan.rootColumn primaryKey = .ok rootKeyColumn)
    (after : Option String) (limit : Nat) :
    ∃ batch, plan.keysetPlan after limit = .ok batch ∧ plan.Batch after limit batch := by
  unfold keysetPlan
  rw [hkey]
  cases after with
  | none => exact ⟨_, rfl, rfl, rfl, fun _ => rfl, nofun, nofun, rfl, rfl, rfl⟩
  | some id =>
    obtain ⟨ps, hps, hold, hnew⟩ := plan.exists_addPredicate_afterKey id
    let bounded (plan : SelectPlan) : SelectPlan :=
      { plan with order := [.column rootKeyColumn false] }.window (some limit) none
    show ∃ batch, (Except.ok (bounded (plan.addPredicate (.afterKey id))) : Except Error _) =
      .ok batch ∧ _
    rw [hps]
    exact ⟨_, rfl, rfl, rfl, nofun, fun _ h => Option.some.inj h ▸ hold,
      fun _ h => Option.some.inj h ▸ hnew, rfl, rfl, rfl⟩

end SelectPlan

/-! ### their text -/

namespace Sql

open Fragment

/-- the text of a batch: over groups if its rows can repeat a root -/
def batchText (schema : Schema) (plan : SelectPlan) (limit : Nat) : String :=
  let conditions := textsFrom 1 (whereClause plan.predicates)
  let last := windowPart "LIMIT" (some limit)
  if plan.joins.fansOut then
    Text.concat (["SELECT ", rootColumns plan.entity, " FROM ", tableOf plan.entity, " AS ",
        quoted rootAlias, " INNER JOIN (", "SELECT ", rootKey, " AS \"page_id\"", ", ", rootKey,
        " AS ", sortKeyName 0, " FROM ", fromClause schema plan] ++ conditions ++
      [" GROUP BY ", Text.joinWith ", " [rootKey, rootKey], " ORDER BY ", sortKeyName 0, " ASC",
        last, ") AS \"page\" ON \"page\".\"page_id\" = ", rootKey, " ORDER BY ", "\"page\".",
        sortKeyName 0, " ASC"])
  else
    Text.concat (["SELECT ", rootColumns plan.entity, " FROM ", fromClause schema plan] ++
      conditions ++ [" ORDER BY ", rootKey, " ASC", last])

/-- a batch has this text, and the values of its conditions alone -/
theorem text_of_batch (schema : Schema) {plan batch : SelectPlan} {after : Option String}
    {limit : Nat} (h : plan.Batch after limit batch) :
    (select schema batch).text = batchText schema batch limit ∧
      (select schema batch).params = (whereClause batch.predicates).params := by
  obtain ⟨entity, joins, predicates, order, size, offset⟩ := batch
  obtain ⟨rfl, rfl, _, _, _, rfl, rfl, rfl⟩ := h
  have hkey : columnSql rootKeyColumn = rootKey := rfl
  have hroot : rootKeyColumn.tableAlias = rootAlias := rfl
  unfold select batchText
  cases hfans : plan.joins.fansOut with
  | true =>
    simp [SelectPlan.isWindowed, groupedSelect, pageSelect, orderClause, windowClause, groupKey,
      groupColumn?, termDirection, direction, hkey, hroot, Fragment.text, textsFrom,
      textsFrom_append, params, sql, Fragment.joinWith, windowPart, Text.concat_append,
      String.append_assoc]
  | false =>
    simp [flatSelect, orderClause, windowClause, orderTerm, direction, hkey, Fragment.text,
      textsFrom, textsFrom_append, params, sql, Fragment.joinWith, windowPart, Text.concat_append,
      String.append_assoc]

end Sql

/-! ### what is asked for a batch -/

/-- the statement is for the roots of a read -/
def Statement.readsRoots : Statement → Bool
  | .select _ _ => true
  | _ => false

namespace Repository

variable {r : Repository} {plan : SelectPlan} {load : LoadPlan} {σ : Type} {store : Store σ}
  {s : σ}

theorem readsRoots_loadRelated {records : List Record} {asked : Statement × Reply}
    (h : asked ∈ (r.loadRelated records load).exchangesOn store s) :
    asked.1.readsRoots = false := by
  have hmem : asked.1 ∈ ((r.loadRelated records load).exchangesOn store s).map Prod.fst :=
    List.mem_map_of_mem h
  unfold exchangesOn at hmem
  rw [Program.map_exchanges] at hmem
  obtain ⟨event, hevent, hq⟩ := List.mem_filterMap.1 hmem
  obtain rfl : event = .executed asked.1 := by
    cases event with
    | executed q => exact congrArg Event.executed (Option.some.inj hq)
    | marked m => cases hq
  have hrelated : RelatedPass fun q => q.readsRoots = false := fun _ _ _ _ _ => rfl
  unfold loadRelated at hevent
  split at hevent
  · cases hevent
  · exact (issues_loadAll hrelated load.names records).of_mem_log hevent

/-- the statement for the roots of a batch, with its answer, and the fetch of the batch -/
structure RootOf (r : Repository) (plan : SelectPlan) (asked : Statement × Reply)
    (f : Chunks.Fetch Record) : Prop where
  statement : ∃ batch, plan.Batch f.after f.limit batch ∧ asked.1 = .select r.schema batch ∧
    asked.1.fragment.text = Sql.batchText r.schema batch f.limit ∧
    asked.1.fragment.params = (Sql.whereClause batch.predicates).params
  answer : ∀ records, f.answer = .ok records → ∃ rs rows, asked.2 = .ok rs ∧
    rs.readRows r.entity = .ok rows ∧ records.map (·.values) = firstOfEach rowId [] rows

/-- among all that is asked for a batch there is one statement for its roots -/
theorem rootOf_fetchAfter (hkey : plan.rootColumn primaryKey = .ok rootKeyColumn)
    (after : Option String) (limit : Nat) :
    ∃ root,
      ((r.fetchAfter plan load after limit).exchangesOn store s).filter (·.1.readsRoots) = [root] ∧
        r.RootOf plan root
          ⟨after, limit, ((r.fetchAfter plan load after limit).runOn store s).1⟩ := by
  obtain ⟨batch, hplan, hbatch⟩ := SelectPlan.exists_keysetPlan hkey after limit
  have hfetch : r.fetchAfter plan load after limit = r.fetch batch load := by
    unfold fetchAfter
    rw [hplan]
    rfl
  rw [hfetch]
  refine ⟨(.select r.schema batch, (store.reply (.select r.schema batch) s).1), ?_,
    ⟨batch, hbatch, rfl, Sql.text_of_batch r.schema hbatch⟩, fun records h => ?_⟩
  -- the roots come first, and then only related rows
  · obtain ⟨rest, hrest, hexchanges⟩ : ∃ rest : List (Statement × Reply),
        (∀ asked ∈ rest, asked.1.readsRoots = false) ∧
          (r.fetch batch load).exchangesOn store s =
            (.select r.schema batch, (store.reply (.select r.schema batch) s).1) :: rest := by
      unfold fetch
      rcases hquery : (query (.select r.schema batch) (ResultSet.readRows r.entity)).runOn store s
        with ⟨e | rows, log, s'⟩
      · rw [exchangesOn_bind_error _ hquery, exchangesOn_query]
        exact ⟨[], List.forall_mem_nil _, rfl⟩
      · rw [exchangesOn_bind_ok _ hquery, exchangesOn_query]
        exact ⟨_, fun asked h => readsRoots_loadRelated h, rfl⟩
    rw [hexchanges, List.filter_cons_of_pos rfl, List.filter_eq_nil_iff.2]
    intro asked hasked
    rw [hrest asked hasked]
    exact Bool.false_ne_true
  · exact fetch_eq_ok (Prod.ext h rfl)

end Repository

/-! ### one fetch after the other -/

namespace Chunks

variable {σ α : Type} {key : α → String}

/-- what a fetch goes on after, and when it is the last; `before` and `rest` are the others -/
structure Follows (key : α → String) (before : List (Fetch α)) (f : Fetch α)
    (rest : List (Fetch α)) : Prop where
  first : before = [] → f.after = none
  /-- after the last row of the batch before, which is not empty -/
  later : ∀ log g batch, before = log ++ [g] → g.answer = .ok batch →
    ∃ row, batch.getLast? = some row ∧ f.after = some (key row)
  /-- after the last batch that came, should the one before have failed -/
  after : f.after = (boundaries key before).getLast?
  empty : f.answer = .ok [] → rest = []
  repeated : ∀ k, f.lastKey? key = some k → k ∈ boundaries key before → rest = []

theorem keysAsked_append (log more : List (Fetch α)) :
    keysAsked (log ++ more) = keysAsked log ++ keysAsked more := List.filterMap_append

namespace Run

variable {r : Run σ α} {fetch : Source (StateM σ) α}

/-- an empty batch is the last one -/
def Closed (r : Run σ α) : Prop :=
  ∀ log f rest, r.fetches = log ++ f :: rest → f.answer = .ok [] →
    rest = [] ∧ r.chunks.exhausted = true

/-- one more fetch of an iteration that was not at its end -/
theorem Closed.fetched (h : r.Closed) (ho : r.chunks.isOver = false) {c : Chunks α} {s : σ}
    {f : Fetch α} (hempty : f.answer = .ok [] → c.exhausted = true) :
    Closed ⟨c, s, r.fetches ++ [f]⟩ := by
  intro log g rest hsplit hg
  -- it is the new fetch, or one after which there was none
  rcases List.eq_nil_or_concat rest with rfl | ⟨rest, last, rfl⟩
  · obtain ⟨_, hlast⟩ := List.append_inj' hsplit rfl
    obtain rfl := List.head_eq_of_cons_eq hlast
    exact ⟨rfl, hempty hg⟩
  · have hsplit' : r.fetches ++ [f] = (log ++ g :: rest) ++ [last] := by simpa using hsplit
    obtain ⟨_, hexhausted⟩ := h log g rest (List.append_inj' hsplit' rfl).1 hg
    obtain ⟨hopen, _⟩ := Bool.or_eq_false_iff.1 ho
    exact absurd (hopen.symm.trans hexhausted) Bool.false_ne_true

theorem Closed.call (h : r.Closed) : (r.call key fetch).2.Closed := by
  obtain ⟨row, rest, _, hcall⟩ | ⟨_, _, hcall⟩ | ⟨_, ho, answer, source, _, hcall⟩ :=
    call_cases key fetch r
  · rw [hcall]
    exact h
  · rw [hcall]
    exact fun log f rest hsplit hf => ⟨(h log f rest hsplit hf).1, rfl⟩
  · rw [hcall]
    cases answer with
    | error e => exact h.fetched ho nofun
    | ok batch =>
      cases batch with
      | nil => exact h.fetched ho fun _ => rfl
      | cons row rest => exact h.fetched ho nofun

theorem closed_after (key : α → String) (fetch : Source (StateM σ) α) (batchSize : Nat) (s : σ)
    (n : Nat) : ((start batchSize s : Run σ α).after key fetch n).Closed := by
  refine after_induction (I := Closed) (fun log f rest hsplit _ => ?_) (fun _ h => h.call) n
  simp [start] at hsplit

/-- the fetch after a batch with rows asks for those after its last one -/
theorem Traced.after_next (h : r.Traced key) {log more : List (Fetch α)} {f g : Fetch α}
    (hsplit : r.fetches = log ++ f :: g :: more) {k : String} (hk : f.lastKey? key = some k) :
    g.after = some k := by
  have hsplit' : r.fetches = (log ++ [f]) ++ g :: more := by simpa using hsplit
  rw [h.asked _ g more hsplit', boundaries_append]
  simp [boundaries, hk]

theorem Traced.follows (h : r.Traced key) (hc : r.Closed) {before rest : List (Fetch α)}
    {f : Fetch α} (hsplit : r.fetches = before ++ f :: rest) : Follows key before f rest where
  first hnil := by
    rw [h.asked before f rest hsplit, hnil]
    rfl
  later log g batch hbefore hg := by
    rw [hbefore, List.append_assoc] at hsplit
    cases hlast : batch.getLast? with
    | none =>
      obtain rfl := List.getLast?_eq_none_iff.1 hlast
      obtain ⟨hnil, _⟩ := hc log g (f :: rest) hsplit hg
      exact absurd hnil (List.cons_ne_nil _ _)
    | some row =>
      have hkey : g.lastKey? key = some (key row) := by
        simp [Fetch.lastKey?, hg, lastKey, hlast]
      exact ⟨row, rfl, h.after_next hsplit hkey⟩
  after := h.asked before f rest hsplit
  empty hf := (hc before f rest hsplit hf).1
  repeated k hk hmem := by
    cases rest with
    | nil => rfl
    | cons g more =>
      obtain ⟨old, hold, hkold⟩ := List.mem_filterMap.1 hmem
      obtain ⟨log, later, rfl⟩ := List.append_of_mem hold
      -- the fetch after the older batch has asked for the rows after the same key
      have hagain : k ∈ keysAsked (later ++ [f]) := by
        cases later with
        | nil =>
          have hafter : f.after = some k := h.after_next (by simpa using hsplit) hkold
          simp [keysAsked, hafter]
        | cons next later =>
          have hafter : next.after = some k := h.after_next (by simpa using hsplit) hkold
          simp [keysAsked, hafter]
      have hlast : k ∈ keysAsked (g :: more) := by
        have hafter : g.after = some k := h.after_next hsplit hk
        simp [keysAsked, hafter]
      have hnodup := h.nodup
      rw [hsplit, show log ++ old :: later ++ f :: g :: more =
        (log ++ [old]) ++ ((later ++ [f]) ++ (g :: more)) by simp, keysAsked_append,
        keysAsked_append (later ++ [f])] at hnodup
      have hapart := (List.nodup_append.1 (List.nodup_append.1 hnodup).2.1).2.2
      exact absurd rfl (hapart k hagain k hlast)

end Run
end Chunks

/-! ### exports -/

namespace Repository

open Chunks

variable {r : Repository} {plan : SelectPlan} {load : LoadPlan} {σ : Type} {store : Store σ}

/-- the statements for roots belong to the fetches, one to each -/
theorem forall₂_rootOf {source : Source Program Record}
    (hroot : ∀ after limit s, ∃ root,
      ((source after limit).exchanges store s).filter (·.1.readsRoots) = [root] ∧
        r.RootOf plan root ⟨after, limit, ((source after limit).run store s).1⟩)
    {asked : List (List (Statement × Reply))} {fetched : List (Fetch Record)}
    (h : List.Forall₂ (FetchAsks source store) asked fetched) :
    List.Forall₂ (r.RootOf plan) (asked.flatten.filter (·.1.readsRoots)) fetched := by
  induction h with
  | nil => exact .nil
  | @cons part f parts fs hasks _ ih =>
    obtain ⟨s, hanswer, rfl⟩ := hasks
    obtain ⟨root, hsingle, hof⟩ := hroot f.after f.limit s
    rw [← hanswer] at hof
    rw [List.flatten_cons, List.filter_append, hsingle]
    exact .cons hof ih

/-- an export of all rows that meet its filters, whatever its calls are answered: its k-th statement
for roots is that of its k-th fetch, which goes on after the last row of the fetch before; rules may
change the plan of the filters, as long as it reads an entity of the schema -/
theorem statements_of_batches {d : Document} (hd : d.resolve = .ok r.schema)
    {filters : Filters} {s₀ s₁ s : σ} {log₀ log₁ : List Event}
    (hplan : (r.compile filters [] .unsorted).runOn store s₀ = (.ok plan, log₀, s₁))
    (hentity : plan.entity ∈ r.schema.entities)
    (hload : (r.resolveLoadPlan filters []).runOn store s₁ = (.ok load, log₁, s))
    (batchSize n : Nat) :
    ∃ source : Source Program Record,
      (r.batches filters).runOn store s₀ = (.ok source, log₀ ++ log₁, s) ∧
      let run := (Run.start batchSize s).after Record.id (source.on store) n
      let calls := calls Record.id source n (.start batchSize)
      (calls.run store s).1 = ((List.range n).map
        ((Run.start batchSize s).result Record.id (source.on store)), run.chunks) ∧
      List.Forall₂ (r.RootOf plan) ((calls.exchanges store s).filter (·.1.readsRoots))
        run.fetches ∧
      ∀ before f rest, run.fetches = before ++ f :: rest →
        f.limit = max batchSize 1 ∧ Follows Record.id before f rest := by
  have hkey : plan.rootColumn primaryKey = .ok rootKeyColumn :=
    SelectPlan.rootColumn_primaryKey ((Document.wellFormed_of_resolve hd).entity _ hentity)
  refine ⟨fun after limit => (r.fetchAfter plan load after limit).run, ?_, ?_⟩
  · unfold batches
    rw [runOn_bind_ok _ hplan, runOn_bind_ok _ hload, runOn_pure, List.append_nil]
  intro run calls
  refine ⟨(run_calls _ _ _ batchSize s n).1, ?_, fun before f rest hsplit => ⟨?_, ?_⟩⟩
  · obtain ⟨asked, hasked, hfetches⟩ := exchanges_calls Record.id
      (fun after limit => (r.fetchAfter plan load after limit).run) store batchSize s n
    rw [hasked]
    exact forall₂_rootOf (fun after limit s => rootOf_fetchAfter hkey after limit) hfetches
  · have hmem : f ∈ run.fetches := hsplit ▸ List.mem_append_right _ List.mem_cons_self
    exact ((Run.accounted_after _ _ batchSize s n).given f hmem).1
  · exact (Run.traced_after _ _ batchSize s n).follows (Run.closed_after _ _ batchSize s n) hsplit

/-! ### users of open tasks -/

/-- users with the tasks that they own -/
def usersWithTasks : Repository := ⟨tasksSchema, usersEntity, .none, .ofNames ["tasks"]⟩

def ofOpenTasks : Filters := [("tasks___state", .str "open")]

/-- the condition of open tasks -/
def isOpen : Predicate := .compare ⟨"j_tasks", "state", .text⟩ .eq (.text "open")

/-- rows of an entity with nothing but these primary keys -/
def rowsWithIds (ids : List String) : Reply :=
  .ok ⟨Dict.ofList [("id", "text")], ids.map fun id => Dict.ofList [("id", .text id)]⟩

/-- two batches with the tasks of each, and an empty one -/
def openAnswers : List Reply :=
  [rowsWithIds ["u1", "u1", "u2"], rowsWithIds ["t1"], rowsWithIds ["u3"], rowsWithIds [],
    rowsWithIds []]

/-- after the first batch one condition is added, not to that of the batch before but to those of
the filters; the repeated row counts once -/
theorem statements_of_usersWithTasks :
    ∃ (plan : SelectPlan) (load : LoadPlan) (source : Source Program Record),
      tasksDocument.resolve = .ok usersWithTasks.schema ∧
      (usersWithTasks.compile ofOpenTasks [] .unsorted).runOn Partner.scripted openAnswers =
        (.ok plan, [], openAnswers) ∧
      plan.entity ∈ usersWithTasks.schema.entities ∧
      (usersWithTasks.resolveLoadPlan ofOpenTasks []).runOn Partner.scripted openAnswers =
        (.ok load, [], openAnswers) ∧
      (usersWithTasks.batches ofOpenTasks).runOn Partner.scripted openAnswers =
        (.ok source, [], openAnswers) ∧
      ∃ first second third : SelectPlan,
        (((calls Record.id source 5 (.start 2)).exchanges Partner.scripted openAnswers).filter
          (·.1.readsRoots)).map Prod.fst =
          [.select tasksSchema first, .select tasksSchema second, .select tasksSchema third] ∧
        first.predicates = [isOpen] ∧ second.predicates = [isOpen, .afterKey "u2"] ∧
          third.predicates = [isOpen, .afterKey "u3"] := by
  obtain ⟨plan, load, hplan, hopen, hentity, hload⟩ : ∃ (plan : SelectPlan) (load : LoadPlan),
      (usersWithTasks.compile ofOpenTasks [] .unsorted).runOn Partner.scripted openAnswers =
        (.ok plan, [], openAnswers) ∧ plan.predicates = [isOpen] ∧ plan.entity = usersEntity ∧
      (usersWithTasks.resolveLoadPlan ofOpenTasks []).runOn Partner.scripted openAnswers =
        (.ok load, [], openAnswers) := ⟨_, _, rfl, rfl, rfl, rfl⟩
  have hmem : plan.entity ∈ usersWithTasks.schema.entities := by
    rw [hentity]
    exact List.mem_cons_of_mem _ List.mem_cons_self
  obtain ⟨source, hsource, _, hroots, _⟩ :=
    statements_of_batches resolve_tasksDocument hplan hmem hload 2 5
  obtain ⟨records, more, hfetches⟩ : ∃ records more,
      ((Run.start 2 openAnswers).after Record.id (source.on Partner.scripted) 5).fetches =
        [⟨none, 2, .ok records⟩, ⟨some "u2", 2, .ok more⟩, ⟨some "u3", 2, .ok []⟩] := by
    obtain rfl := Except.ok.inj (congrArg Prod.fst hsource)
    exact ⟨_, _, rfl⟩
  rw [hfetches] at hroots
  obtain ⟨root₁, _, ⟨⟨first, hfirst, hroot₁, _⟩, _⟩, hlater, hall⟩ :=
    List.forall₂_cons_right_iff.1 hroots
  obtain ⟨root₂, _, ⟨⟨second, hsecond, hroot₂, _⟩, _⟩, hlast, rfl⟩ :=
    List.forall₂_cons_right_iff.1 hlater
  obtain ⟨root₃, _, ⟨⟨third, hthird, hroot₃, _⟩, _⟩, hnone, rfl⟩ :=
    List.forall₂_cons_right_iff.1 hlast
  obtain rfl := List.forall₂_nil_right_iff.1 hnone
  have hnew : ∀ id, .afterKey id ∉ plan.predicates := by
    intro id hid
    rw [hopen] at hid
    simp [isOpen, Predicate.afterKey] at hid
  refine ⟨plan, load, source, resolve_tasksDocument, hplan, hmem, hload, hsource, first, second,
    third, ?_, ?_, ?_, ?_⟩
  · rw [hall, List.map_cons, List.map_cons, List.map_cons, hroot₁, hroot₂, hroot₃]
    rfl
  · rw [hfirst.first rfl, hopen]
  · rw [hsecond.new "u2" rfl (hnew _), hopen]
    rfl
  · rw [hthird.new "u3" rfl (hnew _), hopen]
    rfl

/-- a batch of no rows is asked for as one of one row -/
theorem batch_of_size_zero : ∃ (source : Source Program Record) (batch : SelectPlan),
    (usersWithTasks.batches []).runOn Partner.scripted [] = (.ok source, [], []) ∧
      ((calls Record.id source 1 (.start 0)).run Partner.scripted []).2.1 =
        [.executed (.select tasksSchema batch)] ∧
      batch.limit = some 1 ∧ batch.limit ≠ some 0 := by
  refine ⟨_, _, rfl, rfl, rfl, ?_⟩
  show some 1 ≠ some 0
  exact nofun

end Repository
end EntityAccess
