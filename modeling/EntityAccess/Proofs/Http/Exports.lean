import EntityAccess.Proofs.Http.Listings
import EntityAccess.Proofs.Query.Conditions

/-!
# the rows of an export

A listing by pages counts and reads the rows that meet the conditions of its filters and the match
of its search.  The export of the same query reads the rows that meet the conditions of the filters
alone, batch after batch: it leaves out the search.

* `ListQuery.searchConditions` : what the search of a query adds;
* `issues_paged`, `issues_export` : the conditions of all statements for roots;
* `export_leaves_out_search` : both side by side;
* `export_of_search_reads_all` : an export of all rows instead of those that were searched for.
-/

namespace EntityAccess

/-- the conditions of a statement for roots -/
def Statement.conditions? : Statement → Option (List Predicate)
  | .select _ plan => some plan.predicates
  | .count _ plan => some plan.predicates
  | _ => none

namespace Http

open EntityAccess.Action Outcome
open Program (Store)

/-- the condition that a search adds -/
def ListQuery.searchConditions (q : ListQuery) (e : Entity) : List Predicate :=
  match q.search with
  | none => []
  | some params =>
    match e.resolveVector params.vector with
    | .ok v => [.textMatch ⟨rootAlias, v.name, .searchVector⟩ (Text.trim params.text) v.config]
    | .error _ => []

/-! ### conditions of statements -/

/-- statements for related rows are not for roots -/
theorem relatedPass_conditions {P : List Predicate → Prop} :
    RelatedPass fun q => ∀ cs, q.conditions? = some cs → P cs := fun _ _ _ _ _ _ h => nomatch h

/-- the conditions of a listing by pages: those of its filters, and what its search adds -/
structure ListQuery.PagedConditions (q : ListQuery) (r : Repository) (base : SelectPlan)
    (cs : List Predicate) : Prop where
  filters : planOf r.schema r.entity q.filters [] .unsorted = .ok base
  unmatched : ∀ p ∈ base.predicates, p.isMatch = false
  conditions : cs = base.predicates ++ q.searchConditions r.entity
  searched : q.searchConditions r.entity = [] ↔ q.search = none

variable {server : Server} {name : String} {r : Repository} {fields : List (String × String)}
  {q : ListQuery} {limit : Nat}

section

variable (hr : r.Served)

include hr

/-- by pages: those of the filters, and of the search -/
theorem issues_paged (hq : ∀ params, q.search = some params → Text.trim params.text ≠ "")
    (hpaged : q.isExport = false) :
    Issues (fun statement => ∀ cs, statement.conditions? = some cs →
        ∃ base, q.PagedConditions r base cs)
      (fun _ => True) (Server.listPage r q) := by
  refine (issues_listPage hr relatedPass_conditions hpaged fun plan found hplan hfound => ?_).mono
    fun _ _ => trivial
  obtain ⟨base, hbase, hpredicates⟩ := planOf_conditions hr.schema hr.entity hplan
  have hplain := isMatch_of_planOf hplan
  have hfiltered : ∀ p ∈ base.predicates, p.isMatch = false := isMatch_of_planOf hbase
  have hconditions : q.PagedConditions r base found.predicates := by
    unfold ListQuery.Searched at hfound
    cases hsearch : q.search with
    | none =>
      rw [hsearch] at hfound
      obtain rfl : found = plan := hfound
      have hnothing : q.searchConditions r.entity = [] := by
        simp [ListQuery.searchConditions, hsearch]
      refine ⟨hbase, hfiltered, ?_, iff_of_true hnothing hsearch⟩
      rw [hnothing, List.append_nil, hpredicates]
    | some params =>
      rw [hsearch] at hfound
      obtain ⟨v, hv, hmatched⟩ := SelectPlan.predicates_search (hq params hsearch) hplain hfound
      rw [(sound_of_planOf hr.schema hr.entity hplan).entity] at hv
      have hsearched : q.searchConditions r.entity =
          [.textMatch ⟨rootAlias, v.name, .searchVector⟩ (Text.trim params.text) v.config] := by
        simp [ListQuery.searchConditions, hsearch, hv]
      refine ⟨hbase, hfiltered, ?_, ?_⟩
      · rw [hmatched, hsearched, hpredicates]
      · rw [hsearched, hsearch]
        exact iff_of_false (List.cons_ne_nil _ _) (Option.some_ne_none _)
  have hall : ∀ cs, some found.predicates = some cs → ∃ base, q.PagedConditions r base cs :=
    fun cs hcs => ⟨base, Option.some.inj hcs ▸ hconditions⟩
  exact ⟨hall, hall⟩

/-- in an export: those of the filters, and the key after which a batch begins -/
theorem issues_export (hexport : q.isExport = true) {base : SelectPlan}
    (hbase : planOf r.schema r.entity q.filters [] .unsorted = .ok base) :
    Issues (fun statement => ∀ cs, statement.conditions? = some cs → cs = base.predicates ∨
        ∃ id, cs = base.predicates ++ [.compare ⟨rootAlias, primaryKey, .text⟩ .gt (.text id)])
      (fun _ => True) (server.exportRows limit r q) := by
  refine (issues_exportRows hr relatedPass_conditions hexport
    fun plan after n batch hplan hbatch cs hcs => ?_).mono fun _ _ => trivial
  obtain rfl := Except.ok.inj (hbase.symm.trans hplan)
  obtain rfl : batch.predicates = cs := Option.some.inj hcs
  have hkey := SelectPlan.rootColumn_primaryKey
    ((sound_of_planOf hr.schema hr.entity hbase).entity ▸ hr.schema.entity _ hr.entity)
  exact (SelectPlan.predicates_keysetPlan hkey hbatch).imp_right fun ⟨id, _, h⟩ => ⟨id, h⟩

end

section

variable {σ : Type} {store : Store σ} {s : σ} {event : Event}

theorem mem_log_lift {α : Type} {p : Program α} (h : event ∈ (p.run store s).2.1) :
    event ∈ (runOn (ExceptT.lift p) store s).2.1 := by
  have hrun : runOn (ExceptT.lift p) store s =
      (.ok (p.run store s).1, (p.run store s).2.1 ++ [], (p.run store s).2.2) :=
    Program.run_bind store p _ s
  rw [hrun]
  exact List.mem_append_left _ h

/-- an iteration begins with a batch -/
theorem mem_log_drain {α : Type} {key : α → String} {source : Chunks.Source Program α}
    {size : Nat} (limit : Nat) (h : event ∈ ((source none (max size 1)).run store s).2.1) :
    event ∈ (((Chunks.start size).drain key source (limit + 1)).run store s).2.1 := by
  have hstep : (Chunks.start size : Chunks α).step = .fetch (.start size) := rfl
  unfold Chunks.drain
  rw [Program.run_bind, Chunks.next_of_fetch key source hstep, Program.run_bind]
  exact List.mem_append_left _ (List.mem_append_left _ h)

end

/-- the first batch of an export is read by the conditions of the filters alone -/
theorem mem_log_exportRows (server : Server) (limit : Nat) (hr : r.Served) {base : SelectPlan}
    (hbase : planOf r.schema r.entity q.filters [] .unsorted = .ok base) {σ : Type}
    (store : Store σ) (s : σ) :
    ∃ statement, .executed statement ∈
        ((server.exportRows (limit + 1) r q).runOn store s).2.1 ∧
      statement.conditions? = some base.predicates := by
  have hsource : r.batches q.filters =
      pure fun after n => (r.fetchAfter base r.loadPlan after n).run := by
    unfold Repository.batches
    rw [Repository.compile_eq hr.hooks, Repository.resolveLoadPlan_eq hr.hooks, hbase]
    rfl
  have hkey := SelectPlan.rootColumn_primaryKey
    ((sound_of_planOf hr.schema hr.entity hbase).entity ▸ hr.schema.entity _ hr.entity)
  obtain ⟨first, hfirst⟩ : ∃ first, base.keysetPlan none
      (max server.settings.exportBatchSize 1) = .ok first := by
    unfold SelectPlan.keysetPlan
    rw [hkey]
    exact ⟨_, rfl⟩
  have hpredicates : first.predicates = base.predicates :=
    (SelectPlan.predicates_keysetPlan hkey hfirst).resolve_right fun ⟨_, hid, _⟩ => nomatch hid
  refine ⟨.select r.schema first, ?_, congrArg some hpredicates⟩
  unfold Server.exportRows
  rw [hsource, runOn_bind_ok _ (runOn_pure _), List.nil_append]
  refine mem_log_bind_of_first _ (mem_log_lift (mem_log_drain limit ?_))
  show _ ∈ ((r.fetchAfter base r.loadPlan none _).runOn store s).2.1
  unfold Repository.fetchAfter
  rw [hfirst, runOn_liftM_bind]
  exact mem_log_bind_of_first _ List.mem_cons_self

/-- a listing by pages counts and reads the rows that meet the conditions of its filters and of its
search, while the export of the same query reads those that meet the conditions of the filters -/
theorem export_leaves_out_search (hs : server.Accepted) (hr : server.repository name = .ok r)
    (hq : ListQuery.ofFields fields server.settings.defaultPerPage = .ok q)
    (hpaged : q.isExport = false) {σ : Type} {store : Store σ} {s : σ} {counted : SelectPlan}
    (hcount : .executed (.count r.schema counted) ∈
      ((server.listRows limit name fields).runOn store s).2.1) :
    (∀ statement cs,
      .executed statement ∈ ((server.listRows limit name fields).runOn store s).2.1 →
        statement.conditions? = some cs → cs = counted.predicates) ∧
    ∃ base : SelectPlan, q.PagedConditions r base counted.predicates ∧
      ∀ (more : Nat) (τ : Type) (store' : Store τ) (t : τ),
        let log := ((server.listRows (more + 1) name
          (fields ++ [("export", "true")])).runOn store' t).2.1
        (∃ statement, .executed statement ∈ log ∧
          statement.conditions? = some base.predicates) ∧
        ∀ statement cs, .executed statement ∈ log → statement.conditions? = some cs →
          cs = base.predicates ∨ ∃ id, cs = base.predicates ++
            [.compare ⟨rootAlias, primaryKey, .text⟩ .gt (.text id)] := by
  obtain ⟨hserved, _⟩ := served_of_repository hs hr
  have hlisted : server.listRows limit name fields = some <$> Server.listPage r q := by
    rw [listRows_eq hr hq, hpaged]
    rfl
  have hissues := (issues_paged hserved (fun _ => ListQuery.text_ne_blank hq) hpaged).map
    (R := fun _ => True) (g := some) fun _ _ => trivial
  rw [← hlisted] at hissues
  obtain ⟨base, hbase⟩ := hissues.of_mem_log hcount _ rfl
  refine ⟨fun statement cs hmem hcs => ?_, base, hbase, fun more τ store' t => ?_⟩
  · obtain ⟨base', hbase'⟩ := hissues.of_mem_log hmem cs hcs
    obtain rfl := Except.ok.inj (hbase.filters.symm.trans hbase'.filters)
    rw [hbase.conditions, hbase'.conditions]
  · have hexported : server.listRows (more + 1) name (fields ++ [("export", "true")]) =
        server.exportRows (more + 1) r { q with isExport := true } := by
      rw [listRows_eq hr (ListQuery.ofFields_export hq)]
      rfl
    rw [hexported]
    refine ⟨mem_log_exportRows server more hserved hbase.filters store' t, ?_⟩
    intro statement cs hmem hcs
    exact (issues_export (q := { q with isExport := true }) hserved rfl hbase.filters).of_mem_log
      hmem cs hcs

/-! ### an export of a search -/

/-- a search for partners -/
def acmeSearch : List (String × String) := [("q", "acme")]

/-- what the search adds -/
def acmeMatch : Predicate :=
  .textMatch ⟨rootAlias, "search_vector", .searchVector⟩ "acme" defaultSearchConfig

/-- the count of a search that finds nothing -/
def countZero : Reply :=
  .ok ⟨Dict.ofList [("count", "bigint")], [Dict.ofList [("count", .int 0)]]⟩

/-- a partner of another name -/
def bolt : Reply :=
  Partner.oneRow Partner.partnersEntity [("id", .text "p1"), ("name", .text "Bolt")]

theorem run_acmeSearch : ∃ counted selected : SelectPlan,
    (partnersServer.listRows 2 Partner.partnersName acmeSearch).runOn Partner.scripted [countZero] =
      (.ok (some (.page ⟨[], 0, 1, -1, 0⟩)),
        [.executed (.count Partner.partnersSchema counted),
          .executed (.select Partner.partnersSchema selected)], []) ∧
      counted.predicates = [acmeMatch] ∧ selected.predicates = [acmeMatch] := by
  refine ⟨_, _, rfl, ?_, ?_⟩
  · rfl
  · rfl

theorem run_acmeExport : ∃ (read next : SelectPlan) (row : Json),
    (partnersServer.listRows 2 Partner.partnersName
        (acmeSearch ++ [("export", "true")])).runOn Partner.scripted [bolt] =
      (.ok (some (.many [row])),
        [.executed (.select Partner.partnersSchema read),
          .executed (.select Partner.partnersSchema next)], []) ∧
      read.predicates = [] ∧
      next.predicates = [.compare ⟨rootAlias, primaryKey, .text⟩ .gt (.text "p1")] := by
  have hr : partnersServer.repository Partner.partnersName = .ok Partner.partners := rfl
  have hq := ListQuery.ofFields_export (n := partnersServer.settings.defaultPerPage)
    (show ListQuery.ofFields acmeSearch _ = .ok _ from rfl)
  rw [listRows_eq hr hq]
  exact ⟨_, _, _, rfl, rfl, rfl⟩

/-- whatever the database answers, the export does not ask for the search -/
theorem acme_left_out_of_export : ∃ counted base : SelectPlan,
    counted.predicates = [acmeMatch] ∧ base.predicates = [] ∧
    ∀ (answers : List Reply) statement cs,
      .executed statement ∈ ((partnersServer.listRows 2 Partner.partnersName
        (acmeSearch ++ [("export", "true")])).runOn Partner.scripted answers).2.1 →
        statement.conditions? = some cs →
          cs = [] ∨ ∃ id, cs = [.compare ⟨rootAlias, primaryKey, .text⟩ .gt (.text id)] := by
  obtain ⟨counted, selected, hrun, hcounted, _⟩ := run_acmeSearch
  have hr : partnersServer.repository Partner.partnersName = .ok Partner.partners := rfl
  have hcount : .executed (.count Partner.partners.schema counted) ∈
      ((partnersServer.listRows 2 Partner.partnersName acmeSearch).runOn Partner.scripted
        [countZero]).2.1 := by
    rw [hrun]
    exact List.mem_cons_self
  obtain ⟨_, base, hbase, hexport⟩ :=
    export_leaves_out_search accepted_partnersServer hr rfl rfl hcount
  have hnil : base.predicates = [] := by
    obtain rfl := Except.ok.inj hbase.filters
    rfl
  refine ⟨counted, base, hcounted, hnil, fun answers => ?_⟩
  have hall := (hexport 1 _ Partner.scripted answers).2
  rw [hnil] at hall
  exact hall

/-- the search finds nothing, and its export a partner: the conditions are not the same -/
theorem export_of_search_reads_all :
    ∃ (counted selected read next : SelectPlan) (row : Json),
      (partnersServer.listRows 2 Partner.partnersName acmeSearch).runOn Partner.scripted
          [countZero] =
        (.ok (some (.page ⟨[], 0, 1, -1, 0⟩)),
          [.executed (.count Partner.partnersSchema counted),
            .executed (.select Partner.partnersSchema selected)], []) ∧
      (partnersServer.listRows 2 Partner.partnersName
          (acmeSearch ++ [("export", "true")])).runOn Partner.scripted [bolt] =
        (.ok (some (.many [row])),
          [.executed (.select Partner.partnersSchema read),
            .executed (.select Partner.partnersSchema next)], []) ∧
      acmeMatch ∈ counted.predicates ∧ acmeMatch ∈ selected.predicates ∧
        acmeMatch ∉ read.predicates ∧ acmeMatch ∉ next.predicates := by
  obtain ⟨counted, selected, hsearch, hcounted, hselected⟩ := run_acmeSearch
  obtain ⟨read, next, row, hexport, hread, hnext⟩ := run_acmeExport
  refine ⟨counted, selected, read, next, row, hsearch, hexport, ?_⟩
  rw [hcounted, hselected, hread, hnext]
  simp [acmeMatch]

end Http
end EntityAccess
