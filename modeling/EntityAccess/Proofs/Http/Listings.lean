import EntityAccess.Proofs.Http.CallerErrors
import EntityAccess.Proofs.Repository.Reads

/-!
# what listings execute and answer

A listing is answered by pages, by pages of a search, or as an export.  Each of these compiles its
plan and its load plan on its own.

* `ofFields_export` : a query with `export=true` added;
* `listRows_eq` : which of them answers;
* `Response.rows` : the rows of an answer;
* `issues_listPage`, `issues_exportRows` : what is executed, and the rows that are answered.
-/

namespace EntityAccess.Http

open EntityAccess.Action Outcome
open Program (Store)

/-! ### rows of answers -/

/-- the rows of an answer to a listing -/
def Response.rows (a : Response) : List Json :=
  ((a.body.bind (Json.field? "data")).bind Json.arr?).getD []

theorem Response.rows_envelope (status : Nat) (data : List Json) (about : List (String × Json)) :
    rows ⟨status, some (envelope (.arr data) about)⟩ = data := by
  have hdata : Json.field? "data" (envelope (.arr data) about) = some (.arr data) := by
    show (Dict.ofList [("data", Json.arr data), ("meta", Json.ofFields about)]).get? "data" = _
    exact Dict.get?_ofList (by simp) List.mem_cons_self
  unfold rows
  rw [Option.bind_some, hdata]
  rfl

variable {server : Server} {name : String} {r : Repository} {fields : List (String × String)}
  {q : ListQuery} {limit : Nat} {P : Statement → Prop}

/-! ### queries -/

namespace ListQuery

variable {n : Nat}

/-- the query that asks for an export of what another one lists -/
theorem ofFields_export (h : ofFields fields n = .ok q) :
    ofFields (fields ++ [("export", "true")]) n = .ok { q with isExport := true } := by
  obtain ⟨d, hd, h⟩ := bind_eq_ok.1 h
  obtain ⟨page, hpage, h⟩ := bind_eq_ok.1 h
  obtain rfl := Except.ok.inj h
  have hflag : readFlag "export" "true" = .ok true := readFlag_true (by decide +kernel)
  have hadd : d.add ("export", "true") = .ok { d with isExport := true } := by
    show (readFlag "export" "true").map _ = _
    rw [hflag]
    rfl
  refine bind_eq_ok.2 ⟨{ d with isExport := true }, ?_, bind_eq_ok.2 ⟨page, hpage, rfl⟩⟩
  rw [List.foldlM_append]
  exact bind_eq_ok.2 ⟨d, hd, bind_eq_ok.2 ⟨_, hadd, rfl⟩⟩

/-- a search is for some text -/
theorem text_ne_blank (h : ofFields fields n = .ok q) {params : SearchParams}
    (hsearch : q.search = some params) : Text.trim params.text ≠ "" := by
  obtain ⟨d, _, h⟩ := bind_eq_ok.1 h
  obtain ⟨page, _, h⟩ := bind_eq_ok.1 h
  obtain rfl := Except.ok.inj h
  dsimp only at hsearch
  split at hsearch
  · cases hsearch
  · next htext =>
    obtain rfl := Option.some.inj hsearch
    exact htext

end ListQuery

/-! ### the ways to answer -/

theorem listRows_eq (hr : server.repository name = .ok r)
    (hq : ListQuery.ofFields fields server.settings.defaultPerPage = .ok q) :
    server.listRows limit name fields =
      if q.isExport then server.exportRows limit r q else some <$> Server.listPage r q := by
  unfold Server.listRows
  rw [hr, hq]
  rfl

/-- the included names that are loaded: those of a listing by pages that is no search -/
def ListQuery.loadedIncludes (q : ListQuery) : List String :=
  if q.isExport = true ∨ q.search.isSome = true then [] else q.includes

/-- the plan that a page is cut from -/
def ListQuery.Searched (q : ListQuery) (plan found : SelectPlan) : Prop :=
  match q.search with
  | some params => plan.search params = .ok found
  | none => found = plan

/-- answers whose rows are records that have loaded a load plan -/
def ListQuery.Answers (q : ListQuery) (r : Repository) (a : Response) : Prop :=
  ∃ (load : LoadPlan) (records : List Record),
    r.entity.includeAll r.loadPlan q.loadedIncludes = .ok load ∧
      a.rows = records.map Record.toJson ∧ ∀ record ∈ records, record.Loads r.entity load

section

variable (hr : r.Served) (hrelated : RelatedPass P)

include hr hrelated

theorem issues_listPage (hpaged : q.isExport = false)
    (hroots : ∀ plan found, planOf r.schema r.entity q.filters q.sort .paged = .ok plan →
      q.Searched plan found → P (.count r.schema found) ∧
        P (.select r.schema (found.window (some q.page.perPage) (some q.page.offset)))) :
    Issues P (q.Answers r) (Server.listPage r q) := by
  have hanswer : ∀ x : Action (Page Record),
      Issues P (fun page => ∃ load, r.entity.includeAll r.loadPlan q.loadedIncludes = .ok load ∧
        ∀ record ∈ page.items, record.Loads r.entity load) x →
        Issues P (q.Answers r) (x >>= fun page =>
          pure (.page { page with items := page.items.map Record.toJson })) :=
    fun x hx => hx.bind fun page ⟨load, hload, hpage⟩ =>
      .pure ⟨load, page.items, hload, Response.rows_envelope _ _ _, hpage⟩
  unfold Server.listPage
  refine (Repository.issues_compile hr.hooks).bind fun _ _ => ?_
  refine (Repository.issues_resolveLoadPlan hr.hooks).bind fun _ _ => ?_
  unfold ListQuery.Searched at hroots
  dsimp only
  cases hsearch : q.search with
  | some params =>
    have hnone : q.loadedIncludes = [] := by simp [ListQuery.loadedIncludes, hsearch]
    rw [hsearch] at hroots
    refine hanswer _
      ((Repository.issues_search hr.hooks q.page hroots hrelated).mono fun page h => ?_)
    exact ⟨r.loadPlan, by rw [hnone]; rfl, h⟩
  | none =>
    have hall : q.loadedIncludes = q.includes := by
      simp [ListQuery.loadedIncludes, hsearch, hpaged]
    rw [hsearch] at hroots
    rw [← hall]
    refine hanswer _ (Repository.issues_list hr.hooks q.page (fun plan h => ?_) hrelated)
    exact hroots plan plan h rfl

theorem issues_exportRows (hexport : q.isExport = true)
    (hroots : ∀ plan after n batch,
      planOf r.schema r.entity q.filters [] .unsorted = .ok plan →
        plan.keysetPlan after n = .ok batch → P (.select r.schema batch)) :
    Issues P (fun answer => ∀ a ∈ answer, q.Answers r a) (server.exportRows limit r q) := by
  have hload : r.entity.includeAll r.loadPlan q.loadedIncludes = .ok r.loadPlan := by
    unfold ListQuery.loadedIncludes
    rw [if_pos (.inl hexport)]
    rfl
  unfold Server.exportRows
  refine (Repository.issues_batches hr.hooks hroots hrelated).bind fun source hsource => ?_
  refine (Repository.issues_drain hsource).bind fun found hfound => ?_
  split
  · exact .pure nofun
  · exact .liftM nofun
  · next records _ =>
    refine .pure fun a ha => ?_
    obtain rfl := Option.some.inj ha
    exact ⟨r.loadPlan, records, hload, Response.rows_envelope _ _ _, hfound _ _ _ rfl⟩

end

end EntityAccess.Http
