import EntityAccess.Http.Server
import EntityAccess.Proofs.Repository.Refusals
import EntityAccess.Proofs.Repository.WriteFaults

/-!
# errors of callers

What a caller has got wrong is answered before anything is executed, with two exceptions.  An update
looks at its payload after it has read the record, and the keys of related rows, which the database
holds, are read like filters of a caller.

* `Server.Accepted` : a server of an accepted schema;
* `served_of_repository` : its repositories;
* `early_listRows`, `early_createRow`, `early_readRow`, `early_deleteRow` : what requests fail with;
* `updateRow_cases` : what updates fail with;
* `caller_errors_in_time` : the answers to all requests;
* `unusable_age_refused_after_read` : an update that is refused too late.
-/

namespace EntityAccess.Http

open EntityAccess.Action Outcome
open Program (Store)

/-! ### codes of answers -/

namespace Response

/-- the code of the error that an answer reports -/
def errorCode? (r : Response) : Option String :=
  ((r.body.bind (Json.field? "error")).bind (Json.field? "code")).bind Json.str?

theorem errorCode?_ofError (e : Error) : (ofError e).errorCode? = some e.status.2 := by
  -- the details of a rule stand beside the code, whatever they are
  have hcode : ∀ details : List (String × Json), "code" ∉ details.map (·.1) →
      Json.field? "code" (Json.ofFields
        ([("code", Json.str e.status.2), ("message", Json.str e.message)] ++ details)) =
          some (.str e.status.2) := by
    intro details hdetails
    refine (?_ : (Dict.ofList _).get? "code" = _)
    unfold Dict.ofList
    rw [List.foldl_append, Dict.get?_foldl_insert_of_not_mem hdetails]
    exact Dict.get?_ofList (l := [("code", Json.str e.status.2), ("message", .str e.message)])
      (by simp) List.mem_cons_self
  have herror : ∀ v : Json, Json.field? "error" (Json.ofFields [("error", v)]) = some v :=
    fun _ => rfl
  unfold errorCode? ofError Error.body
  rw [Option.bind_some, herror, Option.bind_some, hcode]
  · rfl
  · cases e.resource? <;> simp

/-- an answer that reports no error -/
def Fine (r : Response) : Prop := r.errorCode? = none

/-- an answer that reports an error of the caller -/
def BlamesCaller (r : Response) : Prop := ∃ code ∈ callerCodes, r.errorCode? = some code

theorem Fine.not_blames {r : Response} (h : r.Fine) : ¬ r.BlamesCaller := by
  rintro ⟨code, _, hcode⟩
  rw [show r.errorCode? = none from h] at hcode
  cases hcode

theorem isCaller_of_blames {e : Error} (h : (ofError e).BlamesCaller) : e.isCaller = true := by
  obtain ⟨code, hmem, hcode⟩ := h
  rw [errorCode?_ofError] at hcode
  obtain rfl := Option.some.inj hcode
  exact List.contains_iff_mem.2 hmem

theorem fine_data {status : Nat} {fields : List (String × Json)}
    (h : "error" ∉ fields.map (·.1)) :
    Fine ⟨status, some (Json.ofFields fields)⟩ := by
  have hnone : Json.field? "error" (Json.ofFields fields) = none :=
    Dict.get?_foldl_insert_of_not_mem (d := .empty) h
  unfold Fine errorCode?
  rw [Option.bind_some, hnone]
  rfl

theorem fine_created (data : Json) : (created data).Fine := fine_data (by simp)

theorem fine_one (data : Json) : (one data).Fine := fine_data (by simp)

theorem fine_many (data : List Json) : (many data).Fine := fine_data (by simp)

theorem fine_page (p : Page Json) : (page p).Fine := fine_data (by simp)

theorem fine_plain (status : Nat) : (plain status).Fine := rfl

end Response

/-! ### repositories of a server -/

/-- names of partners, their owners and memberships are texts -/
def Server.PartnersOfText (s : Server) : Prop :=
  ∀ partners members, s.catalog.schema.entity? Partner.partnersName = some partners →
    s.catalog.schema.entity? Partner.membersName = some members →
      partners.columnType "name" = .text ∧ Partner.OwnerColumns partners members

/-- a server of an accepted schema, with no rules or with those for partners -/
structure Server.Accepted (s : Server) : Prop where
  schema : ∃ d : Document, d.resolve = .ok s.catalog.schema
  catalog : Catalog.build s.catalog.schema s.catalog.hooks s.catalog.loadPlans = .ok s.catalog
  hooks : ∀ name h, s.catalog.hooks.get? name = some h → h = .none ∨
    name = Partner.partnersName ∧ Partner.hooks s.catalog.schema = .ok h ∧ s.PartnersOfText

theorem of_repository {server : Server} {name : String} {r : Repository}
    (h : server.repository name = .ok r) : ∃ e, server.catalog.schema.entity? name = some e ∧
      r = ⟨server.catalog.schema, e, (server.catalog.hooks.get? name).getD .none,
        (server.catalog.loadPlans.get? name).getD .empty⟩ := by
  unfold Server.repository at h
  split at h
  · next found hfound =>
    obtain rfl := Except.ok.inj h
    obtain ⟨e, he, rfl⟩ := Option.map_eq_some_iff.1 hfound
    exact ⟨e, he, rfl⟩
  · cases h

variable {server : Server} {name id : String} {r : Repository}

theorem served_of_repository (hs : server.Accepted) (hr : server.repository name = .ok r) :
    r.Served ∧ r.hooks.Courteous r.entity := by
  obtain ⟨d, hd⟩ := hs.schema
  obtain ⟨e, he, rfl⟩ := of_repository hr
  have hmem := List.mem_of_find?_eq_some he
  have hrules : ((server.catalog.hooks.get? name).getD .none).Preparing ∧
      ((server.catalog.hooks.get? name).getD .none).Courteous e := by
    cases hh : server.catalog.hooks.get? name with
    | none => exact ⟨Hooks.preparing_none, Hooks.courteous_none e⟩
    | some h =>
      rcases hs.hooks name h hh with rfl | ⟨rfl, hpartner, htext⟩
      · exact ⟨Hooks.preparing_none, Hooks.courteous_none e⟩
      · refine ⟨Partner.preparing_hooks hpartner, ?_⟩
        obtain ⟨partners, members, hpartners, hmembers, rfl⟩ := Partner.hooks_eq_ok hpartner
        obtain rfl : e = partners := Option.some.inj (he.symm.trans hpartners)
        obtain ⟨hname, hcolumns⟩ := htext e members hpartners hmembers
        exact Partner.courteous_rules hname hcolumns
          (Repository.served_plain hd (List.mem_of_find?_eq_some hmembers))
  exact ⟨{ Repository.served_plain hd hmem with
    loadPlan := Catalog.loadPlan_of_build hs.catalog he
    hooks := hrules.1 }, hrules.2⟩

/-! ### what requests fail with -/

/-- stored keys that cannot be compared, or what callers have nothing to do with -/
def Server.Fault (server : Server) (name : String) (err : Error) : Prop :=
  err.isCaller = false ∨
    ∃ r relationship, server.repository name = .ok r ∧ r.KeyFault relationship err

theorem fault_of_repository (hr : server.repository name = .ok r) {err : Error}
    (h : r.Fault err) : server.Fault name err :=
  h.imp_right fun ⟨relationship, hfault⟩ => ⟨r, relationship, hr, hfault⟩

section

variable {fields : List (String × String)} {q : ListQuery} {limit : Nat} {body : Json}
  (hs : server.Accepted)

include hs

theorem early_listPage (hr : server.repository name = .ok r) :
    Early (server.Fault name) Response.Fine (Server.listPage r q) := by
  obtain ⟨hserved, _⟩ := served_of_repository hs hr
  unfold Server.listPage
  refine .silent_bind (Repository.silent_compile hserved.hooks)
    (Repository.ends_compile hserved.hooks fun _ _ => trivial) fun _ _ => ?_
  refine .silent_bind (Repository.silent_resolveLoadPlan hserved.hooks)
    (Repository.ends_resolveLoadPlan hserved.hooks fun _ _ => trivial) fun _ _ => ?_
  have hpage : ∀ x : Action (Page Record),
      Early r.Fault (fun _ => True) x →
        Early (server.Fault name) Response.Fine (x >>= fun page =>
          pure (.page { page with items := page.items.map Record.toJson })) := fun x hx =>
    (hx.mono fun _ h => fault_of_repository hr h).bind fun page _ => .pure (Response.fine_page _)
  dsimp only
  split
  · exact hpage _ (Repository.early_search hserved _ _)
  · exact hpage _ (Repository.early_list hserved _)

theorem early_exportRows (hr : server.repository name = .ok r) :
    Early (server.Fault name) (fun answer => ∀ a ∈ answer, Response.Fine a)
      (server.exportRows limit r q) := by
  obtain ⟨hserved, _⟩ := served_of_repository hs hr
  -- nothing is executed until the first batch is asked for
  have hsource : Ends (fun _ => True)
      (fun source => ∀ after n, Ends (server.Fault name) (fun _ => True) (.mk (source after n)))
      (r.batches q.filters) := by
    unfold Repository.batches
    refine (Repository.ends_compile hserved.hooks fun _ _ => trivial).bind fun plan hplan => ?_
    refine (Repository.ends_resolveLoadPlan hserved.hooks fun _ _ => trivial).bind
      fun load hload => ?_
    refine .pure fun after n => ?_
    exact (Repository.ends_fetchAfter hserved (hserved.loadPlan.includeAll hload)
      (sound_of_planOf hserved.schema hserved.entity hplan).entity after n).mono
      (fun _ h => fault_of_repository hr h.fault) fun _ h => h
  have hsilent : Silent (r.batches q.filters) := by
    unfold Repository.batches
    exact .bind (Repository.silent_compile hserved.hooks) fun plan =>
      .bind (Repository.silent_resolveLoadPlan hserved.hooks) fun load => .pure _
  unfold Server.exportRows
  refine .silent_bind hsilent hsource fun source hfetch => .of_ends ?_
  have hdrained : Ends (server.Fault name)
      (fun found => ∀ rows e after, found = some (rows, some e, after) → server.Fault name e)
      (ExceptT.lift ((Chunks.start server.settings.exportBatchSize).drain Record.id source
        limit)) := .lift fun _ _ _ _ _ _ hfound => error_of_drain hfetch hfound
  refine hdrained.bind fun found hfound => ?_
  split
  · exact .pure nofun
  · next e _ => exact .liftM nofun fun e' he => Except.error.inj he ▸ hfound _ _ _ rfl
  · next rows _ =>
    refine .pure fun a ha => ?_
    obtain rfl := Option.some.inj ha
    exact Response.fine_many _

theorem early_listRows : Early (server.Fault name) (fun answer => ∀ a ∈ answer, Response.Fine a)
    (server.listRows limit name fields) := by
  unfold Server.listRows
  refine .liftM_bind fun r hr => .liftM_bind fun q _ => ?_
  split
  · exact early_exportRows hs hr
  · refine (early_listPage hs hr).map fun a ha a' ha' => ?_
    obtain rfl := Option.some.inj ha'
    exact ha

theorem early_createRow :
    Early (server.Fault name) Response.Fine (server.createRow name body) := by
  unfold Server.createRow
  refine .liftM_bind fun r hr => .liftM_bind fun input _ => .liftM_bind fun values hcheck => ?_
  obtain ⟨hserved, hrules⟩ := served_of_repository hs hr
  refine .of_ends (((Repository.ends_create hserved hrules hcheck).mono
    (fun _ h => fault_of_repository hr h.fault) fun _ h => h).bind fun record _ => ?_)
  exact .pure (Response.fine_created _)

theorem early_readRow : Early (server.Fault name) Response.Fine (server.readRow name id) := by
  unfold Server.readRow
  refine .liftM_bind fun r hr => .of_ends ?_
  have hread : Ends (r.ReadFault r.loadPlan) Response.Fine (do
      let record ← liftM (r.required (← r.getById id))
      return .one record.toJson) :=
    (Repository.ends_getById (served_of_repository hs hr).1 id).bind fun found _ =>
      (Repository.ends_required found).bind fun record _ => .pure (Response.fine_one _)
  exact hread.mono (fun _ h => fault_of_repository hr h.fault) fun _ h => h

omit hs in
theorem early_deleteRow : Early (server.Fault name) Response.Fine (server.deleteRow name id) := by
  unfold Server.deleteRow
  refine .liftM_bind fun r hr => .of_ends ?_
  have hremove : Ends (r.ReadFault .empty) (fun _ => True) (r.remove id) := by
    unfold Repository.remove
    exact Ends.bind (Q := fun _ => True) (.query (fun _ _ _ => trivial)
      Repository.readFault_database) fun _ _ => .pure trivial
  have hanswer : Ends (r.ReadFault .empty) Response.Fine (do
      let _ ← liftM (r.required (← r.remove id))
      return .plain 204) :=
    hremove.bind fun found _ =>
      (Repository.ends_required found).bind fun _ _ => .pure (Response.fine_plain _)
  exact hanswer.mono (fun _ h => fault_of_repository hr h.fault) fun _ h => h

/-- the payload of an update is refused after the record has been read, and nothing but that read
has been executed -/
def Server.RefusedAfterRead {σ : Type} (server : Server) (name id : String) (body : Json)
    (store : Store σ) (s s' : σ) (log : List Event) (err : Error) : Prop :=
  ∃ r input current, server.repository name = .ok r ∧ Server.readFields body = .ok input ∧
    (r.getById id).runOn store s = (.ok (some current), log, s') ∧
      r.entity.prepareUpdate current input = .error err

section

variable {σ : Type} {store : Store σ} {s s' : σ} {log : List Event}
  {result : Except Error Response}

/-- an update of a record that has been found -/
theorem updateFound_cases (hr : server.repository name = .ok r) {current : Record} {input : Row}
    (h : (do return .one (← r.update current input).toJson : Action Response).runOn store s =
      (result, log, s')) :
    (∃ err, r.entity.prepareUpdate current input = .error err ∧ result = .error err ∧ log = [] ∧
        s' = s) ∨
      (∀ a, result = .ok a → a.Fine) ∧ ∀ err, result = .error err → server.Fault name err := by
  obtain ⟨hserved, hrules⟩ := served_of_repository hs hr
  cases hprepare : r.entity.prepareUpdate current input with
  | error err =>
    have hrefused : (r.update current input).runOn store s = (.error err, [], s) := by
      unfold Repository.update
      rw [hprepare]
      exact runOn_bind_error _ (runOn_liftM _)
    rw [runOn_bind_error _ hrefused] at h
    simp only [Prod.mk.injEq] at h
    exact .inl ⟨err, rfl, h.1.symm, h.2.1.symm, h.2.2.symm⟩
  | ok prepared =>
    have hanswer : Ends (r.ReadFault r.loadPlan) Response.Fine (do
        return .one (← r.update current input).toJson) :=
      (Repository.ends_update hserved hrules hprepare).bind fun _ _ => .pure (Response.fine_one _)
    have hends := hanswer σ store s
    rw [h] at hends
    exact .inr ⟨hends.1, fun err herr => fault_of_repository hr (hends.2 err herr).fault⟩

theorem updateRow_cases
    (h : (server.updateRow name id body).runOn store s = (result, log, s')) :
    (∀ a, result = .ok a → a.Fine) ∧ ∀ err, result = .error err → log = [] ∨
      server.Fault name err ∨ server.RefusedAfterRead name id body store s s' log err := by
  unfold Server.updateRow at h
  rcases runOn_liftM_bind_cases h with ⟨e, _, rfl, rfl, _⟩ | ⟨r, hr, hread⟩
  · exact ⟨nofun, fun _ _ => .inl rfl⟩
  rcases runOn_liftM_bind_cases hread with ⟨e, _, rfl, rfl, _⟩ | ⟨input, hinput, hread⟩
  · exact ⟨nofun, fun _ _ => .inl rfl⟩
  split at hread
  · rcases runOn_liftM_bind_cases (x := .error .noUpdateData) hread with
      ⟨e, _, rfl, rfl, _⟩ | ⟨_, hno, _⟩
    · exact ⟨nofun, fun _ _ => .inl rfl⟩
    · cases hno
  -- the record is read before anything has looked at the payload
  have hget := Repository.ends_getById (served_of_repository hs hr).1 id σ store s
  rcases runOn_bind_cases hread with ⟨e, hrun, rfl⟩ | ⟨found, read, mid, rest, hrun, hfound, rfl⟩
  · rw [hrun] at hget
    refine ⟨nofun, fun err herr => .inr (.inl ?_)⟩
    obtain rfl := Except.error.inj herr
    exact fault_of_repository hr (hget.2 e rfl).fault
  rcases runOn_liftM_bind_cases hfound with ⟨e, he, rfl, _, _⟩ | ⟨current, hcurrent, hupdate⟩
  · refine ⟨nofun, fun err herr => .inr (.inl ?_)⟩
    obtain rfl := Except.error.inj herr
    exact .inl (Repository.isCaller_of_required he)
  rcases updateFound_cases hs hr hupdate with ⟨e, hprepare, rfl, rfl, rfl⟩ | ⟨hfine, hfault⟩
  · refine ⟨nofun, fun err herr => .inr (.inr ?_)⟩
    obtain rfl := Except.error.inj herr
    obtain rfl : found = some current := by
      unfold Repository.required at hcurrent
      split at hcurrent
      · exact congrArg some (Except.ok.inj hcurrent)
      · cases hcurrent
    rw [List.append_nil]
    exact ⟨r, input, current, hr, hinput, hrun, hprepare⟩
  · exact ⟨hfine, fun err herr => .inr (.inl (hfault err herr))⟩

end

end

/-! ### answers -/

/-- what a request asks for, unless it asks for a head only -/
def Request.operation? (r : Request) : Option (Operation String) := do
  let route ← Route.ofPath? r.path
  (← route.operation? r.method).decode?

theorem run_map {α β σ : Type} (f : α → β) (p : Program α) (store : Store σ) (s : σ) :
    (f <$> p).run store s = (f (p.run store s).1, (p.run store s).2) := by
  have hbind : (f <$> p).run store s = (p >>= fun a => pure (f a)).run store s := rfl
  rw [hbind, Program.run_bind]
  simp [Program.run_pure]

theorem runOn_map {α β σ : Type} (f : α → β) (x : Action α) (store : Store σ) (s : σ) :
    (f <$> x).runOn store s = ((x.runOn store s).1.map f, (x.runOn store s).2) := by
  have hbind : (f <$> x).runOn store s =
      (x >>= fun a => (pure (f a) : Action β)).runOn store s := rfl
  rw [hbind]
  rcases hrun : x.runOn store s with ⟨e | a, log, s'⟩
  · exact runOn_bind_error _ hrun
  · rw [runOn_bind_ok _ hrun, runOn_pure, List.append_nil]
    rfl

section

variable {limit : Nat} {req : Request} {response : Response} {σ : Type} {store : Store σ}
  {s s' : σ} {log : List Event}

/-- an answer comes from a value or from an error -/
theorem of_run_settle {action : Action (Option Response)}
    (h : (Server.settle action).run store s = (some response, log, s')) :
    action.runOn store s = (.ok (some response), log, s') ∨
      ∃ err, action.runOn store s = (.error err, log, s') ∧ response = .ofError err := by
  unfold Server.settle at h
  rw [Program.run_bind] at h
  unfold runOn
  rcases hrun : action.run.run store s with ⟨err | answer, first, mid⟩
  · rw [hrun] at h
    simp only [Program.run_pure, List.append_nil, Prod.mk.injEq, Option.some.injEq] at h
    obtain ⟨rfl, rfl, rfl⟩ := h
    exact .inr ⟨err, rfl, rfl⟩
  · rw [hrun] at h
    simp only [Program.run_pure, List.append_nil, Prod.mk.injEq] at h
    obtain ⟨rfl, rfl, rfl⟩ := h
    exact .inl rfl

theorem of_run_settle_map {action : Action Response}
    (h : (Server.settle (some <$> action)).run store s = (some response, log, s')) :
    action.runOn store s = (.ok response, log, s') ∨
      ∃ err, action.runOn store s = (.error err, log, s') ∧ response = .ofError err := by
  have hmap := of_run_settle h
  rw [runOn_map] at hmap
  rcases hrun : action.runOn store s with ⟨err | a, first, mid⟩
  · rw [hrun] at hmap
    simpa [Except.map] using hmap
  · rw [hrun] at hmap
    simpa [Except.map] using hmap

/-- a refused body is refused by its status alone -/
theorem fine_of_readBody {refusal : Response} (h : Server.readBody req = .error refusal) :
    refusal.Fine := by
  unfold Server.readBody at h
  split at h
  · split at h
    · exact Except.error.inj h ▸ Response.fine_plain 413
    · split at h
      · cases h
      · exact Except.error.inj h ▸ Response.fine_plain 400
  · exact Except.error.inj h ▸ Response.fine_plain 415

theorem fine_ready : (server.ready.run store s).1.Fine := by
  unfold Server.ready
  exact Response.fine_data (by simp)

/-- what is answered by a request that blames its caller is asked for -/
theorem of_run_respond (h : (server.respond limit req).run store s = (some response, log, s'))
    (hblame : response.BlamesCaller) : ∃ operation, req.operation? = some operation ∧
      (server.perform limit req operation).run store s = (some response, log, s') := by
  unfold Server.respond at h
  unfold Request.operation?
  cases hroute : Route.ofPath? req.path with
  | none =>
    rw [hroute] at h
    obtain rfl := Option.some.inj (congrArg Prod.fst h)
    exact absurd hblame (Response.fine_plain 404).not_blames
  | some route =>
    rw [hroute] at h
    dsimp only at h
    split at h
    · rw [run_map] at h
      obtain ⟨answer, _, rfl⟩ := Option.map_eq_some_iff.1 (congrArg Prod.fst h)
      have hfine : Response.Fine ⟨answer.status, none⟩ := rfl
      exact absurd hblame hfine.not_blames
    · unfold Server.respondTo at h
      cases hmethod : route.operation? req.method with
      | none =>
        rw [hmethod] at h
        obtain rfl := Option.some.inj (congrArg Prod.fst h)
        exact absurd hblame (Response.fine_plain 405).not_blames
      | some segments =>
        rw [hmethod] at h
        dsimp only at h
        cases hdecode : segments.decode? with
        | none =>
          rw [hdecode] at h
          obtain rfl := Option.some.inj (congrArg Prod.fst h)
          exact absurd hblame (Response.fine_plain 400).not_blames
        | some operation =>
          rw [hdecode] at h
          exact ⟨operation, by simp [hmethod, hdecode], h⟩

/-- an answer that blames the caller for a fault of stored keys, or for the payload of an update
whose record has been read -/
def Server.BlamesLate (server : Server) (req : Request) (response : Response) (store : Store σ)
    (s s' : σ) (log : List Event) : Prop :=
  ∃ err, response = .ofError err ∧
    ((∃ name r relationship, server.repository name = .ok r ∧ r.KeyFault relationship err) ∨
      ∃ name id body, req.operation? = some (.update name id) ∧
        Server.readBody req = .ok body ∧
          server.RefusedAfterRead name id body store s s' log err)

/-- the answer of an action that is early -/
theorem settle_cases {action : Action (Option Response)}
    (hx : Early (server.Fault name) (fun answer => ∀ a ∈ answer, Response.Fine a) action)
    (h : (Server.settle action).run store s = (some response, log, s'))
    (hblame : response.BlamesCaller) :
    log = [] ∨ server.BlamesLate req response store s s' log := by
  obtain ⟨hok, herr⟩ := hx σ store s
  rcases of_run_settle h with hrun | ⟨err, hrun, rfl⟩
  · rw [hrun] at hok
    exact absurd hblame (hok _ rfl response rfl).not_blames
  · rw [hrun] at herr
    rcases herr err rfl with (hno | ⟨r, relationship, hr, hfault⟩) | hlog
    · rw [Response.isCaller_of_blames hblame] at hno
      cases hno
    · exact .inr ⟨err, rfl, .inl ⟨name, r, relationship, hr, hfault⟩⟩
    · exact .inl hlog

/-- an answer that blames its caller is the answer to a body -/
theorem of_run_withBody {answer : Json → Action Response}
    (h : (Server.withBody req answer).run store s = (some response, log, s'))
    (hblame : response.BlamesCaller) : ∃ body, Server.readBody req = .ok body ∧
      (Server.settle (some <$> answer body)).run store s = (some response, log, s') := by
  unfold Server.withBody at h
  split at h
  · next body hbody => exact ⟨body, hbody, h⟩
  · next refusal hrefusal =>
    obtain rfl := Option.some.inj (congrArg Prod.fst h)
    exact absurd hblame (fine_of_readBody hrefusal).not_blames

/-- the answer to an update -/
theorem settle_updateRow_cases (hs : server.Accepted) {body : Json}
    (h : (Server.settle (some <$> server.updateRow name id body)).run store s =
      (some response, log, s')) (hblame : response.BlamesCaller) :
    log = [] ∨ ∃ err, response = .ofError err ∧
      ((∃ r relationship, server.repository name = .ok r ∧ r.KeyFault relationship err) ∨
        server.RefusedAfterRead name id body store s s' log err) := by
  rcases of_run_settle_map h with hrun | ⟨err, hrun, rfl⟩
  · exact absurd hblame ((updateRow_cases hs hrun).1 response rfl).not_blames
  · rcases (updateRow_cases hs hrun).2 err rfl with hlog | (hno | hfault) | hrefused
    · exact .inl hlog
    · rw [Response.isCaller_of_blames hblame] at hno
      cases hno
    · exact .inr ⟨err, rfl, .inl hfault⟩
    · exact .inr ⟨err, rfl, .inr hrefused⟩

theorem caller_errors_in_time (hs : server.Accepted)
    (h : (server.respond limit req).run store s = (some response, log, s'))
    (hblame : response.BlamesCaller) :
    log = [] ∨ server.BlamesLate req response store s s' log := by
  obtain ⟨operation, hoperation, hrun⟩ := of_run_respond h hblame
  have hsome : ∀ {a : Response}, a.Fine → ∀ a' ∈ some a, Response.Fine a' := fun ha a' ha' =>
    Option.some.inj ha' ▸ ha
  cases operation with
  | health =>
    obtain rfl := Option.some.inj (congrArg Prod.fst hrun)
    have hfine : Response.Fine Server.health := Response.fine_data (by simp)
    exact absurd hblame hfine.not_blames
  | version =>
    obtain rfl := Option.some.inj (congrArg Prod.fst hrun)
    have hfine : Response.Fine Server.version := Response.fine_data (by simp)
    exact absurd hblame hfine.not_blames
  | ready =>
    have hanswer := run_map some server.ready store s
    rw [show (some <$> server.ready).run store s = _ from hrun] at hanswer
    obtain rfl := Option.some.inj (congrArg Prod.fst hanswer)
    exact absurd hblame fine_ready.not_blames
  | list name => exact settle_cases (early_listRows hs) hrun hblame
  | create name =>
    obtain ⟨body, _, hrun⟩ := of_run_withBody hrun hblame
    exact settle_cases ((early_createRow hs).map fun _ => hsome) hrun hblame
  | read name id => exact settle_cases ((early_readRow hs).map fun _ => hsome) hrun hblame
  | delete name id => exact settle_cases (early_deleteRow.map fun _ => hsome) hrun hblame
  | update name id =>
    obtain ⟨body, hbody, hrun⟩ := of_run_withBody hrun hblame
    refine (settle_updateRow_cases hs hrun hblame).imp_right ?_
    rintro ⟨err, rfl, ⟨r, relationship, hfault⟩ | hrefused⟩
    · exact ⟨err, rfl, .inl ⟨name, r, relationship, hfault⟩⟩
    · exact ⟨err, rfl, .inr ⟨name, id, body, hoperation, hbody, hrefused⟩⟩

end

/-! ### an update that is refused late -/

/-- a server of partners, under their rules -/
def partnersServer : Server where
  catalog := ⟨Partner.partnersSchema, Dict.ofList [(Partner.partnersName,
    Partner.rules Partner.partnersSchema Partner.partnersEntity Partner.membersEntity)], .empty⟩
  settings := .default

theorem accepted_partnersServer : partnersServer.Accepted where
  schema := ⟨_, Partner.resolve_partnersDocument⟩
  catalog := rfl
  hooks name h hh := by
    have hentry : (name, h) ∈ [(Partner.partnersName, Partner.rules Partner.partnersSchema
        Partner.partnersEntity Partner.membersEntity)] :=
      Dict.of_mem_ofList (Dict.get?_eq_some_iff.1 hh)
    obtain ⟨rfl, rfl⟩ := Prod.mk.inj (List.mem_singleton.1 hentry)
    refine .inr ⟨rfl, Partner.hooks_partnersSchema, fun partners members hpartners hmembers => ?_⟩
    obtain rfl : Partner.partnersEntity = partners := Option.some.inj hpartners
    obtain rfl : Partner.membersEntity = members := Option.some.inj hmembers
    exact ⟨rfl, Partner.ownerColumns_partners⟩

/-- an age that is no number -/
def unusableAge : Request where
  method := .patch
  target := "/users/u1"
  contentType := some "application/json"
  body := "\x7b\"age\":\"old\"\x7d"

theorem readBody_unusableAge :
    Server.readBody unusableAge = .ok (.obj [("age", .str "old")]) := by
  have hjson : ((unusableAge.contentType.bind MediaType.read?).map (·.isJson)).getD false =
      true := by decide +kernel
  have hsize : ¬ Server.maxBodySize < unusableAge.body.utf8ByteSize := by decide
  have hread : Json.readFirst? unusableAge.body = some (.obj [("age", .str "old")]) := by
    have hsource : Json.Source.read unusableAge.body =
        (.obj [(some "age", .value (.str "old"))], some []) := by
      simp [unusableAge, Json.Source.read, Json.readValue, Json.readFields, Json.skipSpaces,
        Json.isSpace, Json.readString, Json.StringState.start, Json.StringState.push]
    unfold Json.readFirst?
    rw [hsource]
    rfl
  unfold Server.readBody
  rw [if_pos hjson, if_neg hsize, hread]

theorem respond_unusableAge (limit : Nat) : partnersServer.respond limit unusableAge =
    Server.settle (some <$>
      partnersServer.updateRow "users" "u1" (.obj [("age", .str "old")])) := by
  have hpath : Route.ofPath? unusableAge.path = some (.item "users".toList "u1".toList) := by rfl
  have hoperation : Route.operation? (.item "users".toList "u1".toList) unusableAge.method =
      some (.update "users".toList "u1".toList) := rfl
  have hdecode : (Operation.update "users".toList "u1".toList).decode? =
      some (.update "users" "u1") := by rfl
  unfold Server.respond
  rw [hpath]
  dsimp only
  rw [if_neg (by decide)]
  unfold Server.respondTo
  rw [hoperation]
  dsimp only
  rw [hdecode]
  show Server.withBody _ _ = _
  unfold Server.withBody
  rw [readBody_unusableAge]

/-- the row that the update asks for -/
def storedAge : List Reply :=
  [Partner.oneRow Partner.usersEntity [("age", .int 30), ("id", .text "u1")]]

/-- the answer to the update -/
def ageRefusal : Response := .ofError (.badRequest (.unexpectedValue .integer (.str "old")))

theorem blames_ageRefusal : ageRefusal.BlamesCaller :=
  ⟨"bad_request", by simp [callerCodes], Response.errorCode?_ofError _⟩

theorem run_unusableAge (limit : Nat) : ∃ plan,
    (partnersServer.respond limit unusableAge).run Partner.scripted storedAge =
      (some ageRefusal, [.executed (.select Partner.partnersSchema plan)], []) := by
  rw [respond_unusableAge]
  exact ⟨_, rfl⟩

theorem unusable_age_blamed_late : ∃ log,
    (partnersServer.respond 0 unusableAge).run Partner.scripted storedAge =
      (some ageRefusal, log, []) ∧
    partnersServer.BlamesLate unusableAge ageRefusal Partner.scripted storedAge [] log := by
  obtain ⟨plan, hrun⟩ := run_unusableAge 0
  rcases caller_errors_in_time accepted_partnersServer hrun blames_ageRefusal with hno | hlate
  · cases hno
  · exact ⟨_, hrun, hlate⟩

theorem unusable_age_refused_after_read : ∃ plan,
    (partnersServer.respond 0 unusableAge).run Partner.scripted storedAge =
      (some ageRefusal, [.executed (.select Partner.partnersSchema plan)], []) ∧
    ageRefusal.errorCode? = some "bad_request" := by
  obtain ⟨plan, hrun⟩ := run_unusableAge 0
  exact ⟨plan, hrun, Response.errorCode?_ofError _⟩

end EntityAccess.Http
