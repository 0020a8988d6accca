import EntityAccess.Proofs.Http.Listings
import EntityAccess.Proofs.Repository.RecordFields

/-!
# included relationships

A query names relationships to include.  A listing by pages refuses a name that is none of the
entity, and loads the others; a search refuses it too, but loads none of them; an export does not
look at them.

* `field?_toJson` : the relationships that a row shows are those that its record has loaded;
* `ofFields_filter` : a query without what it includes;
* `runOn_listPage_unknown` : a name that is refused;
* `includes_by_pages_alone` : what becomes of included names, for all listings;
* `included_owner_missing` : a search that leaves out what it is to include, and an export that
  answers whatever it is to include.
-/

namespace EntityAccess

open EntityAccess.Action Outcome
open Program (Store)

/-! ### rows -/

/-- a row shows a relationship just if it has been loaded, as no column has its name -/
theorem Record.Loads.field?_toJson {d : Document} {schema : Schema} (hd : d.resolve = .ok schema)
    {e : Entity} (he : e ∈ schema.entities) {load : LoadPlan} {record : Record}
    (h : record.Loads e load) {rel : Relationship} (hrel : rel ∈ e.relationships) :
    (record.toJson.field? rel.name).isSome = true ↔ load.contains rel.name = true := by
  have hfields : (record.toJson.field? rel.name).isSome = true ↔
      rel.name ∈ record.loaded.keys ∨ record.values.contains rel.name = true :=
    Dict.contains_foldl_insert
  have hno : ¬ record.values.contains rel.name = true := fun hcontains =>
    h.read.relationship_not_mem hd he hrel (Dict.contains_iff.1 hcontains)
  rw [hfields, or_iff_left hno, ← Dict.contains_iff]
  exact h.loaded rel.name

namespace Http

/-! ### queries -/

namespace ListQuery

/-- no other field looks at what is included -/
theorem Draft.add_includes (d : Draft) (names : List String) {field : String × String}
    (h : field.1 ≠ "include") : ({ d with includes := names } : Draft).add field =
      (d.add field).map fun d' => { d' with includes := names } := by
  obtain ⟨key, value⟩ := field
  unfold add
  dsimp only
  split
  · cases readCount "page" value <;> rfl
  · cases readCount "per_page" value <;> rfl
  · cases readSortList value <;> rfl
  · exact absurd rfl h
  · rfl
  · rfl
  · cases readFlag "by_relevance" value <;> rfl
  · cases readFlag "export" value <;> rfl
  · rfl

/-- fields without those that include something -/
theorem foldlM_filter {fields : List (String × String)} {d d' : Draft} (names : List String)
    (h : fields.foldlM Draft.add d = .ok d') :
    (fields.filter fun f => f.1 ≠ "include").foldlM Draft.add { d with includes := names } =
      .ok { d' with includes := names } := by
  induction fields generalizing d with
  | nil =>
    obtain rfl : d = d' := Except.ok.inj h
    rfl
  | cons field fields ih =>
    rw [List.foldlM_cons] at h
    obtain ⟨mid, hmid, hrest⟩ := bind_eq_ok.1 h
    by_cases hfield : field.1 = "include"
    · rw [List.filter_cons_of_neg (by simp [hfield])]
      obtain ⟨key, value⟩ := field
      obtain rfl : key = "include" := hfield
      obtain rfl := Except.ok.inj hmid
      have hfiltered := ih hrest
      exact hfiltered
    · rw [List.filter_cons_of_pos (by simp [hfield]), List.foldlM_cons,
        Draft.add_includes d names hfield, hmid]
      exact ih hrest

/-- a query without what it includes -/
theorem ofFields_filter {fields : List (String × String)} {n : Nat} {q : ListQuery}
    (h : ofFields fields n = .ok q) :
    ofFields (fields.filter fun f => f.1 ≠ "include") n = .ok { q with includes := [] } := by
  obtain ⟨d, hd, h⟩ := bind_eq_ok.1 h
  obtain ⟨page, hpage, h⟩ := bind_eq_ok.1 h
  obtain rfl := Except.ok.inj h
  exact bind_eq_ok.2 ⟨_, foldlM_filter [] hd, bind_eq_ok.2 ⟨page, hpage, rfl⟩⟩

theorem mem_loadedIncludes {q : ListQuery} {name : String} : name ∈ q.loadedIncludes ↔
    q.isExport = false ∧ q.search = none ∧ name ∈ q.includes := by
  unfold loadedIncludes
  split
  · next h =>
    refine iff_of_false List.not_mem_nil fun ⟨hpaged, hplain, _⟩ => ?_
    rw [hpaged, hplain] at h
    simp at h
  · next h =>
    rw [not_or, Bool.not_eq_true, Option.not_isSome_iff_eq_none] at h
    exact ⟨fun hname => ⟨h.1, h.2, hname⟩, fun ⟨_, _, hname⟩ => hname⟩

end ListQuery

/-! ### answers -/

variable {server : Server} {name : String} {r : Repository} {fields : List (String × String)}
  {q : ListQuery} {limit : Nat} {σ : Type} {store : Store σ} {s s' : σ} {log : List Event}

/-- a name that is none of a relationship is refused, unless the plan is refused first -/
theorem runOn_listPage_unknown (hr : r.Served) {unknown : String}
    (h : q.includes.find? (fun name => !r.entity.isRelationship name) = some unknown) :
    (Server.listPage r q).runOn store s =
      ((planOf r.schema r.entity q.filters q.sort .paged).bind fun _ =>
        .error (.noSuchRelationship unknown r.entity.name), [], s) := by
  unfold Server.listPage
  rw [Repository.compile_eq hr.hooks, runOn_liftM_bind]
  cases planOf r.schema r.entity q.filters q.sort .paged with
  | error e => rfl
  | ok plan =>
    dsimp only
    rw [Repository.resolveLoadPlan_eq hr.hooks, runOn_liftM_bind, Entity.includeAll_error h]
    rfl

/-- what is answered, whichever way -/
theorem answers_of_listRows (hs : server.Accepted) (hr : server.repository name = .ok r)
    (hq : ListQuery.ofFields fields server.settings.defaultPerPage = .ok q) {a : Response}
    (h : (server.listRows limit name fields).runOn store s = (.ok (some a), log, s')) :
    q.Answers r a := by
  obtain ⟨hserved, _⟩ := served_of_repository hs hr
  have hrelated : RelatedPass fun _ => True := fun _ _ _ _ _ => trivial
  rw [listRows_eq hr hq] at h
  split at h
  · next hexport =>
    exact (issues_exportRows hserved hrelated hexport fun _ _ _ _ _ _ => trivial).of_runOn h a rfl
  · next hpaged =>
    have hpage := issues_listPage hserved hrelated (Bool.eq_false_iff.2 hpaged) fun _ _ _ _ =>
      ⟨trivial, trivial⟩
    obtain ⟨a', first, mid, rest, ha, hpure, _⟩ := of_runOn_bind h
    obtain rfl := Option.some.inj (of_runOn_pure hpure).1
    exact hpage.of_runOn ha

/-- included relationships are loaded by listings by pages alone: a search checks their names, and
an export does not even do that -/
theorem includes_by_pages_alone (hs : server.Accepted) (hr : server.repository name = .ok r)
    (hq : ListQuery.ofFields fields server.settings.defaultPerPage = .ok q)
    {result : Except Error (Option Response)}
    (h : (server.listRows limit name fields).runOn store s = (result, log, s')) :
    (q.isExport = false → ∀ unknown,
      q.includes.find? (fun name => !r.entity.isRelationship name) = some unknown →
        let refusal : Error := .noSuchRelationship unknown r.entity.name
        log = [] ∧ (Response.ofError refusal).errorCode? = some "invalid_filter" ∧
          result = (planOf r.schema r.entity q.filters q.sort .paged).bind fun _ =>
            .error refusal) ∧
    (∀ answer, result = .ok (some answer) → ∀ row ∈ answer.rows,
      ∀ rel ∈ r.entity.relationships, (row.field? rel.name).isSome = true ↔
        r.loadPlan.contains rel.name = true ∨
          q.isExport = false ∧ q.search = none ∧ rel.name ∈ q.includes) ∧
    (q.isExport = true → server.listRows limit name fields =
      server.listRows limit name (fields.filter fun f => f.1 ≠ "include")) := by
  refine ⟨fun hpaged unknown hunknown => ?_, fun answer hanswer row hrow rel hrel => ?_,
    fun hexport => ?_⟩
  · obtain ⟨hserved, _⟩ := served_of_repository hs hr
    have hpage : server.listRows limit name fields = some <$> Server.listPage r q := by
      rw [listRows_eq hr hq, hpaged]
      rfl
    rw [hpage, runOn_map, runOn_listPage_unknown hserved hunknown] at h
    obtain ⟨rfl, rfl, _⟩ := h
    refine ⟨rfl, Response.errorCode?_ofError _, ?_⟩
    cases planOf r.schema r.entity q.filters q.sort .paged <;> rfl
  · subst hanswer
    obtain ⟨load, records, hload, hrows, hloads⟩ := answers_of_listRows hs hr hq h
    rw [hrows] at hrow
    obtain ⟨record, hrecord, rfl⟩ := List.mem_map.1 hrow
    obtain ⟨d, hd⟩ := hs.schema
    obtain ⟨e, he, rfl⟩ := of_repository hr
    rw [(hloads record hrecord).field?_toJson hd (List.mem_of_find?_eq_some he) hrel,
      LoadPlan.contains_includeAll hload, ListQuery.mem_loadedIncludes]
  · rw [listRows_eq hr hq, listRows_eq hr (ListQuery.ofFields_filter hq), if_pos hexport,
      if_pos hexport]
    rfl

/-! ### a search and an export that include something -/

/-- a search for a partner, to be answered with its owner -/
def ownedSearch : List (String × String) := [("q", "bolt"), ("include", "owner")]

/-- the partner, and the count of the search -/
def ownedAnswers : List Reply :=
  [.ok ⟨Dict.ofList [("count", "bigint")], [Dict.ofList [("count", .int 1)]]⟩,
    Partner.oneRow Partner.partnersEntity
      [("id", .text "p1"), ("name", .text "Bolt"), ("owner_id", .text "u1")]]

/-- what is to be included is not there -/
def unknownInclude : List (String × String) := [("include", "nope")]

theorem run_ownedSearch : ∃ (counted selected : SelectPlan) (row : Json),
    (partnersServer.listRows 2 Partner.partnersName ownedSearch).runOn Partner.scripted
        ownedAnswers =
      (.ok (some (.page ⟨[row], 1, 1, -1, 1⟩)),
        [.executed (.count Partner.partnersSchema counted),
          .executed (.select Partner.partnersSchema selected)], []) ∧
      row.field? "owner_id" = some (.str "u1") ∧ row.field? "owner" = none :=
  ⟨_, _, _, rfl, rfl, rfl⟩

theorem run_unknownExport : ∃ read : SelectPlan,
    (partnersServer.listRows 2 Partner.partnersName
        (unknownInclude ++ [("export", "true")])).runOn Partner.scripted [] =
      (.ok (some (.many [])), [.executed (.select Partner.partnersSchema read)], []) := by
  have hr : partnersServer.repository Partner.partnersName = .ok Partner.partners := rfl
  have hq := ListQuery.ofFields_export (n := partnersServer.settings.defaultPerPage)
    (show ListQuery.ofFields unknownInclude _ = .ok _ from rfl)
  rw [listRows_eq hr hq]
  exact ⟨_, rfl⟩

/-- the rows of a search show what is loaded anyway, which is nothing -/
theorem searched_partner_alone : ∃ (answer : Response) (row : Json) (log : List Event),
    (partnersServer.listRows 2 Partner.partnersName ownedSearch).runOn Partner.scripted
      ownedAnswers = (.ok (some answer), log, []) ∧ answer.rows = [row] ∧
    ∀ rel ∈ Partner.partnersEntity.relationships, (row.field? rel.name).isSome = false := by
  obtain ⟨counted, selected, row, hrun, _⟩ := run_ownedSearch
  have hr : partnersServer.repository Partner.partnersName = .ok Partner.partners := rfl
  obtain ⟨_, hshown, _⟩ := includes_by_pages_alone accepted_partnersServer hr rfl hrun
  have hrows : (Response.page ⟨[row], 1, 1, -1, 1⟩).rows = [row] := Response.rows_envelope _ _ _
  refine ⟨_, row, _, hrun, hrows, fun rel hrel => ?_⟩
  have hmem : row ∈ (Response.page ⟨[row], 1, 1, -1, 1⟩).rows := by
    rw [hrows]
    exact List.mem_singleton_self row
  have hrow := hshown _ rfl row hmem rel hrel
  refine Bool.eq_false_iff.2 fun hsome => ?_
  rcases hrow.1 hsome with hload | ⟨_, hsearch, _⟩
  · cases hload
  · cases hsearch

/-- a search that is to include the owner answers without it, and an export that is to include what
there is not answers -/
theorem included_owner_missing :
    (∃ (log : List Event) (row : Json), (partnersServer.listRows 2 Partner.partnersName
        ownedSearch).runOn Partner.scripted ownedAnswers =
          (.ok (some (.page ⟨[row], 1, 1, -1, 1⟩)), log, []) ∧
      Partner.partnersEntity.isRelationship "owner" = true ∧
      row.field? "owner_id" = some (.str "u1") ∧ row.field? "owner" = none) ∧
    ∃ log : List Event, (partnersServer.listRows 2 Partner.partnersName
        (unknownInclude ++ [("export", "true")])).runOn Partner.scripted [] =
          (.ok (some (.many [])), log, []) ∧
      Partner.partnersEntity.isRelationship "nope" = false := by
  obtain ⟨counted, selected, row, hsearch, howner, hnone⟩ := run_ownedSearch
  obtain ⟨read, hexport⟩ := run_unknownExport
  exact ⟨⟨_, row, hsearch, rfl, howner, hnone⟩, _, hexport, rfl⟩

end Http
end EntityAccess
