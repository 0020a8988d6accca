import EntityAccess.Proofs.Exchanges
import EntityAccess.Proofs.Partner.Rules
import EntityAccess.Proofs.Repository.Fetch
import EntityAccess.Proofs.Repository.Refusals

/-!
# the rows of relationships

Relationships between columns of text are loaded for many records at once.  Every record has its own
rows then: those of the answer with its text in the other column, in the order of the answer.  What
a record has is specified by all answered rows, one by one; every text is asked for once.

* `rowText` : a text in a column;
* `Relationship.texts`, `Relationship.ownRows`, `Relationship.relatedOf` : which texts are asked
  for, and what belongs to a record;
* `firstOfEach_eq_eraseDups` : every text once, at its first place;
* `Repository.asked`, `loadOne_eq_ok` : one relationship, what is asked for it and what it loads;
* `loadAll_eq_ok` : one relationship after the other;
* `related_rows_exact` : all relationships of a load plan.
-/

namespace EntityAccess

open EntityAccess.Action Outcome
open Program (Store)

/-! ### texts and own rows -/

/-- the text in a column of a row -/
def rowText (row : Row) (column : String) : Option String := (row.get? column).bind Json.str?

namespace Relationship

/-- the texts by which records find their rows; a record without one finds none -/
def texts (rel : Relationship) (records : List Record) : List String :=
  records.filterMap fun record => rowText record.values rel.localColumn

/-- the rows that belong to a record: those with its text -/
def ownRows (rel : Relationship) (rows : List Row) (record : Record) : List Row :=
  match rowText record.values rel.localColumn with
  | some text => rows.filter fun row => rowText row rel.remoteColumn = some text
  | none => []

/-- all of them, or the first -/
def relatedOf (rel : Relationship) (rows : List Row) (record : Record) : Related :=
  match rel.kind with
  | .manyToOne => .one (rel.ownRows rows record).head?
  | .oneToMany => .many (rel.ownRows rows record)

/-- the keys of a relationship are texts: in the target by the type of its column, and in records by
their values, which can also be null -/
structure TextKeys (rel : Relationship) (target : Entity) (records : List Record) : Prop where
  remote : target.columnType rel.remoteColumn = .text
  locals : ∀ record ∈ records, ∀ v, record.get? rel.localColumn = some v →
    v = .null ∨ ∃ text, v = .str text

variable {rel : Relationship} {target : Entity} {records : List Record} {record : Record}

theorem TextKeys.localKey (h : rel.TextKeys target records) (hmem : record ∈ records) :
    record.localKey rel = (rowText record.values rel.localColumn).map .str := by
  unfold Record.localKey rowText
  have hlocal := h.locals record hmem
  unfold Record.get? at hlocal ⊢
  cases hv : record.values.get? rel.localColumn with
  | none => rfl
  | some v =>
    obtain rfl | ⟨text, rfl⟩ := hlocal v hv
    · rfl
    · rfl

end Relationship

theorem firstOfEach_eq_eraseDups (seen texts : List String) :
    firstOfEach id seen texts = (texts.filter fun text => !seen.contains text).eraseDups := by
  induction texts generalizing seen with
  | nil => rfl
  | cons text texts ih =>
    by_cases hseen : text ∈ seen
    · rw [firstOfEach_cons_of_mem hseen, ih, List.filter_cons_of_neg (by simpa using hseen)]
    · rw [firstOfEach_cons hseen, ih, List.filter_cons_of_pos (by simpa using hseen),
        List.eraseDups_cons, List.filter_filter]
      congr 2
      refine List.filter_congr fun other _ => ?_
      rw [List.contains_cons, Bool.not_or]
      rfl

/-! ### one relationship -/

namespace Relationship

variable {rel : Relationship} {target : Entity} {records : List Record} {record : Record}
  {rows : List Row}

/-- every text is asked for once, in the order of the first records that have it -/
theorem TextKeys.keyValues (h : rel.TextKeys target records) :
    keyValues rel target records = .ok ((rel.texts records).eraseDups.map .text) := by
  have hlocal : records.filterMap (·.localKey rel) = (rel.texts records).map .str := by
    unfold texts
    rw [List.map_filterMap]
    exact List.filterMap_congr fun record hrecord => h.localKey hrecord
  have hkeys : keysOf rel records = (rel.texts records).eraseDups.map .str := by
    unfold keysOf
    rw [hlocal, Repository.firstOfEach_map]
    have hfirst : firstOfEach id [] (rel.texts records) = (rel.texts records).eraseDups :=
      (firstOfEach_eq_eraseDups [] _).trans
        (congrArg List.eraseDups (List.filter_eq_self.2 fun _ _ => rfl))
    exact congrArg (List.map Json.str) hfirst
  unfold EntityAccess.keyValues
  rw [hkeys, h.remote]
  clear hkeys hlocal h
  induction (rel.texts records).eraseDups with
  | nil => rfl
  | cons text texts ih =>
    rw [List.map_cons, List.mapM_cons, ih]
    rfl

/-- rows with a text in the other column are matched by their texts -/
theorem TextKeys.attach (h : rel.TextKeys target records) (hmem : record ∈ records)
    (hrows : ∀ row ∈ rows, ∃ text, rowText row rel.remoteColumn = some text) (name : String) :
    record.attach name rel rows = record.withRelated name (rel.relatedOf rows record) := by
  have hown : matching rel rows record = rel.ownRows rows record := by
    unfold matching ownRows
    rw [h.localKey hmem]
    cases rowText record.values rel.localColumn with
    | none => rfl
    | some text =>
      refine List.filter_congr fun row hrow => ?_
      -- keys are compared by their plain text, which is the text itself here
      obtain ⟨other, hother⟩ := hrows row hrow
      obtain ⟨v, hv, hstr⟩ := Option.bind_eq_some_iff.1 hother
      obtain rfl : v = .str other := by
        cases v with
        | str s => exact congrArg Json.str (Option.some.inj hstr)
        | _ => cases hstr
      have hremote : remoteKey rel row = other := by
        unfold remoteKey
        rw [hv]
        rfl
      refine decide_eq_decide.2 ?_
      rw [hremote, hother, Option.some.injEq]
      rfl
  unfold Record.attach
  rw [hown]
  rfl

end Relationship

/-- a question for related rows is answered with rows that have one of the texts asked for -/
def AnswersAsked (asked : Statement × Reply) : Prop :=
  ∀ target column keys, asked.1 = .related target column keys →
    ∃ rs rows, asked.2 = .ok rs ∧ rs.readRows target = .ok rows ∧
      ∀ row ∈ rows, ∃ text, .text text ∈ keys ∧ rowText row column = some text

namespace Repository

variable {r : Repository} {records : List Record} {σ : Type} {store : Store σ} {s : σ}

/-- what is asked for a relationship of records, and the answer; nothing if they have no text -/
def asked (r : Repository) (records : List Record) (name : String) (rs : ResultSet) :
    List (Statement × Reply) :=
  match r.relation name with
  | .ok (rel, target) =>
    if (rel.texts records).isEmpty then []
    else [(.related target rel.remoteColumn ((rel.texts records).eraseDups.map .text), .ok rs)]
  | .error _ => []

/-- the rows that have been answered; none, if nothing has been asked -/
structure Found (rel : Relationship) (target : Entity) (records : List Record) (rs : ResultSet)
    (rows : List Row) : Prop where
  unasked : rel.texts records = [] → rows = []
  asked : rel.texts records ≠ [] → rs.readRows target = .ok rows

theorem loadOne_eq_ok {name : String} {rel : Relationship} {target : Entity}
    (hrel : r.relation name = .ok (rel, target)) (hkeys : rel.TextKeys target records)
    (hanswers : ∀ asked ∈ (r.loadOne records name).exchangesOn store s, AnswersAsked asked) :
    ∃ rs rows, Found rel target records rs rows ∧
      (r.loadOne records name).exchangesOn store s = r.asked records name rs ∧
      ∃ log s', (r.loadOne records name).runOn store s = (.ok (records.map fun record =>
        record.withRelated name (rel.relatedOf rows record)), log, s') := by
  have hload : r.loadOne records name = (do
      let rows ← relatedRows target rel.remoteColumn ((rel.texts records).eraseDups.map .text)
      return records.map (·.attach name rel rows)) := loadOne_of_keys hrel hkeys.keyValues
  have hattach : ∀ rows : List Row,
      (∀ row ∈ rows, ∃ text, rowText row rel.remoteColumn = some text) →
        records.map (·.attach name rel rows) =
          records.map fun record => record.withRelated name (rel.relatedOf rows record) :=
    fun rows hrows => List.map_congr_left fun record hrecord => hkeys.attach hrecord hrows name
  rw [hload] at hanswers ⊢
  unfold asked
  rw [hrel]
  dsimp only
  cases htexts : rel.texts records with
  | nil =>
    refine ⟨.empty, [], ⟨fun _ => rfl, fun h => absurd htexts h⟩, rfl, [], s, ?_⟩
    rw [← hattach [] (List.forall_mem_nil _)]
    rfl
  | cons text texts =>
    rw [htexts] at hanswers
    have hquery : relatedRows target rel.remoteColumn
        ((text :: texts).eraseDups.map .text) =
          Action.query (.related target rel.remoteColumn ((text :: texts).eraseDups.map .text))
            (ResultSet.readRows target) := by
      rw [List.eraseDups_cons]
      rfl
    rw [hquery] at hanswers ⊢
    obtain ⟨rs, rows, hreply, hread, hrows⟩ :=
      hanswers _ (mem_exchangesOn_bind_of_first _ List.mem_cons_self) _ _ _ rfl
    have hrun := runOn_query_ok hreply hread
    have hloaded := runOn_bind_ok (fun rows => pure (records.map (·.attach name rel rows))) hrun
    rw [runOn_pure, hattach rows fun row hrow => ?_] at hloaded
    · refine ⟨rs, rows, ⟨fun h => ?_, fun _ => hread⟩, ?_, _, _, hloaded⟩
      · rw [htexts] at h
        cases h
      · rw [exchangesOn_bind_ok _ hrun, exchangesOn_query]
        dsimp only at hreply
        rw [hreply]
        rfl
    · obtain ⟨text, _, htext⟩ := hrows row hrow
      exact ⟨text, htext⟩

/-! ### one relationship after the other -/

/-- what loading relationships of records makes of them: with its own rows in each relationship, and
nothing else changed -/
structure Loaded (r : Repository) (records : List Record) (names : List String)
    (answer : String → ResultSet) (rows : String → List Row) (loaded : Record → Record) : Prop where
  found : ∀ name ∈ names, ∀ rel target, r.relation name = .ok (rel, target) →
    Found rel target records (answer name) (rows name)
  inside : ∀ name ∈ names, ∀ rel target, r.relation name = .ok (rel, target) →
    ∀ record ∈ records, (loaded record).related name = .ok (rel.relatedOf (rows name) record)
  outside : ∀ name ∉ names, ∀ record, (loaded record).related name = record.related name
  values : ∀ record, (loaded record).values = record.values

theorem loadAll_eq_ok {names : List String} (hnd : names.Nodup)
    (hkeys : ∀ name ∈ names, ∃ rel target, r.relation name = .ok (rel, target) ∧
      rel.TextKeys target records)
    (hanswers : ∀ asked ∈ (names.foldlM r.loadOne records).exchangesOn store s,
      AnswersAsked asked) :
    ∃ answer rows loaded, r.Loaded records names answer rows loaded ∧
      (names.foldlM r.loadOne records).exchangesOn store s =
        names.flatMap (fun name => r.asked records name (answer name)) ∧
      ∃ log s', (names.foldlM r.loadOne records).runOn store s =
        (.ok (records.map loaded), log, s') := by
  induction names generalizing records s with
  | nil =>
    refine ⟨fun _ => .empty, fun _ => [], id, ⟨nofun, nofun, fun _ _ _ => rfl, fun _ => rfl⟩, rfl,
      [], s, ?_⟩
    rw [List.map_id]
    rfl
  | cons first names ih =>
    obtain ⟨hfirst, hnd⟩ := List.nodup_cons.1 hnd
    obtain ⟨rel, target, hrel, htext⟩ := hkeys first List.mem_cons_self
    rw [List.foldlM_cons] at hanswers ⊢
    obtain ⟨rs, own, hfound, hasked, log, s', hrun⟩ := loadOne_eq_ok hrel htext
      fun asked h => hanswers asked (mem_exchangesOn_bind_of_first _ h)
    rw [exchangesOn_bind_ok _ hrun] at hanswers ⊢
    let load (record : Record) : Record := record.withRelated first (rel.relatedOf own record)
    -- the other relationships find what they have found before
    have htexts : ∀ rel : Relationship, rel.texts (records.map load) = rel.texts records := by
      intro rel
      unfold Relationship.texts
      rw [List.filterMap_map]
      rfl
    have hagain : ∀ name rs, r.asked (records.map load) name rs = r.asked records name rs := by
      intro name rs
      unfold asked
      simp only [htexts]
    obtain ⟨answer, rows, loaded, hloaded, hexchanges, log', s'', hrest⟩ := ih hnd
      (fun name hname => by
        obtain ⟨rel, target, hrel, hremote, hlocals⟩ := hkeys name (List.mem_cons_of_mem _ hname)
        refine ⟨rel, target, hrel, hremote, fun record hrecord => ?_⟩
        obtain ⟨old, hold, rfl⟩ := List.mem_map.1 hrecord
        exact hlocals old hold)
      fun asked h => hanswers asked (List.mem_append_right _ h)
    have hne : ∀ name ∈ names, name ≠ first := fun name hname h => hfirst (h ▸ hname)
    refine ⟨Function.update answer first rs, Function.update rows first own,
      fun record => loaded (load record), ⟨?_, ?_, ?_, ?_⟩, ?_, ?_⟩
    · intro name hname rel' target' hrel'
      rcases List.mem_cons.1 hname with rfl | hname
      · obtain ⟨rfl, rfl⟩ := Prod.mk.inj (Except.ok.inj (hrel.symm.trans hrel'))
        rw [Function.update_self, Function.update_self]
        exact hfound
      · rw [Function.update_of_ne (hne name hname), Function.update_of_ne (hne name hname)]
        obtain ⟨hunasked, hasked⟩ := hloaded.found name hname rel' target' hrel'
        rw [htexts] at hunasked hasked
        exact ⟨hunasked, hasked⟩
    · intro name hname rel' target' hrel' record hrecord
      rcases List.mem_cons.1 hname with rfl | hname
      · obtain ⟨rfl, rfl⟩ := Prod.mk.inj (Except.ok.inj (hrel.symm.trans hrel'))
        rw [Function.update_self, hloaded.outside name hfirst]
        exact Record.related_withRelated_self _ _ _
      · rw [Function.update_of_ne (hne name hname)]
        exact hloaded.inside name hname rel' target' hrel' _ (List.mem_map_of_mem hrecord)
    · intro name hname record
      obtain ⟨hself, hname⟩ := not_or.1 (mt List.mem_cons.2 hname)
      rw [hloaded.outside name hname]
      exact Record.related_withRelated_ne _ _ (Ne.symm hself)
    · exact fun record => hloaded.values (load record)
    · rw [hasked, hexchanges, List.flatMap_cons, Function.update_self]
      refine congrArg _ (List.flatMap_congr fun name hname => ?_)
      rw [Function.update_of_ne (hne name hname)]
      exact hagain name _
    · have hall := runOn_bind_ok (fun found => names.foldlM r.loadOne found) hrun
      rw [hrest, List.map_map] at hall
      exact ⟨_, _, hall⟩

/-! ### all relationships of a load plan -/

theorem asked_nil (r : Repository) (name : String) (rs : ResultSet) : r.asked [] name rs = [] := by
  unfold asked
  split <;> rfl

theorem length_asked_le (r : Repository) (records : List Record) (name : String) (rs : ResultSet) :
    (r.asked records name rs).length ≤ 1 := by
  unfold asked
  split
  · split
    · exact Nat.zero_le 1
    · exact Nat.le_refl 1
  · exact Nat.zero_le 1

/-- at most one statement for each relationship -/
theorem length_flatMap_asked_le (r : Repository) (records : List Record)
    (answer : String → ResultSet) (names : List String) :
    (names.flatMap fun name => r.asked records name (answer name)).length ≤ names.length := by
  induction names with
  | nil => exact Nat.le_refl 0
  | cons name names ih =>
    rw [List.flatMap_cons, List.length_append, List.length_cons, Nat.add_comm]
    exact Nat.add_le_add ih (length_asked_le r records name (answer name))

/-- relationships between texts are loaded with one statement for each of them at most, which asks
for every text once, and every record has its own rows of the answer -/
theorem related_rows_exact {d : Document} (hd : d.resolve = .ok r.schema)
    (he : r.entity ∈ r.schema.entities) {load : LoadPlan} (hload : load.Of r.entity)
    (hkeys : ∀ name ∈ load.names, ∀ rel target, r.relation name = .ok (rel, target) →
      rel.TextKeys target records)
    (hanswers : ∀ asked ∈ (r.loadRelated records load).exchangesOn store s, AnswersAsked asked) :
    ∃ (answer : String → ResultSet) (rows : String → List Row) (loaded : Record → Record),
      ((r.loadRelated records load).runOn store s).1 = .ok (records.map loaded) ∧
      (r.loadRelated records load).exchangesOn store s =
        load.names.flatMap (fun name => r.asked records name (answer name)) ∧
      ((r.loadRelated records load).exchangesOn store s).length ≤ load.names.length ∧
      (∀ name ∈ load.names, ∃ rel target, r.relation name = .ok (rel, target) ∧
        Found rel target records (answer name) (rows name) ∧
        ∀ record ∈ records,
          (loaded record).related name = .ok (rel.relatedOf (rows name) record)) ∧
      ∀ record ∈ records, (loaded record).values = record.values ∧
        ∀ name ∉ load.names, (loaded record).related name = record.related name ∧
          (record.loaded = .empty → (loaded record).related name = .error (.notLoaded name)) := by
  have hdeclared : ∀ name ∈ load.names, ∃ rel target, r.relation name = .ok (rel, target) := by
    intro name hname
    obtain ⟨rel, _, target, _, hrel⟩ :=
      exists_declared (Document.wellFormed_of_resolve hd) he (hload name hname)
    exact ⟨rel, target, hrel⟩
  obtain ⟨answer, rows, loaded, hloaded, hexchanges, hrun⟩ : ∃ answer rows loaded,
      r.Loaded records load.names answer rows loaded ∧
      (r.loadRelated records load).exchangesOn store s =
        load.names.flatMap (fun name => r.asked records name (answer name)) ∧
      ((r.loadRelated records load).runOn store s).1 = .ok (records.map loaded) := by
    cases records with
    | nil =>
      refine ⟨fun _ => .empty, fun _ => [], id, ⟨fun _ _ _ _ _ => ⟨fun _ => rfl, ?_⟩, ?_,
        fun _ _ _ => rfl, fun _ => rfl⟩, ?_, rfl⟩
      · exact fun h => absurd rfl h
      · exact fun _ _ _ _ _ _ h => absurd h List.not_mem_nil
      · exact (List.flatMap_eq_nil_iff.2 fun name _ => asked_nil r name .empty).symm
    | cons record records =>
      have hall : r.loadRelated (record :: records) load =
          load.names.foldlM r.loadOne (record :: records) := rfl
      rw [hall] at hanswers ⊢
      have hnames : ∀ name ∈ load.names, ∃ rel target, r.relation name = .ok (rel, target) ∧
          rel.TextKeys target (record :: records) := fun name hname => by
        obtain ⟨rel, target, hrel⟩ := hdeclared name hname
        exact ⟨rel, target, hrel, hkeys name hname rel target hrel⟩
      obtain ⟨answer, rows, loaded, hloaded, hexchanges, _, _, hrun⟩ :=
        loadAll_eq_ok load.relations.nodup_keys hnames hanswers
      exact ⟨answer, rows, loaded, hloaded, hexchanges, congrArg Prod.fst hrun⟩
  refine ⟨answer, rows, loaded, hrun, hexchanges, ?_, fun name hname => ?_, fun record _ =>
    ⟨hloaded.values record, fun name hname => ?_⟩⟩
  · rw [hexchanges]
    exact length_flatMap_asked_le r records answer load.names
  · obtain ⟨rel, target, hrel⟩ := hdeclared name hname
    exact ⟨rel, target, hrel, hloaded.found name hname rel target hrel,
      hloaded.inside name hname rel target hrel⟩
  · have houtside := hloaded.outside name hname record
    refine ⟨houtside, fun hfresh => houtside.trans ?_⟩
    unfold Record.related
    rw [hfresh]
    rfl

/-! ### the tasks of users -/

def users : Repository := .plain tasksSchema usersEntity

/-- a user of that primary key -/
def user (id : String) : Record := .ofRow (Dict.ofList [("id", .str id)])

/-- two users, one of them twice, and a row without a primary key -/
def someUsers : List Record := [user "u2", user "u1", user "u2", .ofRow .empty]

def taskRow (id owner : String) : Row := Dict.ofList [("id", .str id), ("owner_id", .str owner)]

def threeTasks : ResultSet :=
  ⟨Dict.ofList [("id", "text"), ("owner_id", "text")],
    [("t1", "u1"), ("t2", "u2"), ("t3", "u1")].map fun (id, owner) =>
      Dict.ofList [("id", .text id), ("owner_id", .text owner)]⟩

theorem textKeys_someUsers : tasksOfOwner.TextKeys tasksEntity someUsers where
  remote := rfl
  locals record hrecord v hv := by
    have hall : ∀ record ∈ someUsers, record.get? "id" = none ∨
        ∃ text, record.get? "id" = some (.str text) := by
      simp only [someUsers, List.forall_mem_cons, List.not_mem_nil, false_imp_iff, implies_true,
        and_true]
      exact ⟨.inr ⟨_, rfl⟩, .inr ⟨_, rfl⟩, .inr ⟨_, rfl⟩, .inl rfl⟩
    rcases hall record hrecord with hnone | ⟨text, hsome⟩
    · cases hnone.symm.trans hv
    · exact .inr ⟨text, Option.some.inj (hv.symm.trans hsome)⟩

/-- both users are asked for once, and the tasks go to their owners -/
theorem tasks_of_someUsers :
    tasksDocument.resolve = .ok users.schema ∧ users.entity ∈ users.schema.entities ∧
    LoadPlan.Of users.entity (.ofNames ["tasks"]) ∧
    tasksOfOwner.TextKeys tasksEntity someUsers ∧
    (users.loadRelated someUsers (.ofNames ["tasks"])).exchangesOn Partner.scripted
      [.ok threeTasks] =
        [(.related tasksEntity "owner_id" [.text "u2", .text "u1"], .ok threeTasks)] ∧
    ∃ loaded : Record → Record,
      ((users.loadRelated someUsers (.ofNames ["tasks"])).runOn Partner.scripted
        [.ok threeTasks]).1 = .ok (someUsers.map loaded) ∧
      (loaded (user "u1")).related "tasks" =
        .ok (.many [taskRow "t1" "u1", taskRow "t3" "u1"]) ∧
      (loaded (user "u2")).related "tasks" = .ok (.many [taskRow "t2" "u2"]) ∧
      (loaded (.ofRow .empty)).related "tasks" = .ok (.many []) ∧
      (loaded (user "u1")).related "owner" = .error (.notLoaded "owner") := by
  have hmem : users.entity ∈ users.schema.entities := List.mem_cons_of_mem _ List.mem_cons_self
  have hnames : (LoadPlan.ofNames ["tasks"]).names = ["tasks"] := rfl
  have hrel : users.relation "tasks" = .ok (tasksOfOwner, tasksEntity) := rfl
  have hload : LoadPlan.Of users.entity (.ofNames ["tasks"]) := .singleton rfl
  have hexchanges : (users.loadRelated someUsers (.ofNames ["tasks"])).exchangesOn Partner.scripted
      [.ok threeTasks] =
        [(.related tasksEntity "owner_id" [.text "u2", .text "u1"], .ok threeTasks)] := rfl
  have hanswers : ∀ asked ∈ (users.loadRelated someUsers (.ofNames ["tasks"])).exchangesOn
      Partner.scripted [.ok threeTasks], AnswersAsked asked := by
    intro asked h
    rw [hexchanges] at h
    obtain rfl := List.mem_singleton.1 h
    rintro target column keys ⟨⟩
    refine ⟨threeTasks, [taskRow "t1" "u1", taskRow "t2" "u2", taskRow "t3" "u1"], rfl, rfl, ?_⟩
    simp only [List.forall_mem_cons, List.not_mem_nil, false_imp_iff, implies_true, and_true]
    exact ⟨⟨"u1", by simp, rfl⟩, ⟨"u2", by simp, rfl⟩, ⟨"u1", by simp, rfl⟩⟩
  obtain ⟨answer, rows, loaded, hrun, hasked, _, hinside, houtside⟩ :=
    related_rows_exact resolve_tasksDocument hmem hload
      (fun name hname rel target h => by
        obtain rfl := List.mem_singleton.1 (hnames ▸ hname)
        obtain ⟨rfl, rfl⟩ := Prod.mk.inj (Except.ok.inj (hrel.symm.trans h))
        exact textKeys_someUsers)
      hanswers
  obtain ⟨rel, target, h, hfound, hrelated⟩ := hinside "tasks" (hnames ▸ List.mem_cons_self)
  obtain ⟨rfl, rfl⟩ := Prod.mk.inj (Except.ok.inj (hrel.symm.trans h))
  have hanswer : threeTasks = answer "tasks" := by
    rw [hexchanges] at hasked
    exact Except.ok.inj (congrArg Prod.snd (List.head_eq_of_cons_eq hasked))
  have hread : ResultSet.readRows tasksEntity threeTasks = .ok (rows "tasks") := by
    rw [hanswer]
    exact hfound.asked (List.cons_ne_nil _ _)
  have hrows := Except.ok.inj hread
  have hall : ∀ record ∈ someUsers, (loaded record).related "tasks" = .ok (tasksOfOwner.relatedOf
      [taskRow "t1" "u1", taskRow "t2" "u2", taskRow "t3" "u1"] record) := by
    intro record hrecord
    rw [hrelated record hrecord, ← hrows]
    rfl
  have hu2 : user "u2" ∈ someUsers := List.mem_cons_self
  have hu1 : user "u1" ∈ someUsers := List.mem_cons_of_mem _ List.mem_cons_self
  have hnobody : Record.ofRow .empty ∈ someUsers := by simp [someUsers]
  have howner : "owner" ∉ (LoadPlan.ofNames ["tasks"]).names := by
    rw [hnames]
    decide
  exact ⟨resolve_tasksDocument, hmem, hload, textKeys_someUsers, hexchanges, loaded, hrun,
    hall _ hu1, hall _ hu2, hall _ hnobody, ((houtside _ hu1).2 "owner" howner).2 rfl⟩

end Repository
end EntityAccess
