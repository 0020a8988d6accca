import EntityAccess.Proofs.Pages.Folding
import EntityAccess.Proofs.Sql.Results

/-!
# pages as slices

All pages of a plan are slices of one sequence of its roots.  An export has the same roots, but in
the order of their first rows.

* `Engine.Serves` : a store that answers a plan and its windows from its tables;
* `flat_ids`, `page_ids` : the roots of an export and of a page;
* `pages_are_slices` : when the sequence of the pages is that of the export.
-/

namespace EntityAccess

open Engine Sql
open Program (Store)

/-- a store whose answers to a plan and its windows come from tables -/
def Engine.Serves (E : Engine) (schema : Schema) (db : Content) (plan : SelectPlan) {σ : Type}
    (store : Store σ) : Prop :=
  ∀ (limit offset : Option Nat) (s : σ),
    ∃ rs, (store.reply (.select schema (plan.window limit offset)) s).1 = .ok rs ∧
      E.Answer schema db (.ofPlan (plan.window limit offset)) rs

variable {E : Engine} {schema : Schema} {db : Content} {plan : SelectPlan}

/-! ### roots of joined rows -/

theorem root_mem_joinOne {table : List Tuple} {rows : List Joined}
    (h : ∀ row ∈ rows, row.root ∈ table) (j : Join) :
    ∀ row ∈ E.joinOne schema db rows j, row.root ∈ table := by
  intro row hrow
  obtain ⟨before, hbefore, hrow⟩ := List.mem_flatMap.1 hrow
  obtain ⟨_, _, rfl⟩ := List.mem_map.1 hrow
  exact h before hbefore

theorem root_mem_rows {row : Joined} (h : row ∈ E.rows schema db plan) :
    row.root ∈ db (tableOf plan.entity) := by
  have hall : ∀ (joins : List Join) (rows : List Joined),
      (∀ row ∈ rows, row.root ∈ db (tableOf plan.entity)) →
        ∀ row ∈ joins.foldl (E.joinOne schema db) rows, row.root ∈ db (tableOf plan.entity) := by
    intro joins
    induction joins with
    | nil => exact fun _ h => h
    | cons j joins ih => exact fun rows h => ih _ (root_mem_joinOne h j)
  refine hall plan.joins.values _ ?_ row (List.mem_filter.1 h).1
  intro row hrow
  obtain ⟨t, ht, rfl⟩ := List.mem_map.1 hrow
  exact ht

theorem Content.Conforms.cell_key {e : Entity} (hdb : db.Conforms e) {t : Tuple}
    (ht : t ∈ db (tableOf e)) : cell t primaryKey = .text (rootId t) := by
  obtain ⟨id, hid⟩ := hdb.keyed t ht
  unfold rootId
  rw [hid]

theorem Content.Conforms.root_eq {e : Entity} (hdb : db.Conforms e) {t u : Tuple}
    (ht : t ∈ db (tableOf e)) (hu : u ∈ db (tableOf e)) (hid : rootId t = rootId u) : t = u :=
  List.inj_on_of_nodup_map hdb.nodup ht hu hid

theorem Content.Conforms.keyed_rows {e : Entity} (hdb : db.Conforms e) (E : Engine)
    (schema : Schema) {plan : SelectPlan} (hentity : plan.entity = e) :
    Keyed (E.rows schema db plan) where
  text _ hr := hdb.cell_key (hentity ▸ root_mem_rows hr)
  unique _ hr _ hs hid := hdb.root_eq (hentity ▸ root_mem_rows hr) (hentity ▸ root_mem_rows hs) hid

/-- roots are found by their primary keys -/
theorem filterMap_find? {e : Entity} (hdb : db.Conforms e) {roots : List Tuple}
    (h : ∀ t ∈ roots, t ∈ db (tableOf e)) :
    ((roots.map rootId).filterMap fun id => (db (tableOf e)).find? (rootId · = id)) = roots := by
  rw [List.filterMap_map]
  refine .trans (List.filterMap_congr fun t ht => ?_) List.filterMap_some
  exact find?_of_mem rootId hdb.nodup (h t ht)

theorem roots_eq {e : Entity} (hdb : db.Conforms e) {roots roots' : List Tuple}
    (h : ∀ t ∈ roots, t ∈ db (tableOf e)) (h' : ∀ t ∈ roots', t ∈ db (tableOf e))
    (hids : roots.map rootId = roots'.map rootId) : roots = roots' := by
  rw [← filterMap_find? hdb h, ← filterMap_find? hdb h', hids]

/-! ### the roots of answers -/

/-- an export has each root once, in the order of the joined rows -/
theorem flat_ids {roots : List Tuple} (hlimit : plan.limit = none) (hoffset : plan.offset = none)
    (h : E.Flat schema db plan roots) :
    ∃ ordered, E.Ordered (E.rowKeys plan.order) (E.rows schema db plan) ordered ∧
      (∀ t ∈ roots, t ∈ db (tableOf plan.entity)) ∧
      (firstOfEach rootId [] roots).map rootId =
        (firstOfEach Joined.id [] ordered).map Joined.id := by
  obtain ⟨ordered, ho, rfl⟩ := h
  have hcut : cut plan.limit plan.offset ordered = ordered := by
    rw [hlimit, hoffset]
    rfl
  rw [hcut]
  refine ⟨ordered, ho, fun t ht => ?_, ?_⟩
  · obtain ⟨row, hrow, rfl⟩ := List.mem_map.1 ht
    exact root_mem_rows (ho.perm.mem_iff.1 hrow)
  · rw [Repository.firstOfEach_map, List.map_map]
    rfl

/-- the root of a group -/
def groupRoot (group : List Joined) : Tuple := (group.head?.map (·.root)).getD .empty

/-- a group has the primary key and the row of its root -/
theorem groupRoot_spec {e : Entity} (hdb : db.Conforms e) (hentity : plan.entity = e)
    {g : List Joined} (hne : g ≠ []) (hg : ∀ r ∈ g, r ∈ E.rows schema db plan) :
    groupRoot g ∈ db (tableOf e) ∧ rootId (groupRoot g) = groupId g ∧
      E.groupValue g (.shared rootKeyColumn) = .text (groupId g) := by
  obtain ⟨r, g, rfl⟩ := List.exists_cons_of_ne_nil hne
  have hr := hg r List.mem_cons_self
  exact ⟨hentity ▸ root_mem_rows hr, rfl, (hdb.keyed_rows E schema hentity).cell_key hr rfl rfl⟩

/-- each group is matched with its root -/
theorem perm_matchGroups {e : Entity} (hdb : db.Conforms e) {page : List (List Joined)}
    (hnd : (page.map groupId).Nodup)
    (hroot : ∀ g ∈ page, groupRoot g ∈ db (tableOf e) ∧ rootId (groupRoot g) = groupId g ∧
      E.groupValue g (.shared rootKeyColumn) = .text (groupId g)) :
    (E.matchGroups (db (tableOf e)) page).Perm (page.map fun g => (groupRoot g, g)) := by
  have hpage : page.Nodup := .of_map _ hnd
  have htable : (db (tableOf e)).Nodup := .of_map _ hdb.nodup
  have hmatched : (E.matchGroups (db (tableOf e)) page).Nodup := by
    refine List.nodup_flatMap.2 ⟨fun t _ => ?_, htable.imp fun htu => ?_⟩
    · exact (hpage.filter _).map fun g h heq => (Prod.mk.inj heq).2
    · rintro ⟨v, g⟩ ht hu
      obtain ⟨_, _, ht⟩ := List.mem_map.1 ht
      obtain ⟨_, _, hu⟩ := List.mem_map.1 hu
      exact htu ((Prod.mk.inj ht).1.trans (Prod.mk.inj hu).1.symm)
  refine (List.perm_ext_iff_of_nodup hmatched (hpage.map fun g h heq => (Prod.mk.inj heq).2)).2 ?_
  rintro ⟨t, g⟩
  constructor
  · intro h
    obtain ⟨u, hu, h⟩ := List.mem_flatMap.1 h
    obtain ⟨g', hg', heq⟩ := List.mem_map.1 h
    obtain ⟨rfl, rfl⟩ := Prod.mk.inj heq
    obtain ⟨hgp, hequal⟩ := List.mem_filter.1 hg'
    obtain ⟨hmem, hid, hvalue⟩ := hroot g' hgp
    rw [hvalue, hdb.cell_key hu, E.equal_text] at hequal
    rw [← hdb.root_eq hmem hu (hid.trans hequal)]
    exact List.mem_map.2 ⟨g', hgp, rfl⟩
  · intro h
    obtain ⟨g', hgp, heq⟩ := List.mem_map.1 h
    obtain ⟨rfl, rfl⟩ := Prod.mk.inj heq
    obtain ⟨hmem, hid, hvalue⟩ := hroot g' hgp
    refine List.mem_flatMap.2 ⟨_, hmem, List.mem_map.2 ⟨g', List.mem_filter.2 ⟨hgp, ?_⟩, rfl⟩⟩
    rw [hvalue, hdb.cell_key hmem, E.equal_text, hid]

/-- a page has a slice of the roots of its groups -/
theorem page_ids (hdb : db.Conforms plan.entity) (hkey : ∃ t ∈ plan.order, t.IsRootKey)
    {limit offset : Option Nat} {roots : List Tuple}
    (h : E.Page schema db (.ofPlan (plan.window limit offset)) roots) :
    ∃ groups, Grouping (E.Same (PageQuery.ofPlan plan).group) (E.rows schema db plan) groups ∧
      groups.Pairwise (E.Precedes (E.pageKeys plan)) ∧
      (∀ t ∈ roots, t ∈ db (tableOf plan.entity)) ∧
      roots.map rootId = cut limit offset (groups.map groupId) := by
  obtain ⟨groups, pairs, ⟨hg, hsorted⟩, hpairs, rfl⟩ := h
  have hrows := hdb.keyed_rows E schema rfl
  have hsub := cut_sublist limit offset groups
  have hin : ∀ g ∈ groups, g ≠ [] ∧ ∀ r ∈ g, r ∈ E.rows schema db plan :=
    fun g hgm => ⟨hg.inhabited g hgm, fun r hr => mem_of_mem_group hg hgm hr⟩
  have hroot := fun g (hgm : g ∈ cut limit offset groups) =>
    groupRoot_spec hdb rfl (hin g (hsub.subset hgm)).1 (hin g (hsub.subset hgm)).2
  have hnd : (groups.map groupId).Nodup := nodup_groupIds hrows hg
  have hmatch := perm_matchGroups hdb (hnd.sublist (hsub.map _)) hroot
  have hpairs : pairs = (cut limit offset groups).map fun g => (groupRoot g, g) := by
    refine List.Perm.eq_of_pairwise (fun p q hp hq hpq hqp => ?_) hpairs.pairwise
      (List.pairwise_map.2 ((hsorted.sublist hsub).imp fun h => ?_)) (hpairs.perm.trans hmatch)
    · obtain ⟨g, hgm, rfl⟩ := List.mem_map.1 (hmatch.mem_iff.1 (hpairs.perm.mem_iff.1 hp))
      obtain ⟨h, hhm, rfl⟩ := List.mem_map.1 hq
      rw [precedes_map] at hpq hqp
      have hgm := hsub.subset hgm
      have hhm := hsub.subset hhm
      have hid := groupId_eq_of_precedes hrows hkey (hin g hgm).1 (hin h hhm).1 (hin g hgm).2
        (hin h hhm).2 hpq hqp
      rw [List.inj_on_of_nodup_map hnd hgm hhm hid]
    · exact (precedes_map _ _ _ _).2 h
  refine ⟨groups, hg, hsorted, fun t ht => ?_, ?_⟩
  · rw [hpairs, List.map_map] at ht
    obtain ⟨g, hgm, rfl⟩ := List.mem_map.1 ht
    exact (hroot g hgm).1
  · rw [hpairs, List.map_map, List.map_map, ← map_cut]
    exact List.map_congr_left fun g hgm => (hroot g hgm).2.1

/-! ### reads -/

section Reads

variable {r : Repository} {σ : Type} {store : Store σ} (he : r.entity.WellFormed)
  (hp : plan.Paged r.entity) (hdb : db.Conforms r.entity) (hs : E.Serves r.schema db plan store)

include he hp hdb hs

theorem fetches_export (s : σ) :
    ∃ (roots : List Tuple) (ordered : List Joined),
      E.Ordered (E.rowKeys plan.order) (E.rows r.schema db plan) ordered ∧
      (∀ t ∈ roots, t ∈ db (tableOf r.entity)) ∧
      roots.map rootId = (firstOfEach Joined.id [] ordered).map Joined.id ∧
      r.Fetches store s plan (roots.map (recordOf r.entity)) := by
  obtain ⟨rs, hreply, hanswer⟩ := hs none none s
  rw [hp.window_none] at hreply hanswer
  have hflat : Query.ofPlan plan = .flat plan := by
    simp [Query.ofPlan, SelectPlan.isWindowed, hp.unlimited, hp.undisplaced]
  rw [hflat] at hanswer
  obtain ⟨roots, hroots, rfl⟩ := hanswer
  obtain ⟨ordered, ho, hmem, hids⟩ := flat_ids hp.unlimited hp.undisplaced hroots
  rw [hp.entity] at hreply hmem
  exact ⟨_, ordered, ho, fun t ht => hmem t ((firstOfEach_sublist _ _ _).subset ht), hids,
    fetches_of_reply he hdb hmem hreply⟩

theorem fetches_window (hfan : plan.joins.fansOut = true) (limit offset : Option Nat)
    (hw : (plan.window limit offset).isWindowed = true) (s : σ) :
    ∃ (roots : List Tuple) (groups : List (List Joined)),
      Grouping (E.Same (PageQuery.ofPlan plan).group) (E.rows r.schema db plan) groups ∧
      groups.Pairwise (E.Precedes (E.pageKeys plan)) ∧
      (∀ t ∈ roots, t ∈ db (tableOf r.entity)) ∧
      roots.map rootId = cut limit offset (groups.map groupId) ∧
      r.Fetches store s (plan.window limit offset) (roots.map (recordOf r.entity)) := by
  obtain ⟨rs, hreply, hanswer⟩ := hs limit offset s
  have hpage : Query.ofPlan (plan.window limit offset) =
      .page (.ofPlan (plan.window limit offset)) := by
    have hfan : (plan.window limit offset).joins.fansOut = true := hfan
    simp [Query.ofPlan, hw, hfan]
  rw [hpage] at hanswer
  obtain ⟨roots, hroots, rfl⟩ := hanswer
  have hentity : (PageQuery.ofPlan (plan.window limit offset)).base.entity = r.entity := hp.entity
  rw [hentity] at hreply
  obtain ⟨groups, hg, hsorted, hmem, hids⟩ := page_ids (hp.entity ▸ hdb) hp.keyed hroots
  rw [hp.entity] at hmem
  have hrows := hdb.keyed_rows E r.schema hp.entity
  have hnd : (roots.map rootId).Nodup :=
    hids ▸ (nodup_groupIds hrows hg).sublist (cut_sublist _ _ _)
  have hfetch := fetches_of_reply he hdb hmem hreply
  rw [firstOfEach_of_nodup hnd fun _ _ => List.not_mem_nil] at hfetch
  exact ⟨roots, groups, hg, hsorted, hmem, hids, hfetch⟩

/-- the pages of a plan are slices of one sequence of the records of its export -/
theorem exists_sequence (hfan : plan.joins.fansOut = true) (s : σ) :
    ∃ all paged : List Record, r.Fetches store s plan all ∧ paged.Perm all ∧
      (∀ limit offset, (plan.window limit offset).isWindowed = true →
        r.Fetches store s (plan.window limit offset) (cut limit offset paged)) ∧
      (paged = all ↔ E.FirstRowsAgree plan (E.rows r.schema db plan)) := by
  have hrows := hdb.keyed_rows E r.schema hp.entity
  obtain ⟨roots, ordered, ho, hmem, hids, hall⟩ := fetches_export he hp hdb hs s
  -- the whole sequence is the page that leaves out nothing
  obtain ⟨roots₀, groups, hg, hsorted, hmem₀, hids₀, _⟩ :=
    fetches_window he hp hdb hs hfan none (some 0) rfl s
  have hids₀ : roots₀.map rootId = groups.map groupId := hids₀
  refine ⟨_, roots₀.map (recordOf r.entity), hall, ?_, fun limit offset hw => ?_, ?_⟩
  · have hperm := (perm_ids hrows ho hg).filterMap fun id =>
      (db (tableOf r.entity)).find? (rootId · = id)
    rw [← hids, ← hids₀, filterMap_find? hdb hmem, filterMap_find? hdb hmem₀] at hperm
    exact hperm.map _
  · obtain ⟨roots', groups', hg', hsorted', hmem', hids', hfetch⟩ :=
      fetches_window he hp hdb hs hfan limit offset hw s
    rw [groupIds_eq hrows hp.keyed hg' hsorted' hg hsorted, ← hids₀, ← map_cut] at hids'
    have hroots := roots_eq hdb hmem'
      (fun t ht => hmem₀ t ((cut_sublist limit offset _).subset ht)) hids'
    rw [← map_cut, ← hroots]
    exact hfetch
  · have hid : ∀ l : List Tuple, (∀ t ∈ l, t ∈ db (tableOf r.entity)) →
        (l.map (recordOf r.entity)).map Record.id = l.map rootId := by
      intro l hl
      rw [List.map_map]
      exact List.map_congr_left fun t ht => recordOf_id he hdb (hl t ht)
    rw [← ids_eq_iff hrows hp.keyed ho hg hsorted, ← hids, ← hids₀]
    constructor
    · intro h
      rw [← hid roots hmem, ← hid roots₀ hmem₀, h]
    · intro h
      rw [roots_eq hdb hmem hmem₀ h]

end Reads

/-- the pages of a plan are slices of its export exactly when they come from the same sequence -/
theorem slices_iff {r : Repository} {σ : Type} {store : Store σ} {s : σ}
    {all paged : List Record}
    (hpages : ∀ limit offset, (plan.window limit offset).isWindowed = true →
      r.Fetches store s (plan.window limit offset) (cut limit offset paged)) :
    (∀ limit offset, (plan.window limit offset).isWindowed = true →
      r.Fetches store s (plan.window limit offset) (cut limit offset all)) ↔ paged = all := by
  constructor
  · intro h
    have hwhole := (hpages none (some 0) rfl).alone.symm.trans (h none (some 0) rfl).alone
    exact Except.ok.inj hwhole
  · rintro rfl
    exact hpages

/-- all pages of a plan are slices of one sequence of the records of its export; they are slices of
the export itself exactly when first rows and folded keys agree, as they do when at most one term
orders by joined rows before the primary key -/
theorem pages_are_slices {d : Document} {r : Repository} (hd : d.resolve = .ok r.schema)
    (he : r.entity ∈ r.schema.entities) (hp : plan.Paged r.entity)
    (hfan : plan.joins.fansOut = true) (hdb : db.Conforms r.entity) {σ : Type} {store : Store σ}
    (hs : E.Serves r.schema db plan store) (s : σ) :
    (∀ limit offset, (Query.ofPlan (plan.window limit offset)).render r.schema =
      (Statement.select r.schema (plan.window limit offset)).fragment) ∧
    ∃ all paged : List Record, r.Fetches store s plan all ∧ paged.Perm all ∧
      (∀ limit offset, (plan.window limit offset).isWindowed = true →
        r.Fetches store s (plan.window limit offset) (cut limit offset paged)) ∧
      ((∀ limit offset, (plan.window limit offset).isWindowed = true →
          r.Fetches store s (plan.window limit offset) (cut limit offset all)) ↔
        E.FirstRowsAgree plan (E.rows r.schema db plan)) ∧
      (E.JoinedValues plan.order (E.rows r.schema db plan) → joinedTerms plan.order ≤ 1 →
        E.FirstRowsAgree plan (E.rows r.schema db plan)) := by
  have hwf := (Document.wellFormed_of_resolve hd).entity _ he
  have hrows := hdb.keyed_rows E r.schema hp.entity
  obtain ⟨all, paged, hall, hperm, hpages, hsame⟩ := exists_sequence hwf hp hdb hs hfan s
  refine ⟨fun limit offset => Query.render_ofPlan r.schema (plan.window limit offset), all, paged,
    hall, hperm, hpages, (slices_iff hpages).trans hsame, ?_⟩
  exact firstRowsAgree_of_joinedTerms hrows hp.keyed

/-- there are stores that answer from tables -/
theorem exists_serving (E : Engine) (schema : Schema) (db : Content) (plan : SelectPlan) :
    ∃ store : Store Unit, E.Serves schema db plan store := by
  let answer (q : Statement) : Reply :=
    match q with
    | .select schema plan => .ok (exists_answer (E := E) schema db (.ofPlan plan)).choose
    | _ => .error .driver
  refine ⟨⟨fun q s => (answer q, s), fun s => ("", s)⟩, fun limit offset _ => ⟨_, rfl, ?_⟩⟩
  exact (exists_answer (E := E) schema db (.ofPlan (plan.window limit offset))).choose_spec

/-! ### owners by their tasks -/

def sampleTime : DateTime := .ofDate ⟨2024, 5, 6, by decide, by decide, by decide⟩

def ownerRow (id : String) : Tuple :=
  .ofList [("id", .text id), ("email", .text id), ("created_at", .dateTime sampleTime)]

def taskRow (id owner state : String) (effort : Int) : Tuple :=
  .ofList [("id", .text id), ("owner_id", .text owner), ("state", .text state),
    ("effort", .int effort), ("created_at", .dateTime sampleTime)]

/-- an owner of two tasks and an owner of one -/
def tasksContent : Content := fun table =>
  if table = tableOf usersEntity then [ownerRow "a", ownerRow "b"]
  else if table = tableOf tasksEntity then
    [taskRow "1" "a" "done" 9, taskRow "2" "a" "open" 1, taskRow "3" "b" "done" 5]
  else []

def joinOfTasks : Join := ⟨"j_tasks", "tasks", tasksOfOwner, rootAlias⟩

def stateOfTask : OrderTerm := .column ⟨"j_tasks", "state", .text⟩ false

def effortOfTask : OrderTerm := .column ⟨"j_tasks", "effort", .integer⟩ false

/-- owners in an order by their tasks -/
def ownersPlan (terms : List OrderTerm) : SelectPlan :=
  ⟨usersEntity, .ofList [("tasks", joinOfTasks)], [], terms ++ [.column rootKeyColumn false], none,
    none⟩

def ownerAndTask (owner id state : String) (effort : Int) : Joined :=
  ⟨ownerRow owner, [("j_tasks", taskRow id owner state effort)]⟩

def ownersAndTasks : List Joined :=
  [ownerAndTask "a" "1" "done" 9, ownerAndTask "a" "2" "open" 1, ownerAndTask "b" "3" "done" 5]

theorem tasksContent_users :
    tasksContent (tableOf usersEntity) = [ownerRow "a", ownerRow "b"] := if_pos rfl

/-- owners with their tasks, whatever the tables hold -/
theorem rows_ownersPlan_eq (db : Content) (terms : List OrderTerm) :
    smallEngine.rows tasksSchema db (ownersPlan terms) =
      smallEngine.joinOne tasksSchema db ((db (tableOf usersEntity)).map fun t => ⟨t, []⟩)
        joinOfTasks := by
  have hjoins : (ownersPlan terms).joins.values = [joinOfTasks] := rfl
  unfold Engine.rows
  simp only [hjoins, List.foldl_cons, List.foldl_nil]
  exact List.filter_eq_self.2 fun _ _ => rfl

theorem rows_ownersPlan (terms : List OrderTerm) :
    smallEngine.rows tasksSchema tasksContent (ownersPlan terms) = ownersAndTasks := by
  have htable : joinedTable tasksSchema joinOfTasks = tableOf tasksEntity := by rfl
  have htasks : tasksContent (tableOf tasksEntity) =
      [taskRow "1" "a" "done" 9, taskRow "2" "a" "open" 1, taskRow "3" "b" "done" 5] := by
    unfold tasksContent
    rw [if_neg (by decide), if_pos rfl]
  rw [rows_ownersPlan_eq]
  unfold joinOne
  rw [tasksContent_users, htable, htasks]
  rfl

theorem conforms_tasksContent : tasksContent.Conforms usersEntity := by
  refine ⟨?_, ?_, ?_⟩ <;> rw [tasksContent_users]
  · decide
  · simp only [List.mem_cons, List.not_mem_nil, or_false, forall_eq_or_imp, forall_eq]
    exact ⟨⟨"a", rfl⟩, ⟨"b", rfl⟩⟩
  · decide

/-- all tasks have a state and an effort -/
theorem joinedValues_ownersPlan :
    smallEngine.JoinedValues (ownersPlan [stateOfTask, effortOfTask]).order ownersAndTasks :=
  ⟨by decide, by decide⟩

/-- owners are paged by the states of their tasks as they are exported -/
theorem owners_by_state :
    ∃ (store : Store Unit) (all : List Record),
      planOf tasksSchema usersEntity [] [⟨["tasks"], "state", false⟩] .paged =
        .ok (ownersPlan [stateOfTask]) ∧
      (Repository.plain tasksSchema usersEntity).Fetches store () (ownersPlan [stateOfTask]) all ∧
      ∀ limit offset, ((ownersPlan [stateOfTask]).window limit offset).isWindowed = true →
        (Repository.plain tasksSchema usersEntity).Fetches store ()
          ((ownersPlan [stateOfTask]).window limit offset) (cut limit offset all) := by
  obtain ⟨store, hs⟩ :=
    exists_serving smallEngine tasksSchema tasksContent (ownersPlan [stateOfTask])
  have husers : usersEntity ∈ tasksSchema.entities := List.mem_cons_of_mem _ List.mem_cons_self
  have hplan : planOf tasksSchema usersEntity [] [⟨["tasks"], "state", false⟩] .paged =
      .ok (ownersPlan [stateOfTask]) := by rfl
  obtain ⟨_, all, _, hall, _, _, hslices, hagree⟩ :=
    pages_are_slices (r := .plain tasksSchema usersEntity) resolve_tasksDocument husers
      (paged_of_planOf hplan) rfl conforms_tasksContent hs ()
  refine ⟨store, all, hplan, hall, hslices.2 (hagree ?_ (by decide))⟩
  change smallEngine.JoinedValues _ (smallEngine.rows tasksSchema tasksContent _)
  rw [rows_ownersPlan]
  refine joinedValues_ownersPlan.mono fun t ht => ?_
  simp only [ownersPlan, List.cons_append, List.nil_append, List.mem_cons] at ht ⊢
  tauto

/-- owners by the states and efforts of their tasks: the first row of `a` comes after that of `b`,
but its efforts are folded without regard to the state -/
theorem not_firstRowsAgree_ownersPlan :
    ¬ smallEngine.FirstRowsAgree (ownersPlan [stateOfTask, effortOfTask]) ownersAndTasks := by
  intro h
  have hfirst : smallEngine.First (ownersPlan [stateOfTask, effortOfTask]).order ownersAndTasks
      (ownerAndTask "a" "1" "done" 9) := ⟨List.mem_cons_self, by decide⟩
  have hother : smallEngine.First (ownersPlan [stateOfTask, effortOfTask]).order ownersAndTasks
      (ownerAndTask "b" "3" "done" 5) := ⟨by simp [ownersAndTasks], by decide⟩
  have hagree := h _ _ hother hfirst (by decide)
  revert hagree
  decide

/-- owners are not paged by two columns of their tasks as they are exported -/
theorem owners_by_state_and_effort :
    ∃ (plan : SelectPlan) (store : Store Unit),
      planOf tasksSchema usersEntity []
        [⟨["tasks"], "state", false⟩, ⟨["tasks"], "effort", false⟩] .paged = .ok plan ∧
      plan.Paged usersEntity ∧ plan.joins.fansOut = true ∧ tasksContent.Conforms usersEntity ∧
      smallEngine.JoinedValues plan.order (smallEngine.rows tasksSchema tasksContent plan) ∧
      smallEngine.Serves tasksSchema tasksContent plan store ∧
      ¬ ∃ all, (Repository.plain tasksSchema usersEntity).Fetches store () plan all ∧
        ∀ limit offset, (plan.window limit offset).isWindowed = true →
          (Repository.plain tasksSchema usersEntity).Fetches store () (plan.window limit offset)
            (cut limit offset all) := by
  obtain ⟨store, hs⟩ :=
    exists_serving smallEngine tasksSchema tasksContent (ownersPlan [stateOfTask, effortOfTask])
  have husers : usersEntity ∈ tasksSchema.entities := List.mem_cons_of_mem _ List.mem_cons_self
  have hwf := (Document.wellFormed_of_resolve resolve_tasksDocument).entity _ husers
  have hplan : planOf tasksSchema usersEntity []
      [⟨["tasks"], "state", false⟩, ⟨["tasks"], "effort", false⟩] .paged =
        .ok (ownersPlan [stateOfTask, effortOfTask]) := by rfl
  have hp := paged_of_planOf hplan
  refine ⟨_, store, hplan, hp, by rfl, conforms_tasksContent, ?_, hs, ?_⟩
  · rw [rows_ownersPlan]
    exact joinedValues_ownersPlan
  · rintro ⟨all, hall, hslices⟩
    obtain ⟨all', paged, hall', _, hpages, hsame⟩ :=
      exists_sequence (r := .plain tasksSchema usersEntity) hwf hp conforms_tasksContent hs rfl ()
    obtain rfl : all = all' := Except.ok.inj (hall.alone.symm.trans hall'.alone)
    rw [slices_iff hpages, hsame] at hslices
    change smallEngine.FirstRowsAgree _ (smallEngine.rows tasksSchema tasksContent _) at hslices
    rw [rows_ownersPlan] at hslices
    exact not_firstRowsAgree_ownersPlan hslices

end EntityAccess
