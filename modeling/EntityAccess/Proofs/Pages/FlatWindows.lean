import EntityAccess.Proofs.Pages.Slices
import EntityAccess.Proofs.Query.Scope

/-!
# windows of joined rows

A relationship to one row ends at a primary key, so that a table joined along it adds neither a row
nor loses one, whether the key that is joined by is there, null or dangling.  Without a relationship
to many rows the joined rows are the rows of the root, and a window that is cut over them is cut
over different roots.

* `Joins.Built` : joins as they are put together;
* `Engine.joinedRows` : the joined rows of a plan, before its conditions;
* `map_root_joinOne`, `map_root_joinedRows` : one joined table, and all of them;
* `flat_windows` : what a window is cut over when it is not cut over groups.
-/

namespace EntityAccess

open Engine Outcome Sql

/-! ### joins as they are put together -/

/-- joins of a schema: of paths from some entity, and merged -/
inductive Joins.Built (schema : Schema) : Joins → Prop where
  | empty : Built schema .empty
  | resolved {root : Entity} {paths : List Path} {js : Joins} (hroot : root ∈ schema.entities)
      (h : resolveJoins schema root paths = .ok js) : Built schema js
  | merged {js more : Joins} (hjs : Built schema js) (hmore : Built schema more) :
      Built schema (js.merge more)

/-- a join along a declared relationship, of the entity that it leads to -/
structure Join.Declared (schema : Schema) (j : Join) : Prop where
  relationship : ∃ e ∈ schema.entities, j.relationship ∈ e.relationships
  entity : j.entity = j.relationship.target

variable {schema : Schema}

theorem declared_of_mem_joinsFrom {e last : Entity} {rs : List Relationship}
    (h : Walk schema e rs last) (he : e ∈ schema.entities) (p : Path) :
    ∀ entry ∈ joinsFrom p rs, entry.2.Declared schema := by
  induction h generalizing p with
  | here e => exact List.forall_mem_nil _
  | @step e next last r rs hr hmem _ _ ih =>
    rw [joinsFrom_cons, List.forall_mem_cons]
    exact ⟨⟨⟨e, he, hr⟩, rfl⟩, ih hmem _⟩

/-- whatever is put together, all joins are along declared relationships -/
theorem Joins.Built.declared (hs : schema.WellFormed) {js : Joins} (h : js.Built schema) :
    ∀ entry ∈ js.entries, entry.2.Declared schema := by
  induction h with
  | empty => exact List.forall_mem_nil _
  | resolved hroot h =>
    intro entry hentry
    obtain ⟨p, _, part, hpart, hin⟩ := (mem_of_resolveJoins hs hroot h entry).1 hentry
    obtain ⟨rs, last, hw, _, rfl⟩ := exists_walk_of_walk (p := []) rfl hpart
    exact declared_of_mem_joinsFrom hw hroot [] entry hin
  | merged _ _ ihjs ihmore =>
    intro entry hentry
    exact (Dict.of_mem_foldl_insertNew hentry).elim (ihjs entry) (ihmore entry)

namespace SelectPlan

/-- the joins of a plan of filters and sort keys -/
theorem built_of_planOf {root : Entity} (hroot : root ∈ schema.entities) {filters : Filters}
    {sort : List SortKey} {policy : SortPolicy} {plan : SelectPlan}
    (h : planOf schema root filters sort policy = .ok plan) : plan.joins.Built schema := by
  obtain ⟨fs, _, h⟩ := bind_eq_ok.1 h
  obtain ⟨js, hjs, ps, ts, _, _, rfl⟩ := extend_eq_ok (assemble_eq_ok.1 h)
  rw [joins_addOrders, joins_addPredicates, merge_ofEntity]
  exact .resolved hroot hjs

end SelectPlan

/-! ### joined rows -/

/-- a relationship to one row ends at the primary key -/
theorem Document.remoteColumn_of_manyToOne {d : Document} (hd : d.resolve = .ok schema)
    {e : Entity} (he : e ∈ schema.entities) {r : Relationship} (hr : r ∈ e.relationships)
    (hkind : r.kind = .manyToOne) : r.remoteColumn = primaryKey := by
  have hkey := key_of_relationship hd he hr
  rwa [hkind] at hkey

/-- the primary keys of all tables are texts, in each table once -/
structure Content.KeyedBy (db : Content) (schema : Schema) : Prop where
  keyed : ∀ e ∈ schema.entities, ∀ t ∈ db (tableOf e), ∃ id, cell t primaryKey = .text id
  nodup : ∀ e ∈ schema.entities, ((db (tableOf e)).map rootId).Nodup

namespace Engine

/-- a value is joined to one text at most -/
def JoinsOne (E : Engine) : Prop :=
  ∀ (v : SqlValue) (s t : String), E.equal (.text s) v = true → E.equal (.text t) v = true → s = t

/-- the joined rows of a plan, before its conditions -/
def joinedRows (E : Engine) (schema : Schema) (db : Content) (plan : SelectPlan) : List Joined :=
  plan.joins.values.foldl (E.joinOne schema db) ((db (tableOf plan.entity)).map fun t => ⟨t, []⟩)

variable {E : Engine} {db : Content} {plan : SelectPlan}

theorem rows_eq : E.rows schema db plan =
    (E.joinedRows schema db plan).filter fun row => plan.predicates.all (E.holds · row.cell) := rfl

/-- a value finds one row of a table at most by the primary key -/
theorem length_found_le (hE : E.JoinsOne) (hdb : db.KeyedBy schema) {e : Entity}
    (he : e ∈ schema.entities) (v : SqlValue) :
    ((db (tableOf e)).filter fun t => E.equal (cell t primaryKey) v).length ≤ 1 := by
  have hsub := List.filter_sublist (p := fun t => E.equal (cell t primaryKey) v)
    (l := db (tableOf e))
  have hnd := (hdb.nodup e he).sublist (hsub.map rootId)
  have hsame : ∀ t u, t ∈ (db (tableOf e)).filter (fun t => E.equal (cell t primaryKey) v) →
      u ∈ (db (tableOf e)).filter (fun t => E.equal (cell t primaryKey) v) →
        rootId t = rootId u := by
    intro t u ht hu
    obtain ⟨ht, htv⟩ := List.mem_filter.1 ht
    obtain ⟨hu, huv⟩ := List.mem_filter.1 hu
    obtain ⟨s, hs⟩ := hdb.keyed e he t ht
    obtain ⟨s', hs'⟩ := hdb.keyed e he u hu
    rw [hs] at htv
    rw [hs'] at huv
    unfold rootId
    rw [hs, hs']
    exact hE v s s' htv huv
  generalize (db (tableOf e)).filter (fun t => E.equal (cell t primaryKey) v) = found at hnd hsame
  match found with
  | [] => exact Nat.zero_le 1
  | [_] => exact Nat.le_refl 1
  | t :: u :: rest =>
    refine absurd (hsame t u (by simp) (by simp)) fun heq => ?_
    simp [heq] at hnd

/-- a joined table of which each value finds one row at most keeps the roots as they are -/
theorem map_root_joinOne {j : Join}
    (h : ∀ v, ((db (joinedTable schema j)).filter fun t =>
      E.equal (cell t j.relationship.remoteColumn) v).length ≤ 1) (rows : List Joined) :
    (E.joinOne schema db rows j).map (·.root) = rows.map (·.root) := by
  unfold joinOne
  rw [List.map_flatMap, List.map_eq_flatMap]
  refine List.flatMap_congr fun row _ => ?_
  have hone := h (cell (row.tuple j.parentAlias) j.relationship.localColumn)
  dsimp only
  generalize (db (joinedTable schema j)).filter _ = found at hone ⊢
  match found with
  | [] => rfl
  | [_] => rfl
  | _ :: _ :: _ => simp at hone

theorem map_root_foldl {joins : List Join}
    (h : ∀ j ∈ joins, ∀ v, ((db (joinedTable schema j)).filter fun t =>
      E.equal (cell t j.relationship.remoteColumn) v).length ≤ 1) (rows : List Joined) :
    (joins.foldl (E.joinOne schema db) rows).map (·.root) = rows.map (·.root) := by
  induction joins generalizing rows with
  | nil => rfl
  | cons j joins ih =>
    obtain ⟨hj, hrest⟩ := List.forall_mem_cons.1 h
    rw [List.foldl_cons, ih hrest, map_root_joinOne hj]

/-- without a relationship to many rows each root is there once -/
theorem map_root_joinedRows {d : Document} (hd : d.resolve = .ok schema)
    (hjoins : plan.joins.Built schema) (hfan : plan.joins.fansOut = false) (hE : E.JoinsOne)
    (hdb : db.KeyedBy schema) :
    (E.joinedRows schema db plan).map (·.root) = db (tableOf plan.entity) := by
  have hs := Document.wellFormed_of_resolve hd
  unfold joinedRows
  rw [map_root_foldl, List.map_map]
  · exact List.map_id _
  intro j hj v
  obtain ⟨entry, hentry, rfl⟩ := List.mem_map.1 hj
  obtain ⟨⟨e, he, hr⟩, hentity⟩ := hjoins.declared hs entry hentry
  have hkind : entry.2.relationship.kind = .manyToOne := by
    have hno := List.any_eq_false.1 hfan entry.2 hj
    cases hkind : entry.2.relationship.kind with
    | manyToOne => rfl
    | oneToMany => simp [hkind] at hno
  obtain ⟨target, htarget, hfound⟩ := Schema.exists_target hs he hr
  have htable : joinedTable schema entry.2 = tableOf target := by
    unfold joinedTable
    rw [hentity, hfound]
  rw [htable, Document.remoteColumn_of_manyToOne hd he hr hkind]
  exact length_found_le hE hdb htarget v

end Engine

/-! ### windows -/

/-- a window that is cut over joined rows is one of a plan that does not fan out -/
theorem fansOut_of_ofPlan {plan : SelectPlan} (hw : plan.isWindowed = true)
    (h : Query.ofPlan plan = .flat plan) : plan.joins.fansOut = false := by
  unfold Query.ofPlan at h
  rw [hw, Bool.true_and] at h
  cases hfan : plan.joins.fansOut with
  | false => rfl
  | true =>
    rw [hfan] at h
    cases h

/-- without a relationship to many rows there is one joined row for each row of the root; whatever
window is cut over joined rows is cut over different roots -/
theorem flat_windows {d : Document} (hd : d.resolve = .ok schema) {plan : SelectPlan}
    (hroot : plan.entity ∈ schema.entities) (hjoins : plan.joins.Built schema) {E : Engine}
    (hE : E.JoinsOne) {db : Content} (hdb : db.KeyedBy schema) :
    (plan.joins.fansOut = false →
      (E.joinedRows schema db plan).map (·.root) = db (tableOf plan.entity) ∧
        ((E.joinedRows schema db plan).map Joined.id).Nodup) ∧
    (plan.isWindowed = true → Query.ofPlan plan = .flat plan →
      (Query.flat plan).render schema = (Statement.select schema plan).fragment ∧
      ∀ roots, E.Flat schema db plan roots →
        ∃ all, E.Flat schema db (plan.window none none) all ∧ (all.map rootId).Nodup ∧
          roots = cut plan.limit plan.offset all) := by
  have hids : plan.joins.fansOut = false → ((E.joinedRows schema db plan).map Joined.id).Nodup := by
    intro hfan
    have hkeys := hdb.nodup _ hroot
    rw [← Engine.map_root_joinedRows hd hjoins hfan hE hdb, List.map_map] at hkeys
    exact hkeys
  refine ⟨fun hfan => ⟨Engine.map_root_joinedRows hd hjoins hfan hE hdb, hids hfan⟩,
    fun hw hflat => ⟨hflat ▸ Query.render_ofPlan schema plan, ?_⟩⟩
  rintro roots ⟨ordered, ho, rfl⟩
  refine ⟨ordered.map (·.root), ⟨ordered, ho, rfl⟩, ?_, map_cut _ _ _ _⟩
  -- conditions leave out rows, and the order moves them
  have hrows : ((E.rows schema db plan).map Joined.id).Nodup := by
    rw [Engine.rows_eq]
    exact (hids (fansOut_of_ofPlan hw hflat)).sublist (List.filter_sublist.map _)
  rw [List.map_map]
  exact (ho.perm.map Joined.id).nodup_iff.2 hrows

/-! ### notes by the notes that they reply to -/

def noteRow (id title : String) (parent : SqlValue) : Tuple :=
  .ofList [("id", .text id), ("title", .text title), ("parent_id", parent),
    ("created_at", .dateTime sampleTime)]

/-- a note, a reply, a reply to it and a reply to what is not there -/
def notesContent : Content := fun table =>
  if table = tableOf notesEntity then
    [noteRow "1" "a" .null, noteRow "2" "b" (.text "1"), noteRow "3" "c" (.text "2"),
      noteRow "4" "d" (.text "9")]
  else []

theorem joinsOne_smallEngine : smallEngine.JoinsOne := by
  intro v s t hs ht
  cases v with
  | text u =>
    exact ((smallEngine.equal_text s u).1 hs).trans ((smallEngine.equal_text t u).1 ht).symm
  | _ => cases hs

theorem keyedBy_notesContent : notesContent.KeyedBy notesSchema := by
  have hrows : notesContent (tableOf notesEntity) = [noteRow "1" "a" .null,
      noteRow "2" "b" (.text "1"), noteRow "3" "c" (.text "2"), noteRow "4" "d" (.text "9")] :=
    if_pos rfl
  have hnotes : ∀ e ∈ notesSchema.entities, e = notesEntity := fun e he => List.mem_singleton.1 he
  refine ⟨fun e he t ht => ?_, fun e he => ?_⟩
  · rw [hnotes e he, hrows] at ht
    simp only [List.mem_cons, List.not_mem_nil, or_false] at ht
    rcases ht with rfl | rfl | rfl | rfl <;> exact ⟨_, rfl⟩
  · rw [hnotes e he, hrows]
    decide

/-- a page of notes in the order of what they reply to replies to: every note is joined once,
whether or not there is such a note -/
theorem notes_by_grandparent :
    ∃ plan : SelectPlan,
      planOf notesSchema notesEntity [] [⟨["parent", "parent"], "title", true⟩] .paged = .ok plan ∧
      plan.joins.keys = ["parent", "parent___parent"] ∧
      (smallEngine.joinedRows notesSchema notesContent plan).map (·.root) =
        notesContent (tableOf notesEntity) ∧
      ∀ roots, smallEngine.Flat notesSchema notesContent (plan.window (some 2) (some 1)) roots →
        ∃ all, smallEngine.Flat notesSchema notesContent (plan.window none none) all ∧
          (all.map rootId).Nodup ∧ roots = cut (some 2) (some 1) all := by
  have hnotes : notesEntity ∈ notesSchema.entities := List.mem_singleton_self _
  have hall : ∀ plan : SelectPlan,
      planOf notesSchema notesEntity [] [⟨["parent", "parent"], "title", true⟩] .paged = .ok plan →
      plan.entity = notesEntity → plan.joins.fansOut = false →
      (smallEngine.joinedRows notesSchema notesContent plan).map (·.root) =
        notesContent (tableOf notesEntity) ∧
      ∀ roots, smallEngine.Flat notesSchema notesContent (plan.window (some 2) (some 1)) roots →
        ∃ all, smallEngine.Flat notesSchema notesContent (plan.window none none) all ∧
          (all.map rootId).Nodup ∧ roots = cut (some 2) (some 1) all := by
    intro plan hplan hentity hfan
    have hroot : (plan.window (some 2) (some 1)).entity ∈ notesSchema.entities := hentity ▸ hnotes
    have hbuilt : plan.joins.Built notesSchema := SelectPlan.built_of_planOf hnotes hplan
    obtain ⟨hrows, hwindow⟩ := flat_windows resolve_notesDocument hroot hbuilt
      joinsOne_smallEngine keyedBy_notesContent
    have hflat : Query.ofPlan (plan.window (some 2) (some 1)) =
        .flat (plan.window (some 2) (some 1)) := by
      have hfan : (plan.window (some 2) (some 1)).joins.fansOut = false := hfan
      simp [Query.ofPlan, hfan]
    exact ⟨hentity ▸ (hrows hfan).1, (hwindow rfl hflat).2⟩
  exact ⟨_, rfl, rfl, hall _ rfl rfl rfl⟩

end EntityAccess
