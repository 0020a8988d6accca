import EntityAccess.Proofs.Sql.Engine
import EntityAccess.Sql.Result

/-!
# what queries mean

The rows of the root table are joined one table after the other; a row that finds none stays, with
nulls.  Those that pass the conditions are put in order and cut to the window, or are grouped, and
the groups are put in order and cut.

* `Engine.rows` : the joined rows of a plan;
* `Engine.Flat`, `Engine.Page` : the roots that a query gives;
* `exists_answer` : every query has an answer.
-/

namespace EntityAccess

open Sql

/-! ### rows -/

/-- a row of a table; a column that it leaves out is null -/
abbrev Tuple := Dict SqlValue

def cell (t : Tuple) (column : String) : SqlValue := (t.get? column).getD .null

/-- the rows of every table, by its qualified name -/
abbrev Content := String → List Tuple

/-- a row of the root and the rows that are joined to it -/
structure Joined where
  root : Tuple
  others : List (String × Tuple)

namespace Joined

/-- the row under an alias -/
def tuple (row : Joined) (tableAlias : String) : Tuple :=
  if tableAlias = rootAlias then row.root else (row.others.lookup tableAlias).getD .empty

def cell (row : Joined) (c : ColumnRef) : SqlValue :=
  EntityAccess.cell (row.tuple c.tableAlias) c.column

end Joined

/-- the name of a joined table -/
def joinedTable (schema : Schema) (j : Join) : String :=
  match schema.entity? j.entity with
  | some e => tableOf e
  | none => quoted j.entity

/-- a list cut to a window -/
def cut {α : Type} (limit offset : Option Nat) (l : List α) : List α :=
  let rest := l.drop (offset.getD 0)
  match limit with
  | some n => rest.take n
  | none => rest

theorem cut_sublist {α : Type} (limit offset : Option Nat) (l : List α) :
    (cut limit offset l).Sublist l := by
  unfold cut
  cases limit with
  | none => exact List.drop_sublist _ l
  | some n => exact (List.take_sublist n _).trans (List.drop_sublist _ l)

theorem map_cut {α β : Type} (f : α → β) (limit offset : Option Nat) (l : List α) :
    (cut limit offset l).map f = cut limit offset (l.map f) := by
  unfold cut
  cases limit <;> simp only [List.map_drop, List.map_take]

/-- elements in groups: each is in one, and two are in the same when they are the same -/
structure Grouping {α : Type} (same : α → α → Prop) (l : List α) (groups : List (List α)) :
    Prop where
  perm : groups.flatten.Perm l
  inhabited : ∀ g ∈ groups, g ≠ []
  within : ∀ g ∈ groups, ∀ a ∈ g, ∀ b ∈ g, same a b
  across : groups.Pairwise fun g h => ∀ a ∈ g, ∀ b ∈ h, ¬ same a b

namespace Engine

variable (E : Engine)

/-- a table joined to rows; a row that finds none stays -/
def joinOne (schema : Schema) (db : Content) (rows : List Joined) (j : Join) : List Joined :=
  rows.flatMap fun row =>
    let key := cell (row.tuple j.parentAlias) j.relationship.localColumn
    let found := (db (joinedTable schema j)).filter fun t =>
      E.equal (cell t j.relationship.remoteColumn) key
    (if found.isEmpty then [.empty] else found).map fun t =>
      { row with others := row.others ++ [(j.tableAlias, t)] }

/-- the joined rows of a plan that pass its conditions -/
def rows (schema : Schema) (db : Content) (plan : SelectPlan) : List Joined :=
  let roots : List Joined := (db (tableOf plan.entity)).map fun t => ⟨t, []⟩
  (plan.joins.values.foldl (E.joinOne schema db) roots).filter fun row =>
    plan.predicates.all (E.holds · row.cell)

/-! ### values -/

def value (row : Joined) : Expr → SqlValue
  | .column c => row.cell c
  | .textOf c => E.textOf (row.cell c)
  | .rank v query config => E.rank (row.cell v) query config

def groupValue (group : List Joined) : GroupExpr → SqlValue
  | .shared c => (group.head?.map (·.cell c)).getD .null
  | .folded a x => E.aggregate a (group.map (E.value · x))

/-- what joined rows are ordered by -/
def rowKeys (order : List OrderTerm) : Keys Joined :=
  order.map fun t => (fun row => E.value row t.expr, t.descending)

/-- what groups are ordered by -/
def groupKeys (keys : List (GroupExpr × Bool)) : Keys (List Joined) :=
  keys.map fun k => (fun group => E.groupValue group k.1, k.2)

/-- rows that agree on columns -/
def Same (columns : List ColumnRef) (r s : Joined) : Prop :=
  ∀ c ∈ columns, E.tied (r.cell c) (s.cell c)

/-! ### answers -/

/-- the roots of joined rows in their order and window -/
def Flat (schema : Schema) (db : Content) (plan : SelectPlan) (roots : List Tuple) : Prop :=
  ∃ ordered, E.Ordered (E.rowKeys plan.order) (E.rows schema db plan) ordered ∧
    roots = (cut plan.limit plan.offset ordered).map (·.root)

/-- rows of the root table with the groups that have their primary key -/
def matchGroups (roots : List Tuple) (groups : List (List Joined)) :
    List (Tuple × List Joined) :=
  roots.flatMap fun t =>
    (groups.filter fun g =>
      E.equal (E.groupValue g (.shared rootKeyColumn)) (cell t primaryKey)).map (t, ·)

/-- groups of joined rows in the order of a page -/
def Grouped (schema : Schema) (db : Content) (q : PageQuery) (groups : List (List Joined)) :
    Prop :=
  Grouping (E.Same q.group) (E.rows schema db q.base) groups ∧
    groups.Pairwise (E.Precedes (E.groupKeys q.keys))

/-- the roots of a page -/
def Page (schema : Schema) (db : Content) (q : PageQuery) (roots : List Tuple) : Prop :=
  ∃ groups pairs, E.Grouped schema db q groups ∧
    E.Ordered ((E.groupKeys q.keys).map fun k => (fun p : Tuple × List Joined => k.1 p.2, k.2))
      (E.matchGroups (db (tableOf q.base.entity)) (cut q.base.limit q.base.offset groups)) pairs ∧
    roots = pairs.map (·.1)

/-- the selected columns of a row -/
def project (e : Entity) (t : Tuple) : Tuple :=
  .ofList (e.selectable.map fun c => (c.name, cell t c.name))

/-- roots as a result -/
def resultOf (e : Entity) (roots : List Tuple) : ResultSet :=
  ⟨.ofList (e.selectable.map fun c => (c.name, c.type.sqlName)), roots.map (project e)⟩

/-- the answers that a query may get -/
def Answer (schema : Schema) (db : Content) : Query → ResultSet → Prop
  | .flat plan, rs => ∃ roots, E.Flat schema db plan roots ∧ rs = resultOf plan.entity roots
  | .page q, rs => ∃ roots, E.Page schema db q roots ∧ rs = resultOf q.base.entity roots

/-! ### every query has an answer -/

variable {E}

theorem Same.symm {columns : List ColumnRef} {r s : Joined} (h : E.Same columns r s) :
    E.Same columns s r := fun c hc => (h c hc).symm

theorem Same.trans {columns : List ColumnRef} {r s t : Joined} (h : E.Same columns r s)
    (h' : E.Same columns s t) : E.Same columns r t := fun c hc => (h c hc).trans (h' c hc)

theorem exists_grouping (columns : List ColumnRef) (rows : List Joined) :
    ∃ groups, Grouping (E.Same columns) rows groups := by
  classical
  induction hn : rows.length using Nat.strongRecOn generalizing rows with
  | ind n ih =>
    cases rows with
    | nil => exact ⟨[], .refl _, by simp, by simp, .nil⟩
    | cons r rows =>
      -- the first group is that of the first row
      have hlt : (rows.filter fun s => ¬ E.Same columns r s).length < n := by
        have := List.length_filter_le (fun s => decide ¬ E.Same columns r s) rows
        simp only [List.length_cons] at hn
        omega
      obtain ⟨groups, h⟩ := ih _ hlt _ rfl
      have hrest : ∀ g ∈ groups, ∀ s ∈ g, ¬ E.Same columns r s := by
        intro g hg s hs
        have hmem := h.perm.mem_iff.1 (List.mem_flatten.2 ⟨g, hg, hs⟩)
        simpa using (List.mem_filter.1 hmem).2
      have hfirst : ∀ s ∈ r :: rows.filter fun s => E.Same columns r s, E.Same columns r s := by
        intro s hs
        rcases List.mem_cons.1 hs with rfl | hs
        · exact fun c _ => E.tied_refl _
        · simpa using (List.mem_filter.1 hs).2
      refine ⟨(r :: rows.filter fun s => E.Same columns r s) :: groups, ?_, ?_, ?_, ?_⟩
      · rw [List.flatten_cons, List.cons_append]
        refine .cons r (.trans (.append_left _ h.perm) ?_)
        simpa using List.filter_append_perm (fun s => decide (E.Same columns r s)) rows
      · rw [List.forall_mem_cons]
        exact ⟨List.cons_ne_nil _ _, h.inhabited⟩
      · rw [List.forall_mem_cons]
        exact ⟨fun a ha b hb => (hfirst a ha).symm.trans (hfirst b hb), h.within⟩
      · refine List.pairwise_cons.2 ⟨fun g hg a ha b hb hab => ?_, h.across⟩
        exact hrest g hg b hb ((hfirst a ha).trans hab)

theorem exists_flat (schema : Schema) (db : Content) (plan : SelectPlan) :
    ∃ roots, E.Flat schema db plan roots := by
  obtain ⟨ordered, h⟩ := E.exists_ordered (E.rowKeys plan.order) (E.rows schema db plan)
  exact ⟨_, ordered, h, rfl⟩

theorem exists_page (schema : Schema) (db : Content) (q : PageQuery) :
    ∃ roots, E.Page schema db q roots := by
  obtain ⟨groups, h⟩ := exists_grouping (E := E) q.group (E.rows schema db q.base)
  obtain ⟨sorted, hsorted⟩ := E.exists_ordered (E.groupKeys q.keys) groups
  have hmem : ∀ g, g ∈ sorted ↔ g ∈ groups := fun g => hsorted.perm.mem_iff
  have hgrouped : E.Grouped schema db q sorted := by
    refine ⟨⟨hsorted.perm.flatten.trans h.perm, ?_, ?_, ?_⟩, hsorted.pairwise⟩
    · exact fun g hg => h.inhabited g ((hmem g).1 hg)
    · exact fun g hg => h.within g ((hmem g).1 hg)
    · exact (hsorted.perm.pairwise_iff fun h a ha b hb hab => h b hb a ha hab.symm).2 h.across
  obtain ⟨pairs, hpairs⟩ := E.exists_ordered _
    (E.matchGroups (db (tableOf q.base.entity)) (cut q.base.limit q.base.offset sorted))
  exact ⟨_, sorted, pairs, hgrouped, hpairs, rfl⟩

/-- every query has an answer -/
theorem exists_answer (schema : Schema) (db : Content) (q : Query) :
    ∃ rs, E.Answer schema db q rs := by
  cases q with
  | flat plan =>
    obtain ⟨roots, h⟩ := exists_flat (E := E) schema db plan
    exact ⟨_, roots, h, rfl⟩
  | page q =>
    obtain ⟨roots, h⟩ := exists_page (E := E) schema db q
    exact ⟨_, roots, h, rfl⟩

end Engine
end EntityAccess
