import EntityAccess.Proofs.Actions
import EntityAccess.Proofs.Outcome
import EntityAccess.Proofs.Query.Walks
import EntityAccess.Repository.Basic

/-!
# every column has its key

The key of a column at the end of a walk leads to that column, under the alias of the walk, and
nothing but the cast of the value can fail.

* `columnRef_of_walk` : the column at the end of a walk;
* `assemble_filter`, `assemble_sort` : the plans of one filter and of one sort key;
* `compile_key` : the plan of a key that a caller writes.
-/

namespace EntityAccess

variable {schema : Schema} {root last : Entity} {rs : List Relationship} {c : Column}

/-- a column of the rows at the end of a path -/
def Path.column (p : Path) (c : Column) : ColumnRef := ⟨p.rowAlias, c.name, c.type⟩

theorem columnRef_of_walk (hs : schema.WellFormed) (hroot : root ∈ schema.entities)
    (hw : Walk schema root rs last) (hc : c ∈ last.columns) (ht : c.type ≠ .searchVector)
    {joins : Joins} (hj : joins.entries = joinsFrom [] rs) :
    columnRef schema root joins (pathOf rs) c.name = .ok ((pathOf rs).column c) := by
  have hlast := hw.mem hroot
  have hcol := Entity.scalarColumn_of_mem (hs.entity last hlast) hc ht
  unfold columnRef
  by_cases hnil : rs = []
  · subst hnil
    cases hw
    rw [if_pos (show pathOf [] = [] from rfl), hcol]
    rfl
  · have hpath : pathOf rs ≠ [] := by simpa [pathOf] using hnil
    obtain ⟨j, hmem, halias, hentity⟩ := hw.last_join hnil []
    rw [List.nil_append] at hmem halias
    have hat : joins.at? (pathOf rs) = some j := by
      unfold Joins.at?
      rw [Dict.get?_eq_some_iff, hj]
      exact hmem
    rw [if_neg hpath, hat]
    simp only [hentity, Schema.entity?_of_mem hs hlast, hcol]
    simp [bind, Except.bind, pure, Except.pure, Path.column, Path.rowAlias, hpath, halias]

section

variable (hs : schema.WellFormed) (hroot : root ∈ schema.entities)
  (hw : Walk schema root rs last) (hc : c ∈ last.columns) (ht : c.type ≠ .searchVector)

include hs hroot hw hc ht

/-- the plan of one filter on a column -/
theorem assemble_filter (op : Operator) (v : Json) :
    ∃ joins : Joins, joins.entries = joinsFrom [] rs ∧
      SelectPlan.assemble schema root [⟨⟨pathOf rs, c.name, op⟩, v⟩] [] .unsorted =
        (operandFor op c.type v).map fun x =>
          ⟨root, joins, [op.build ((pathOf rs).column c) x], [], none, none⟩ := by
  obtain ⟨joins, hres, hj⟩ := resolveJoins_of_walk hw hs hroot
  have href := columnRef_of_walk hs hroot hw hc ht hj
  refine ⟨joins, hj, ?_⟩
  have hpred : predicateOf schema root joins ⟨⟨pathOf rs, c.name, op⟩, v⟩ =
      (operandFor op c.type v).map (op.build ((pathOf rs).column c)) := by
    unfold predicateOf
    rw [href]
    rfl
  unfold SelectPlan.assemble SelectPlan.apply SelectPlan.extend SelectPlan.ofEntity
  simp only [effectiveSort, List.map_cons, List.map_nil]
  simp [hres, Joins.merge_empty, hpred]
  cases operandFor op c.type v <;> rfl

/-- the plan of one sort key on a column -/
theorem assemble_sort (descending : Bool) :
    ∃ joins : Joins, joins.entries = joinsFrom [] rs ∧
      SelectPlan.assemble schema root [] [⟨pathOf rs, c.name, descending⟩] .unsorted =
        .ok ⟨root, joins, [], [.column ((pathOf rs).column c) descending], none, none⟩ := by
  obtain ⟨joins, hres, hj⟩ := resolveJoins_of_walk hw hs hroot
  have href := columnRef_of_walk hs hroot hw hc ht hj
  refine ⟨joins, hj, ?_⟩
  have hterm : orderOf schema root joins ⟨pathOf rs, c.name, descending⟩ =
      .ok (.column ((pathOf rs).column c) descending) := by
    unfold orderOf
    rw [href]
    rfl
  unfold SelectPlan.assemble SelectPlan.apply SelectPlan.extend SelectPlan.ofEntity
  simp [effectiveSort, hres, Joins.merge_empty, hterm, untilFault, SelectPlan.addPredicates,
    SelectPlan.addOrders, SelectPlan.addOrder, SelectPlan.hasOrder]

end

/-- a plan without rules is the plan of the keys -/
theorem runOn_compile_plain (filters : Filters) (sort : List SortKey) (policy : SortPolicy)
    {σ : Type} (store : Program.Store σ) (s : σ) :
    ((Repository.plain schema root).compile filters sort policy).runOn store s =
      (planOf schema root filters sort policy, [], s) := by
  unfold Repository.compile Repository.plain
  rw [Action.runOn_liftM_bind]
  dsimp only
  cases planOf schema root filters sort policy <;> rfl

theorem planOf_filter {key : String} {k : FilterKey} (hk : readFilterKey key = .ok k) {v : Json}
    (hv : v.isNull = false) :
    planOf schema root [(key, v)] [] .unsorted =
      SelectPlan.assemble schema root [⟨k, v⟩] [] .unsorted := by
  unfold planOf Filters.present readFilters
  simp [hv, hk, bind, Except.bind, pure, Except.pure]

/-- every scalar column at the end of a walk is addressed by its keys, under an alias that belongs
to no other walk; the joins are those of the paths that the walk begins with -/
theorem compile_key {d : Document} (hd : d.resolve = .ok schema) (hroot : root ∈ schema.entities)
    (hw : Walk schema root rs last) (hc : c ∈ last.columns) (ht : c.type ≠ .searchVector) :
    ∃ joins : Joins, joins.entries = joinsFrom [] rs ∧ joins.size = rs.length ∧
      (∀ (σ : Type) (store : Program.Store σ) (s : σ),
        (∀ (op : Operator) (v : Json), v.isNull = false →
          ((Repository.plain schema root).compile [((pathOf rs).filterKey c.name op, v)] []
              .unsorted).runOn store s =
            ((operandFor op c.type v).map fun x =>
              ⟨root, joins, [op.build ((pathOf rs).column c) x], [], none, none⟩, [], s)) ∧
        (∀ v : Json, v.isNull = false →
          ((Repository.plain schema root).compile [((pathOf rs).fieldKey c.name, v)] []
              .unsorted).runOn store s =
            ((Repository.plain schema root).compile [((pathOf rs).filterKey c.name .exact, v)] []
              .unsorted).runOn store s) ∧
        ∀ descending : Bool, ∃ k, readSortKey ((pathOf rs).sortKey c.name descending) = .ok k ∧
          ((Repository.plain schema root).compile [] [k] .unsorted).runOn store s =
            (.ok ⟨root, joins, [], [.column ((pathOf rs).column c) descending], none, none⟩, [],
              s)) ∧
      ∀ (qs : List Relationship) (other : Entity), Walk schema root qs other →
        (pathOf qs).rowAlias = (pathOf rs).rowAlias → qs = rs := by
  have hs := Document.wellFormed_of_resolve hd
  have hnames := hw.names_identifiers hs hroot
  have hfield := (hs.entity last (hw.mem hroot)).columns_identifier c hc
  obtain ⟨joins, _, hj⟩ := resolveJoins_of_walk hw hs hroot
  have hsame : ∀ js : Joins, js.entries = joinsFrom [] rs → js = joins :=
    fun js hjs => Dict.ext (hjs.trans hj.symm)
  refine ⟨joins, hj, ?_, fun σ store s => ⟨?_, ?_, ?_⟩, ?_⟩
  · unfold Dict.size
    rw [hj, length_joinsFrom]
  · intro op v hv
    obtain ⟨js, hjs, hplan⟩ := assemble_filter hs hroot hw hc ht op v
    obtain rfl := hsame js hjs
    rw [runOn_compile_plain, planOf_filter (readFilterKey_filterKey hnames hfield op) hv, hplan]
  · intro v hv
    rw [runOn_compile_plain, runOn_compile_plain,
      planOf_filter (readFilterKey_filterKey hnames hfield .exact) hv,
      planOf_filter (readFilterKey_fieldKey hnames hfield) hv]
  · intro descending
    obtain ⟨js, hjs, hplan⟩ := assemble_sort hs hroot hw hc ht descending
    obtain rfl := hsame js hjs
    refine ⟨_, readSortKey_sortKey hnames hfield descending, ?_⟩
    rw [runOn_compile_plain, ← hplan]
    rfl
  · intro qs other hqs halias
    have hpath := Path.rowAlias_injective (hqs.names_identifiers hs hroot) hnames halias
    exact (hw.eq_of_pathOf hs hroot hqs hpath).1

/-- the key of the address of an owner of a task of the owner of a task -/
theorem compile_key_cycle :
    ∃ joins : Joins, joins.keys = ["owner", "owner___tasks", "owner___tasks___owner"] ∧
      ∀ (σ : Type) (store : Program.Store σ) (s : σ),
        ((Repository.plain tasksSchema tasksEntity).compile
            [("owner___tasks___owner___email__iendswith", .str ".org")] [] .unsorted).runOn
            store s =
          (.ok ⟨tasksEntity, joins,
            [.like ⟨"j_owner__tasks__owner", "email", .text⟩ "%.org" true false],
            [], none, none⟩, [], s) := by
  have htasks : tasksEntity ∈ tasksSchema.entities := List.mem_cons_self
  have husers : usersEntity ∈ tasksSchema.entities := List.mem_cons_of_mem _ List.mem_cons_self
  have howner : ownerOfTask ∈ tasksEntity.relationships := List.mem_cons_self
  have hback : tasksOfOwner ∈ usersEntity.relationships := List.mem_cons_self
  have hw : Walk tasksSchema tasksEntity [ownerOfTask, tasksOfOwner, ownerOfTask] usersEntity :=
    .step howner husers rfl (.step hback htasks rfl (.step howner husers rfl (.here _)))
  have hc : (⟨"email", .text, false, true, none, false⟩ : Column) ∈ usersEntity.columns :=
    List.mem_cons_of_mem _ List.mem_cons_self
  obtain ⟨joins, hj, _, hplans, _⟩ :=
    compile_key resolve_tasksDocument htasks hw hc (by decide)
  refine ⟨joins, ?_, fun σ store s => (hplans σ store s).1 .iEndsWith (.str ".org") rfl⟩
  unfold Dict.keys
  rw [hj]
  rfl

end EntityAccess
