import EntityAccess.Proofs.Query.Conditions
import EntityAccess.Proofs.Repository.Reads
import EntityAccess.Proofs.Sql.Grouping

/-!
# the order of paged reads

The sort keys of a paged read become the columns at the end of their paths, in their order and each
column once, where it is first named; the primary key of the root comes last unless it is one of
them.  A search by relevance puts its term before all others.

* `order_addOrders` : of terms on one target the first is kept;
* `SortKey.Denotes` : the column that a sort key orders by;
* `PagedOrder` : the order of a paged read;
* `pagedOrder_of_planOf`, `PagedOrder.search` : the plans of paged reads, and of searches;
* `paged_reads_ordered` : what listings, exports and searches execute.
-/

namespace EntityAccess

open EntityAccess.Action Outcome

/-! ### targets -/

namespace OrderTerm

theorem sameTarget_comm (t u : OrderTerm) : t.sameTarget u = u.sameTarget t := by
  cases t <;> cases u <;> simp [sameTarget, Bool.beq_comm]

theorem sameTarget_trans {t u w : OrderTerm} (htu : t.sameTarget u = true)
    (huw : u.sameTarget w = true) : t.sameTarget w = true := by
  cases t <;> cases u <;> cases w <;> simp_all [sameTarget]

/-- terms on the primary key of the root are on one target -/
theorem IsRootKey.sameTarget {t u : OrderTerm} (ht : t.IsRootKey) (hu : u.IsRootKey) :
    t.sameTarget u = true := by
  cases t with
  | rank v query config => exact ht.elim
  | column c descending =>
    cases u with
    | rank v query config => exact hu.elim
    | column d descending' =>
      simp [OrderTerm.sameTarget, ht.1, ht.2, hu.1, hu.2]

end OrderTerm

theorem eraseDupsBy_sublist {α : Type} (r : α → α → Bool) (l : List α) :
    (l.eraseDupsBy r).Sublist l := by
  match l with
  | [] => exact .slnil
  | a :: l =>
    rw [List.eraseDupsBy_cons]
    exact ((eraseDupsBy_sublist r _).trans List.filter_sublist).cons_cons a
termination_by l.length
decreasing_by exact Nat.lt_succ_of_le (List.length_filter_le _ _)

theorem pairwise_eraseDupsBy {α : Type} (r : α → α → Bool) (l : List α) :
    (l.eraseDupsBy r).Pairwise fun a b => r b a = false := by
  match l with
  | [] => exact .nil
  | a :: l =>
    rw [List.eraseDupsBy_cons]
    refine List.pairwise_cons.2 ⟨fun b hb => ?_, pairwise_eraseDupsBy r _⟩
    simpa using (List.mem_filter.1 ((eraseDupsBy_sublist r _).subset hb)).2
termination_by l.length
decreasing_by exact Nat.lt_succ_of_le (List.length_filter_le _ _)

/-- terms on targets that differ, one of them the primary key of the root -/
theorem countP_isRootKey {order : List OrderTerm}
    (hapart : order.Pairwise fun t u => t.sameTarget u = false)
    (hkey : ∃ t ∈ order, t.IsRootKey) : order.countP (·.IsRootKey) = 1 := by
  induction order with
  | nil => simp at hkey
  | cons t order ih =>
    obtain ⟨hfirst, hrest⟩ := List.pairwise_cons.1 hapart
    by_cases ht : t.IsRootKey
    · have hnone : order.countP (·.IsRootKey) = 0 := by
        refine List.countP_eq_zero.2 fun u hu => ?_
        have hno : ¬ u.IsRootKey := fun hkey => by simpa [hfirst u hu] using ht.sameTarget hkey
        simpa using hno
      simp [ht, hnone]
    · obtain ⟨u, hu, hkey⟩ := hkey
      rcases List.mem_cons.1 hu with rfl | hu
      · exact absurd hkey ht
      · simp [ht, ih hrest ⟨u, hu, hkey⟩]

namespace SelectPlan

theorem hasOrder_addOrder {plan : SelectPlan} {t : OrderTerm} (ht : plan.hasOrder t = false)
    (u : OrderTerm) : (plan.addOrder t).hasOrder u = (plan.hasOrder u || t.sameTarget u) := by
  unfold addOrder
  rw [ht]
  simp [hasOrder]

/-- of the terms that are added on one target the first is kept, unless there has been one -/
theorem order_addOrders (plan : SelectPlan) (ts : List OrderTerm) :
    (plan.addOrders ts).order =
      plan.order ++ (ts.filter fun t => !plan.hasOrder t).eraseDupsBy OrderTerm.sameTarget := by
  induction ts generalizing plan with
  | nil => exact (List.append_nil _).symm
  | cons t ts ih =>
    rw [show plan.addOrders (t :: ts) = (plan.addOrder t).addOrders ts from rfl, ih]
    cases ht : plan.hasOrder t with
    | true => rw [addOrder_of_mem ht, List.filter_cons_of_neg (by simp [ht])]
    | false =>
      have horder : (plan.addOrder t).order = plan.order ++ [t] := by simp [addOrder, ht]
      have hfilter : (ts.filter fun u => !(plan.addOrder t).hasOrder u) =
          (ts.filter fun u => !plan.hasOrder u).filter fun u => u.sameTarget t = false := by
        rw [List.filter_filter]
        refine List.filter_congr fun u _ => ?_
        rw [hasOrder_addOrder ht, OrderTerm.sameTarget_comm]
        cases plan.hasOrder u <;> cases u.sameTarget t <;> rfl
      rw [List.filter_cons_of_pos (by simp [ht]), List.eraseDupsBy_cons, horder, hfilter,
        List.append_assoc, List.singleton_append]

theorem order_addOrders_of_nil {plan : SelectPlan} (h : plan.order = []) (ts : List OrderTerm) :
    (plan.addOrders ts).order = ts.eraseDupsBy OrderTerm.sameTarget := by
  have hnone : ∀ t, plan.hasOrder t = false := fun t => by simp [hasOrder, h]
  rw [order_addOrders, h, List.nil_append, List.filter_eq_self.2 fun t _ => by simp [hnone]]

/-- a term at the end whose target is there changes nothing -/
theorem addOrders_concat (plan : SelectPlan) {ts : List OrderTerm} {t : OrderTerm}
    (h : ∃ u ∈ ts, u.sameTarget t = true) : plan.addOrders (ts ++ [t]) = plan.addOrders ts := by
  obtain ⟨u, hu, hut⟩ := h
  obtain ⟨ts', hts', hall⟩ := plan.addOrders_eq ts
  obtain ⟨w, hw, hwu⟩ := hall u hu
  have hhas : (plan.addOrders ts).hasOrder t = true := by
    rw [hts']
    exact List.any_eq_true.2 ⟨w, hw, OrderTerm.sameTarget_trans hwu hut⟩
  exact (List.foldl_append ..).trans (addOrder_of_mem hhas)

end SelectPlan

/-! ### sort keys -/

/-- a sort key orders by the column at the end of its path -/
def SortKey.Denotes (schema : Schema) (root : Entity) (k : SortKey) (t : OrderTerm) : Prop :=
  ∃ rs last, Walk schema root rs last ∧ pathOf rs = k.path ∧
    ∃ c ∈ last.columns, c.name = k.field ∧ c.type ≠ .searchVector ∧
      t = .column (k.path.column c) k.descending

variable {schema : Schema} {root : Entity}

section

variable (hs : schema.WellFormed) (hroot : root ∈ schema.entities)

include hs hroot

/-- the column that a path leads to, when the path has been joined -/
theorem exists_column_of_columnRef {paths : List Path} {js : Joins}
    (hjs : resolveJoins schema root paths = .ok js) {p : Path} (hp : p ∈ paths) {field : String}
    {ref : ColumnRef} (h : columnRef schema root js p field = .ok ref) :
    ∃ rs last, Walk schema root rs last ∧ pathOf rs = p ∧
      ∃ c ∈ last.columns, c.name = field ∧ c.type ≠ .searchVector ∧ ref = p.column c := by
  obtain ⟨part, hpart⟩ := resolves_iff.1 ⟨js, hjs⟩ p hp
  obtain ⟨rs, last, hw, rfl, rfl⟩ := exists_walk_of_walk (p := []) rfl hpart
  refine ⟨rs, last, hw, rfl, ?_⟩
  unfold columnRef at h
  split at h
  · next hnil =>
    obtain rfl : rs = [] := by simpa [pathOf] using hnil
    cases hw
    obtain ⟨c, hc, h⟩ := bind_eq_ok.1 h
    obtain rfl := Except.ok.inj h
    obtain ⟨hmem, hname, htype⟩ := Entity.scalarColumn_mem hc
    exact ⟨c, hmem, hname, htype, rfl⟩
  · next hne =>
    obtain ⟨j, hj, halias, hentity⟩ := hw.last_join (fun hnil => hne (congrArg pathOf hnil)) []
    rw [List.nil_append] at hj halias
    rw [at?_of_walk hs hroot hjs hp hpart hj] at h
    simp only [hentity, Schema.entity?_of_mem hs (hw.mem hroot)] at h
    obtain ⟨c, hc, h⟩ := bind_eq_ok.1 h
    obtain rfl := Except.ok.inj h
    obtain ⟨hmem, hname, htype⟩ := Entity.scalarColumn_mem hc
    refine ⟨c, hmem, hname, htype, ?_⟩
    simp [Path.column, Path.rowAlias, hne, halias]

theorem denotes_of_orderOf {paths : List Path} {js : Joins}
    (hjs : resolveJoins schema root paths = .ok js) {k : SortKey} (hk : k.path ∈ paths)
    {t : OrderTerm} (h : orderOf schema root js k = .ok t) : k.Denotes schema root t := by
  unfold orderOf at h
  obtain ⟨ref, href, h⟩ := bind_eq_ok.1 h
  obtain rfl := Except.ok.inj h
  obtain ⟨rs, last, hw, hpath, c, hc, hname, htype, rfl⟩ :=
    exists_column_of_columnRef hs hroot hjs hk href
  exact ⟨rs, last, hw, hpath, c, hc, hname, htype, rfl⟩

end

/-! ### orders -/

/-- the order by the primary key of the root, ascending -/
def rootKeyTerm : OrderTerm := .column rootKeyColumn false

/-- the first term on each target, and the primary key of the root after all others -/
def keyedTerms (terms : List OrderTerm) : List OrderTerm :=
  (terms ++ [rootKeyTerm]).eraseDupsBy OrderTerm.sameTarget

/-- the columns of a paged read: those of its sort keys, each where it is first named, and the
primary key of the root; without sort keys the newest first -/
structure PagedColumns (schema : Schema) (root : Entity) (sort : List SortKey)
    (columns : List OrderTerm) : Prop where
  keys : sort ≠ [] → ∃ terms, List.Forall₂ (SortKey.Denotes schema root) sort terms ∧
    columns = keyedTerms terms
  default : sort = [] → ∃ c ∈ root.columns, c.name = createdAt ∧ c.type ≠ .searchVector ∧
    columns = [.column (Path.column [] c) true, rootKeyTerm]

/-- the order of a paged read: its columns, after the relevance of a search if there is one -/
structure PagedOrder (schema : Schema) (root : Entity) (sort : List SortKey)
    (rank : Option OrderTerm) (order : List OrderTerm) : Prop where
  key_once : order.countP (·.IsRootKey) = 1
  apart : order.Pairwise fun t u => t.sameTarget u = false
  columns : ∃ columns, PagedColumns schema root sort columns ∧ order = rank.toList ++ columns

theorem isRank_of_denotes {sort : List SortKey} {terms : List OrderTerm}
    (h : List.Forall₂ (SortKey.Denotes schema root) sort terms) :
    ∀ t ∈ terms, t.isRank = false := by
  induction h with
  | nil => exact List.forall_mem_nil _
  | cons hk _ ih =>
    obtain ⟨_, _, _, _, _, _, _, _, rfl⟩ := hk
    exact List.forall_mem_cons.2 ⟨rfl, ih⟩

theorem pairwise_keyedTerms (terms : List OrderTerm) :
    (keyedTerms terms).Pairwise fun t u => t.sameTarget u = false :=
  (pairwise_eraseDupsBy _ _).imp fun h => (OrderTerm.sameTarget_comm _ _).trans h

/-- the newest first, and then by the primary key -/
theorem keyedTerms_createdAt {c : Column} (hname : c.name = createdAt) :
    keyedTerms [.column (Path.column [] c) true] =
      [.column (Path.column [] c) true, rootKeyTerm] := by
  have hne : (primaryKey == c.name) = false := by
    rw [hname]
    decide
  simp [keyedTerms, List.eraseDupsBy_cons, OrderTerm.sameTarget, Path.column, rootKeyTerm,
    rootKeyColumn, hne]

/-- none of the columns is a relevance -/
theorem PagedColumns.isRank {sort : List SortKey} {columns : List OrderTerm}
    (h : PagedColumns schema root sort columns) : ∀ t ∈ columns, t.isRank = false := by
  intro t ht
  by_cases hsort : sort = []
  · obtain ⟨c, _, _, _, rfl⟩ := h.default hsort
    simp only [List.mem_cons, List.not_mem_nil, or_false] at ht
    rcases ht with rfl | rfl <;> rfl
  · obtain ⟨terms, hterms, rfl⟩ := h.keys hsort
    rcases List.mem_append.1 ((eraseDupsBy_sublist _ _).subset ht) with ht | ht
    · exact isRank_of_denotes hterms t ht
    · rw [List.mem_singleton.1 ht]
      rfl

/-- the order term of the primary key -/
theorem orderOf_primaryKey (he : root.WellFormed) (js : Joins) :
    orderOf schema root js (.ascending primaryKey) = .ok (rootKeyTerm) := by
  have hkey : root.scalarColumn primaryKey = .ok keyColumn :=
    Entity.scalarColumn_of_mem he he.key_mem (by decide)
  unfold orderOf columnRef SortKey.ascending
  rw [if_pos rfl, hkey]
  rfl

/-- the terms of a paged read are those of the keys of the caller, and the primary key -/
theorem exists_callerTerms (he : root.WellFormed) {sort : List SortKey} {js : Joins}
    {ts : List OrderTerm}
    (hts : (effectiveSort sort .paged).map (orderOf schema root js) = ts.map .ok)
    (plan : SelectPlan) :
    ∃ terms : List OrderTerm, (callerKeys sort).map (orderOf schema root js) = terms.map .ok ∧
      plan.addOrders ts = plan.addOrders (terms ++ [rootKeyTerm]) := by
  rcases effectiveSort_paged sort with ⟨⟨k, hk, hpath, hfield⟩, hsort⟩ | hsort
  · rw [hsort] at hts
    refine ⟨ts, hts, (plan.addOrders_concat ?_).symm⟩
    have hterm := List.mem_map_of_mem (f := orderOf schema root js) hk
    rw [hts] at hterm
    obtain ⟨t, ht, hok⟩ := List.mem_map.1 hterm
    exact ⟨t, ht, (isRootKey_of_orderOf hpath hfield hok.symm).sameTarget ⟨rfl, rfl⟩⟩
  · rw [hsort, List.map_append, List.map_singleton, orderOf_primaryKey he, eq_comm,
      List.map_eq_append_iff] at hts
    obtain ⟨terms, last, rfl, hterms, hlast⟩ := hts
    obtain ⟨t, rfl, ht⟩ := List.map_eq_singleton_iff.1 hlast
    obtain rfl := Except.ok.inj ht
    exact ⟨terms, hterms.symm, rfl⟩

section

variable (hs : schema.WellFormed) (hroot : root ∈ schema.entities)

include hs hroot

/-- the terms of the keys of the caller, when the paths of a paged read have been joined -/
theorem denotes_callerKeys {paths : List Path} {sort : List SortKey} {js : Joins}
    (hjs : resolveJoins schema root (paths ++ (effectiveSort sort .paged).map (·.path)) = .ok js)
    {terms : List OrderTerm}
    (hterms : (callerKeys sort).map (orderOf schema root js) = terms.map .ok) :
    List.Forall₂ (SortKey.Denotes schema root) (callerKeys sort) terms := by
  have hsub : callerKeys sort ⊆ effectiveSort sort .paged := by
    rcases effectiveSort_paged sort with ⟨_, hsort⟩ | hsort <;> rw [hsort]
    · exact List.Subset.refl _
    · exact List.subset_append_left _ _
  have hall : List.Forall₂ (fun k t => orderOf schema root js k = .ok t) (callerKeys sort)
      terms := by
    rw [← List.forall₂_map_right_iff (R := fun k r => orderOf schema root js k = r), ← hterms,
      List.forall₂_map_right_iff]
    exact List.forall₂_same.2 fun _ _ => rfl
  refine List.forall₂_iff_zip.2 ⟨hall.length_eq, fun {k t} hzip => ?_⟩
  have hk : k ∈ effectiveSort sort .paged := hsub (List.of_mem_zip hzip).1
  exact denotes_of_orderOf hs hroot hjs (List.mem_append_right _ (List.mem_map_of_mem hk))
    ((List.forall₂_iff_zip.1 hall).2 hzip)

/-- the plans of paged reads -/
theorem pagedOrder_of_planOf {filters : Filters} {sort : List SortKey} {plan : SelectPlan}
    (h : planOf schema root filters sort .paged = .ok plan) :
    PagedOrder schema root sort none plan.order := by
  have hkeyed := (paged_of_planOf h).keyed
  obtain ⟨fs, _, h⟩ := bind_eq_ok.1 h
  obtain ⟨js, hjs, ps, ts, _, hts, rfl⟩ := SelectPlan.extend_eq_ok (assemble_eq_ok.1 h)
  rw [SelectPlan.merge_ofEntity] at hts hkeyed ⊢
  generalize hbase : ({ SelectPlan.ofEntity root with joins := js } : SelectPlan).addPredicates ps =
    base at hkeyed ⊢
  have hnil : base.order = [] := by
    rw [← hbase, SelectPlan.order_addPredicates]
    rfl
  obtain ⟨terms, hterms, hadd⟩ := exists_callerTerms (hs.entity root hroot) hts base
  have horder : (base.addOrders ts).order = keyedTerms terms := by
    rw [hadd, SelectPlan.order_addOrders_of_nil hnil]
    rfl
  rw [horder] at hkeyed ⊢
  have hdenotes := denotes_callerKeys hs hroot hjs hterms
  have hapart := pairwise_keyedTerms terms
  refine ⟨countP_isRootKey hapart hkeyed, hapart, _, ⟨fun hsort => ?_, fun hsort => ?_⟩, rfl⟩
  · rw [callerKeys, if_neg hsort] at hdenotes
    exact ⟨terms, hdenotes, rfl⟩
  · rw [callerKeys, if_pos hsort] at hdenotes
    obtain ⟨t, _, ht, hnone, rfl⟩ := List.forall₂_cons_left_iff.1 hdenotes
    obtain rfl := List.forall₂_nil_left_iff.1 hnone
    obtain ⟨rs, last, hw, hpath, c, hc, hname, htype, rfl⟩ := ht
    obtain rfl : rs = [] := by simpa [pathOf, SortKey.byDescending] using hpath
    cases hw
    exact ⟨c, hc, hname, htype, keyedTerms_createdAt hname⟩

end

/-! ### searches -/

/-- the relevance that a search orders by: that of its text, unless the text is blank or relevance
is not asked for -/
inductive SearchParams.Ranks (root : Entity) (params : SearchParams) : Option OrderTerm → Prop where
  | unranked (h : params.byRelevance = true → Text.trim params.text = "") : Ranks root params none
  | ranked {v : SearchVector} (hv : root.resolveVector params.vector = .ok v)
      (hrank : params.byRelevance = true) (htext : Text.trim params.text ≠ "") :
      Ranks root params
        (some (.rank ⟨rootAlias, v.name, .searchVector⟩ (Text.trim params.text) v.config))

/-- a relevance before columns that have been in order -/
theorem PagedOrder.prepend {sort : List SortKey} {order : List OrderTerm}
    (h : PagedOrder schema root sort none order) {t : OrderTerm} (ht : t.isRank = true) :
    (order.filter fun u => !u.sameTarget t) = order ∧
      PagedOrder schema root sort (some t) (t :: order) := by
  obtain ⟨hkey, hapart, columns, hcolumns, heq⟩ := h
  obtain rfl : order = columns := heq
  have hother : ∀ u ∈ order, u.sameTarget t = false := by
    intro u hu
    have hcolumn := hcolumns.isRank u hu
    cases t with
    | column c descending => cases ht
    | rank v query config =>
      cases u with
      | column c descending => rfl
      | rank v query config => cases hcolumn
  have hroot : ¬ t.IsRootKey := by
    cases t with
    | column c descending => cases ht
    | rank v query config => exact not_false
  refine ⟨List.filter_eq_self.2 fun u hu => by simp [hother u hu], ?_, ?_, order, hcolumns, rfl⟩
  · rw [List.countP_cons_of_neg (by simpa using hroot)]
    exact hkey
  · refine List.pairwise_cons.2 ⟨fun u hu => ?_, hapart⟩
    exact (OrderTerm.sameTarget_comm _ _).trans (hother u hu)

/-- the plans of searches -/
theorem PagedOrder.search {sort : List SortKey} {plan found : SelectPlan}
    (h : PagedOrder schema root sort none plan.order) (hentity : plan.entity = root)
    {params : SearchParams} (hsearch : plan.search params = .ok found) :
    ∃ rank, params.Ranks root rank ∧ PagedOrder schema root sort rank found.order := by
  unfold SelectPlan.search at hsearch
  dsimp only at hsearch
  split at hsearch
  · next hblank =>
    obtain rfl := Except.ok.inj hsearch
    exact ⟨none, .unranked fun _ => hblank, h⟩
  · next htext =>
    obtain ⟨v, hv, hsearch⟩ := bind_eq_ok.1 hsearch
    obtain ⟨ps, hps⟩ := plan.addPredicate_eq
      (.textMatch ⟨rootAlias, v.name, .searchVector⟩ (Text.trim params.text) v.config)
    rw [hps] at hsearch
    rw [hentity] at hv
    split at hsearch
    · next hrank =>
      obtain rfl := Except.ok.inj hsearch
      obtain ⟨hsame, hprepended⟩ := h.prepend
        (t := .rank ⟨rootAlias, v.name, .searchVector⟩ (Text.trim params.text) v.config) rfl
      refine ⟨_, .ranked hv hrank htext, ?_⟩
      dsimp only [SelectPlan.prependOrder]
      rw [hsame]
      exact hprepended
    · next hrank =>
      obtain rfl := Except.ok.inj hsearch
      exact ⟨none, .unranked fun hno => absurd hno hrank, h⟩

/-! ### what reads execute -/

/-- the order in which a statement reads the rows of a plan -/
def Statement.order? : Statement → Option (List OrderTerm)
  | .select _ plan => some plan.order
  | _ => none

/-- whatever rows of a plan a statement reads, it reads them in that order -/
def Statement.ReadsIn (order : List OrderTerm) (q : Statement) : Prop :=
  ∀ other, q.order? = some other → other = order

theorem relatedPass_readsIn (order : List OrderTerm) : RelatedPass (Statement.ReadsIn order) := by
  intro rel target records keys _ other hother
  cases hother

theorem readsIn_select {schema : Schema} {plan : SelectPlan} :
    (Statement.select schema plan).ReadsIn plan.order := by
  intro other hother
  exact (Option.some.inj hother).symm

namespace Repository

variable {r : Repository} {filters : Filters} {sort : List SortKey} {plan : SelectPlan}

/-- a page of a plan is read in the order of the plan -/
theorem issues_paginate_readsIn (load : LoadPlan) (p : PageParams) :
    Issues (Statement.ReadsIn plan.order) (fun _ => True) (r.paginate plan load p) := by
  have hcount : (Statement.count r.schema plan).ReadsIn plan.order := fun _ h => nomatch h
  have hselect : (Statement.select r.schema (plan.window (some p.perPage) (some p.offset))).ReadsIn
      plan.order := readsIn_select
  exact (issues_paginate p hcount hselect (relatedPass_readsIn _)).mono fun _ _ => trivial

/-- a listing, an export and a search once their plans are known -/
theorem reads_of_planOf (hhooks : r.hooks.Preparing)
    (hplan : planOf r.schema r.entity filters sort .paged = .ok plan) (includes : List String)
    (p : PageParams) :
    r.list filters sort includes p =
        (liftM (r.entity.includeAll r.loadPlan includes) >>= fun load => r.paginate plan load p) ∧
      r.getExport filters sort includes =
        (liftM (r.entity.includeAll r.loadPlan includes) >>= fun load => r.fetch plan load) ∧
      ∀ params found, plan.search params = .ok found →
        r.search params filters sort p = r.paginate found r.loadPlan p := by
  unfold list getExport search
  rw [compile_eq hhooks, resolveLoadPlan_eq hhooks, hplan]
  refine ⟨rfl, rfl, fun params found hfound => ?_⟩
  rw [resolveLoadPlan_eq hhooks, liftM_ok_bind, hfound, liftM_ok_bind]
  rfl

/-- a paged read is ordered by the primary key of the root once, by no target twice, and by the
sort keys of the caller where they are first named, by default from the newest row; a search puts
its relevance first; that is the order in which listings, exports and searches read their rows -/
theorem paged_reads_ordered {d : Document} (hd : d.resolve = .ok r.schema)
    (hroot : r.entity ∈ r.schema.entities) (hhooks : r.hooks = .none) {σ : Type}
    {store : Program.Store σ} {s s' : σ} {log : List Event}
    (hplan : (r.compile filters sort .paged).runOn store s = (.ok plan, log, s')) :
    PagedOrder r.schema r.entity sort none plan.order ∧
    (∀ includes p,
      Issues (Statement.ReadsIn plan.order) (fun _ => True) (r.list filters sort includes p) ∧
      Issues (Statement.ReadsIn plan.order) (fun _ => True) (r.getExport filters sort includes) ∧
      ∀ load, r.entity.includeAll r.loadPlan includes = .ok load →
        r.list filters sort includes p = r.paginate plan load p ∧
        r.getExport filters sort includes = r.fetch plan load) ∧
    ∀ params found, plan.search params = .ok found →
      ∃ rank, params.Ranks r.entity rank ∧
        PagedOrder r.schema r.entity sort rank found.order ∧
        ∀ p, Issues (Statement.ReadsIn found.order) (fun _ => True)
            (r.search params filters sort p) ∧
          r.search params filters sort p = r.paginate found r.loadPlan p := by
  have hs := Document.wellFormed_of_resolve hd
  have hhooks : r.hooks.Preparing := hhooks ▸ Hooks.preparing_none
  obtain ⟨hplan, _⟩ := compile_eq_ok hhooks.customizeQuery hplan
  have hreads := reads_of_planOf hhooks hplan
  have horder := pagedOrder_of_planOf hs hroot hplan
  refine ⟨horder, fun includes p => ?_, fun params found hfound => ?_⟩
  · obtain ⟨hlist, hexport, _⟩ := hreads includes p
    have hfetch : ∀ load, Issues (Statement.ReadsIn plan.order) (fun _ => True)
        (r.fetch plan load) := fun load =>
      (issues_fetch readsIn_select (relatedPass_readsIn _)).mono fun _ _ => trivial
    rw [hlist, hexport]
    refine ⟨.liftM_bind fun load _ => issues_paginate_readsIn load p,
      .liftM_bind fun load _ => hfetch load, fun load hload => ?_⟩
    rw [hload]
    exact ⟨rfl, rfl⟩
  · obtain ⟨rank, hrank, hfoundOrder⟩ :=
      horder.search (sound_of_planOf hs hroot hplan).entity hfound
    refine ⟨rank, hrank, hfoundOrder, fun p => ?_⟩
    rw [(hreads [] p).2.2 params found hfound]
    exact ⟨issues_paginate_readsIn _ p, rfl⟩

/-- the sort keys of a caller who names one column twice and the primary key among others -/
def noteKeys : List SortKey :=
  [⟨["parent"], "title", true⟩, ⟨[], primaryKey, true⟩, ⟨["parent"], "title", false⟩,
    ⟨[], "title", false⟩]

/-- notes by relevance, then by the title of what they reply to, and no further than by the primary
key -/
theorem notes_ordered :
    ∃ plan found : SelectPlan,
      (∀ (σ : Type) (store : Program.Store σ) (s : σ),
        ((plain notesSchema notesEntity).compile [] noteKeys .paged).runOn store s =
          (.ok plan, [], s)) ∧
      plan.search ⟨" lean ", none, true⟩ = .ok found ∧
      found.order = [.rank ⟨"root", "words", .searchVector⟩ "lean" "simple",
        .column ⟨"j_parent", "title", .text⟩ true, .column ⟨"root", "id", .text⟩ true,
        .column ⟨"root", "title", .text⟩ false] ∧
      (∃ rank, SearchParams.Ranks notesEntity ⟨" lean ", none, true⟩ rank ∧
        PagedOrder notesSchema notesEntity noteKeys rank found.order) ∧
      ∀ p, Issues (Statement.ReadsIn found.order) (fun _ => True)
        ((plain notesSchema notesEntity).search ⟨" lean ", none, true⟩ [] noteKeys p) := by
  have hnotes : notesEntity ∈ notesSchema.entities := List.mem_singleton_self _
  let silent : Program.Store Unit := ⟨fun _ s => (.error .driver, s), fun s => ("", s)⟩
  have hordered : ∀ plan found : SelectPlan,
      ((plain notesSchema notesEntity).compile [] noteKeys .paged).runOn silent () =
        (.ok plan, [], ()) →
      plan.search ⟨" lean ", none, true⟩ = .ok found →
      (∃ rank, SearchParams.Ranks notesEntity ⟨" lean ", none, true⟩ rank ∧
        PagedOrder notesSchema notesEntity noteKeys rank found.order) ∧
      ∀ p, Issues (Statement.ReadsIn found.order) (fun _ => True)
        ((plain notesSchema notesEntity).search ⟨" lean ", none, true⟩ [] noteKeys p) := by
    intro plan found hplan hfound
    obtain ⟨_, _, hsearch⟩ := paged_reads_ordered (r := plain notesSchema notesEntity)
      resolve_notesDocument hnotes rfl hplan
    obtain ⟨rank, hrank, horder, hreads⟩ := hsearch _ found hfound
    exact ⟨⟨rank, hrank, horder⟩, fun p => (hreads p).1⟩
  exact ⟨_, _, fun σ store s => rfl, rfl, rfl, hordered _ _ rfl rfl⟩

end Repository

end EntityAccess
