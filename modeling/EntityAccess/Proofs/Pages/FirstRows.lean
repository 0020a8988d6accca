import EntityAccess.Proofs.Query.Paged
import EntityAccess.Proofs.Repository.Distinct
import EntityAccess.Proofs.Sql.Meaning

/-!
# roots by their first rows and by their groups

An export has the roots in the order of their first joined rows; a page has them in the order of
their groups, by keys that are folded one by one.  Both are the same sequence exactly when any two
roots stand in the same order by either.

* `FirstRowsAgree` : this condition;
* `ids_eq_iff` : the two sequences of roots.
-/

namespace EntityAccess

open Engine

/-- the primary key of a row as text -/
def rootId (t : Tuple) : String :=
  match cell t primaryKey with
  | .text id => id
  | _ => ""

/-- the primary key of the root of a joined row -/
def Joined.id (row : Joined) : String := rootId row.root

/-- the primary key of the root of a group -/
def groupId (group : List Joined) : String := (group.head?.map Joined.id).getD ""

/-- the joined rows of a root -/
def rowsOf (rows : List Joined) (id : String) : List Joined := rows.filter (·.id = id)

/-- joined rows whose roots are told apart by their primary keys -/
structure Keyed (rows : List Joined) : Prop where
  text : ∀ r ∈ rows, cell r.root primaryKey = .text r.id
  unique : ∀ r ∈ rows, ∀ s ∈ rows, r.id = s.id → r.root = s.root

/-- a row that no row of its root comes before -/
structure Engine.First (E : Engine) (order : List OrderTerm) (rows : List Joined) (r : Joined) :
    Prop where
  mem : r ∈ rows
  precedes : ∀ s ∈ rows, s.id = r.id → E.Precedes (E.rowKeys order) r s

/-- the keys of a page for a plan -/
abbrev Engine.pageKeys (E : Engine) (plan : SelectPlan) : Keys (List Joined) :=
  E.groupKeys (PageQuery.ofPlan plan).keys

/-- two roots stand in the order of their first rows as in the order of their folded keys -/
def Engine.FirstRowsAgree (E : Engine) (plan : SelectPlan) (rows : List Joined) : Prop :=
  ∀ r s, E.First plan.order rows r → E.First plan.order rows s → r.id ≠ s.id →
    (E.Precedes (E.rowKeys plan.order) r s ↔
      E.Precedes (E.pageKeys plan) (rowsOf rows r.id) (rowsOf rows s.id))

namespace Keyed

variable {E : Engine} {plan : SelectPlan} {rows : List Joined} (hrows : Keyed rows)

include hrows

theorem cell_eq {r s : Joined} (hr : r ∈ rows) (hs : s ∈ rows) (hid : r.id = s.id)
    {c : ColumnRef} (hc : c.tableAlias = rootAlias) : r.cell c = s.cell c := by
  unfold Joined.cell Joined.tuple
  rw [if_pos hc, if_pos hc, hrows.unique r hr s hs hid]

theorem cell_key {r : Joined} (hr : r ∈ rows) {c : ColumnRef} (ha : c.tableAlias = rootAlias)
    (hc : c.column = primaryKey) : r.cell c = .text r.id := by
  unfold Joined.cell Joined.tuple
  rw [if_pos ha, hc, hrows.text r hr]

theorem id_eq_of_tied {r s : Joined} (hr : r ∈ rows) (hs : s ∈ rows) {c : ColumnRef}
    (ha : c.tableAlias = rootAlias) (hc : c.column = primaryKey)
    (h : E.tied (r.cell c) (s.cell c)) : r.id = s.id := by
  rw [hrows.cell_key hr ha hc, hrows.cell_key hs ha hc] at h
  exact E.le_antisymm _ _ h.1 h.2

/-- rows of one root are in one group, and no others -/
theorem same_iff {r s : Joined} (hr : r ∈ rows) (hs : s ∈ rows) :
    E.Same (PageQuery.ofPlan plan).group r s ↔ r.id = s.id := by
  constructor
  · intro h
    exact hrows.id_eq_of_tied hr hs rfl rfl (h rootKeyColumn List.mem_cons_self)
  · intro hid c hc
    have ha : c.tableAlias = rootAlias := by
      rcases List.mem_cons.1 hc with rfl | hc
      · rfl
      · obtain ⟨t, _, ht⟩ := List.mem_filterMap.1 hc
        cases t with
        | column d descending =>
          simp only [OrderTerm.sharedColumn?] at ht
          split at ht
          · next ha =>
            obtain rfl : d = c := by simpa using ht
            exact ha
          · simp at ht
        | rank v query config => simp [OrderTerm.sharedColumn?] at ht
    rw [hrows.cell_eq hr hs hid ha]
    exact E.tied_refl _

end Keyed

/-- a value of a group is shared by the rows of a root or folded -/
theorem OrderTerm.groupExpr_cases (t : OrderTerm) :
    (∃ c, t.groupExpr = .shared c ∧ c.tableAlias = rootAlias) ∨
      ∃ a x, t.groupExpr = .folded a x := by
  cases t with
  | column c descending =>
    simp only [groupExpr]
    split
    · next hc => exact .inl ⟨c, rfl, hc⟩
    · refine .inr ?_
      obtain ⟨a, n, type⟩ := c
      cases type <;> cases descending <;> exact ⟨_, _, rfl⟩
  | rank v query config => exact .inr ⟨_, _, rfl⟩

/-! ### groups -/

section Groups

variable {E : Engine} {plan : SelectPlan} {rows : List Joined} {groups : List (List Joined)}

theorem mem_rowsOf {r : Joined} (hr : r ∈ rows) : r ∈ rowsOf rows r.id :=
  List.mem_filter.2 ⟨hr, by simp⟩

theorem groupId_rowsOf {r : Joined} (hr : r ∈ rows) : groupId (rowsOf rows r.id) = r.id := by
  cases hown : rowsOf rows r.id with
  | nil => exact absurd hown (List.ne_nil_of_mem (mem_rowsOf hr))
  | cons s others =>
    have hs : s ∈ rowsOf rows r.id := hown ▸ List.mem_cons_self
    exact of_decide_eq_true (List.mem_filter.1 hs).2

theorem mem_of_mem_group (hg : Grouping (E.Same (PageQuery.ofPlan plan).group) rows groups)
    {g : List Joined} (hmem : g ∈ groups) {r : Joined} (hr : r ∈ g) : r ∈ rows :=
  hg.perm.mem_iff.1 (List.mem_flatten.2 ⟨g, hmem, hr⟩)

variable (hrows : Keyed rows) (hg : Grouping (E.Same (PageQuery.ofPlan plan).group) rows groups)

include hrows hg

theorem id_of_mem_group {g : List Joined} (hmem : g ∈ groups) {r : Joined} (hr : r ∈ g) :
    r.id = groupId g := by
  cases g with
  | nil => simp at hr
  | cons s g =>
    have hin := fun {r} => mem_of_mem_group hg hmem (r := r)
    have hs : s ∈ s :: g := List.mem_cons_self
    exact (hrows.same_iff (hin hr) (hin hs)).1 (hg.within _ hmem _ hr _ hs)

theorem exists_mem_group {g : List Joined} (hmem : g ∈ groups) :
    ∃ r ∈ g, r ∈ rows ∧ r.id = groupId g := by
  obtain ⟨r, hr⟩ := List.exists_mem_of_ne_nil g (hg.inhabited g hmem)
  exact ⟨r, hr, mem_of_mem_group hg hmem hr, id_of_mem_group hrows hg hmem hr⟩

/-- different groups have different roots -/
theorem nodup_groupIds : (groups.map groupId).Nodup := by
  refine List.pairwise_map.2 (hg.across.imp_of_mem fun {g h} hgm hhm hgh heq => ?_)
  obtain ⟨r, hr, hrin, hrid⟩ := exists_mem_group hrows hg hgm
  obtain ⟨s, hs, hsin, hsid⟩ := exists_mem_group hrows hg hhm
  exact hgh r hr s hs ((hrows.same_iff hrin hsin).2 (hrid.trans (heq.trans hsid.symm)))

theorem mem_groupIds {id : String} : id ∈ groups.map groupId ↔ ∃ r ∈ rows, r.id = id := by
  constructor
  · intro h
    obtain ⟨g, hmem, rfl⟩ := List.mem_map.1 h
    obtain ⟨r, _, hin, hid⟩ := exists_mem_group hrows hg hmem
    exact ⟨r, hin, hid⟩
  · rintro ⟨r, hr, rfl⟩
    obtain ⟨g, hmem, hrg⟩ := List.mem_flatten.1 (hg.perm.mem_iff.2 hr)
    exact id_of_mem_group hrows hg hmem hrg ▸ List.mem_map_of_mem hmem

/-- a group has the rows of its root -/
theorem perm_rowsOf {g : List Joined} (hmem : g ∈ groups) : g.Perm (rowsOf rows (groupId g)) := by
  have hnd := nodup_groupIds hrows hg
  have hown := fun {h} (hh : h ∈ groups) {r} => id_of_mem_group hrows hg hh (r := r)
  have hself : g.filter (·.id = groupId g) = g :=
    List.filter_eq_self.2 fun r hr => by simpa using hown hmem hr
  have hnone : ∀ hs : List (List Joined), (∀ h ∈ hs, h ∈ groups ∧ groupId h ≠ groupId g) →
      hs.flatten.filter (·.id = groupId g) = [] := by
    intro hs hother
    refine List.filter_eq_nil_iff.2 fun r hr => ?_
    obtain ⟨h, hh, hr⟩ := List.mem_flatten.1 hr
    rw [hown (hother h hh).1 hr]
    simpa using (hother h hh).2
  obtain ⟨pre, post, rfl⟩ := List.append_of_mem hmem
  have hflat : (pre ++ g :: post).flatten.filter (·.id = groupId g) = g := by
    rw [List.map_append, List.map_cons, List.nodup_middle, List.nodup_cons, List.mem_append,
      not_or] at hnd
    rw [List.flatten_append, List.flatten_cons, List.filter_append, List.filter_append, hself,
      hnone pre fun h hh => ⟨List.mem_append_left _ hh, fun heq => ?_⟩,
      hnone post fun h hh => ⟨by simp [hh], fun heq => ?_⟩, List.nil_append, List.append_nil]
    · exact hnd.1.2 (heq ▸ List.mem_map_of_mem hh)
    · exact hnd.1.1 (heq ▸ List.mem_map_of_mem hh)
  have hperm := hg.perm.filter (·.id = groupId g)
  rw [hflat] at hperm
  exact hperm

/-- a group has the values of its root -/
theorem tied_rowsOf {g : List Joined} (hmem : g ∈ groups) (t : OrderTerm) :
    E.tied (E.groupValue g t.groupExpr) (E.groupValue (rowsOf rows (groupId g)) t.groupExpr) := by
  have hperm := perm_rowsOf hrows hg hmem
  rcases t.groupExpr_cases with ⟨c, hexpr, hc⟩ | ⟨a, x, hexpr⟩
  · rw [hexpr]
    cases g with
    | nil => exact absurd rfl (hg.inhabited _ hmem)
    | cons r g =>
      cases hown : rowsOf rows (groupId (r :: g)) with
      | nil => exact absurd (hown ▸ hperm).length_eq (by simp)
      | cons s others =>
        have hs : s ∈ rowsOf rows (groupId (r :: g)) := hown ▸ List.mem_cons_self
        have hin := List.mem_filter.1 hs
        have hcell : r.cell c = s.cell c :=
          hrows.cell_eq (mem_of_mem_group hg hmem List.mem_cons_self) hin.1
            (of_decide_eq_true hin.2).symm hc
        simp only [groupValue, List.head?_cons, Option.map_some, Option.getD_some, hcell]
        exact E.tied_refl _
  · rw [hexpr]
    exact tied_aggregate a (hperm.map _)

end Groups

/-! ### the two sequences -/

section Sequences

variable {E : Engine} {plan : SelectPlan} {rows ordered : List Joined}
  {groups : List (List Joined)}

/-- the rows that are kept are the first ones of their roots -/
theorem first_of_kept {order : List OrderTerm} (ho : E.Ordered (E.rowKeys order) rows ordered)
    {r : Joined} (hr : r ∈ firstOfEach Joined.id [] ordered) : E.First order rows r where
  mem := ho.perm.mem_iff.1 ((firstOfEach_sublist _ _ _).subset hr)
  precedes _ hs hid :=
    rel_firstOfEach (fun a => precedes_refl _ a) ho.pairwise hr (ho.perm.mem_iff.2 hs) hid

theorem mem_keptIds {order : List OrderTerm} (ho : E.Ordered (E.rowKeys order) rows ordered)
    {id : String} :
    id ∈ (firstOfEach Joined.id [] ordered).map Joined.id ↔ ∃ r ∈ rows, r.id = id := by
  rw [List.mem_map]
  constructor
  · rintro ⟨r, hr, hid⟩
    exact ⟨r, (first_of_kept ho hr).mem, hid⟩
  · rintro ⟨r, hr, rfl⟩
    exact exists_firstOfEach (ho.perm.mem_iff.2 hr) List.not_mem_nil

/-- roots by the order of their first rows -/
def ByFirstRows (E : Engine) (order : List OrderTerm) (rows : List Joined) (a b : String) : Prop :=
  ∃ r s, E.First order rows r ∧ E.First order rows s ∧ r.id = a ∧ s.id = b ∧
    E.Precedes (E.rowKeys order) r s

/-- roots by the order of their folded keys -/
def ByGroups (E : Engine) (plan : SelectPlan) (rows : List Joined) (a b : String) : Prop :=
  E.Precedes (E.pageKeys plan) (rowsOf rows a) (rowsOf rows b)

/-- any first rows of two roots stand in the order of the roots -/
theorem byFirstRows_iff {order : List OrderTerm} {r s : Joined} (hr : E.First order rows r)
    (hs : E.First order rows s) :
    ByFirstRows E order rows r.id s.id ↔ E.Precedes (E.rowKeys order) r s := by
  constructor
  · rintro ⟨r', s', hr', hs', hrid, hsid, h⟩
    exact precedes_trans (hr.precedes r' hr'.mem hrid)
      (precedes_trans h (hs'.precedes s hs.mem hsid.symm))
  · intro h
    exact ⟨r, s, hr, hs, rfl, rfl, h⟩

variable (hrows : Keyed rows) (hkey : ∃ t ∈ plan.order, t.IsRootKey)

include hrows hkey

/-- rows in either order have one root -/
theorem id_eq_of_precedes {r s : Joined} (hr : r ∈ rows) (hs : s ∈ rows)
    (hrs : E.Precedes (E.rowKeys plan.order) r s) (hsr : E.Precedes (E.rowKeys plan.order) s r) :
    r.id = s.id := by
  obtain ⟨t, hmem, ht⟩ := hkey
  cases t with
  | column c descending =>
    exact hrows.id_eq_of_tied hr hs ht.1 ht.2
      (tied_of_precedes hrs hsr (List.mem_map_of_mem hmem))
  | rank v query config => exact ht.elim

theorem byFirstRows_antisymm {a b : String} (hab : ByFirstRows E plan.order rows a b)
    (hba : ByFirstRows E plan.order rows b a) : a = b := by
  obtain ⟨r, s, hr, hs, rfl, rfl, h⟩ := hab
  exact id_eq_of_precedes hrows hkey hr.mem hs.mem h ((byFirstRows_iff hs hr).1 hba)

/-- groups in either order have one root -/
theorem groupId_eq_of_precedes {g h : List Joined} (hg : g ≠ []) (hh : h ≠ [])
    (hgr : ∀ r ∈ g, r ∈ rows) (hhr : ∀ r ∈ h, r ∈ rows) (hgh : E.Precedes (E.pageKeys plan) g h)
    (hhg : E.Precedes (E.pageKeys plan) h g) : groupId g = groupId h := by
  obtain ⟨r, g, rfl⟩ := List.exists_cons_of_ne_nil hg
  obtain ⟨s, h, rfl⟩ := List.exists_cons_of_ne_nil hh
  obtain ⟨t, hmem, ht⟩ := hkey
  cases t with
  | column c descending =>
    have hmem' := List.mem_map_of_mem (f := fun t => (OrderTerm.groupExpr t, t.descending)) hmem
    have htied := tied_of_precedes hgh hhg (List.mem_map_of_mem hmem')
    simp only [OrderTerm.groupExpr, if_pos ht.1] at htied
    exact hrows.id_eq_of_tied (hgr r List.mem_cons_self) (hhr s List.mem_cons_self) ht.1 ht.2 htied
  | rank v query config => exact ht.elim

theorem byGroups_antisymm {r s : Joined} (hr : r ∈ rows) (hs : s ∈ rows)
    (hab : ByGroups E plan rows r.id s.id) (hba : ByGroups E plan rows s.id r.id) :
    r.id = s.id := by
  have hin : ∀ {id : String}, ∀ r ∈ rowsOf rows id, r ∈ rows := fun r hr => (List.mem_filter.1 hr).1
  have hid := groupId_eq_of_precedes hrows hkey (List.ne_nil_of_mem (mem_rowsOf hr))
    (List.ne_nil_of_mem (mem_rowsOf hs)) hin hin hab hba
  rwa [groupId_rowsOf hr, groupId_rowsOf hs] at hid

omit hkey in
/-- the groups of a page are in the order of the folded keys of their roots -/
theorem pairwise_byGroups (hg : Grouping (E.Same (PageQuery.ofPlan plan).group) rows groups)
    (hsorted : groups.Pairwise (E.Precedes (E.pageKeys plan))) :
    (groups.map groupId).Pairwise (ByGroups E plan rows) := by
  have htied : ∀ g ∈ groups, ∀ k ∈ E.pageKeys plan,
      E.tied (k.1 g) (k.1 (rowsOf rows (groupId g))) := by
    intro g hgm k hk
    obtain ⟨x, hx, rfl⟩ := List.mem_map.1 hk
    obtain ⟨t, _, rfl⟩ := List.mem_map.1 hx
    exact tied_rowsOf hrows hg hgm t
  refine List.pairwise_map.2 (hsorted.imp_of_mem fun {g h} hgm hhm hgh => ?_)
  exact (precedes_congr (htied g hgm) (htied h hhm)).1 hgh

/-- all pages have one sequence of roots -/
theorem groupIds_eq {groups' : List (List Joined)}
    (hg : Grouping (E.Same (PageQuery.ofPlan plan).group) rows groups)
    (hsorted : groups.Pairwise (E.Precedes (E.pageKeys plan)))
    (hg' : Grouping (E.Same (PageQuery.ofPlan plan).group) rows groups')
    (hsorted' : groups'.Pairwise (E.Precedes (E.pageKeys plan))) :
    groups.map groupId = groups'.map groupId := by
  have hperm : (groups.map groupId).Perm (groups'.map groupId) := by
    refine (List.perm_ext_iff_of_nodup (nodup_groupIds hrows hg) (nodup_groupIds hrows hg')).2 ?_
    intro id
    rw [mem_groupIds hrows hg, mem_groupIds hrows hg']
  refine List.Perm.eq_of_pairwise (fun a b ha hb hab hba => ?_)
    (pairwise_byGroups hrows hg hsorted) (pairwise_byGroups hrows hg' hsorted') hperm
  obtain ⟨r, hr, rfl⟩ := (mem_groupIds hrows hg).1 ha
  obtain ⟨s, hs, rfl⟩ := (mem_groupIds hrows hg').1 hb
  exact byGroups_antisymm hrows hkey hr hs hab hba

omit hkey in
/-- an export has the roots of a page -/
theorem perm_ids (ho : E.Ordered (E.rowKeys plan.order) rows ordered)
    (hg : Grouping (E.Same (PageQuery.ofPlan plan).group) rows groups) :
    (groups.map groupId).Perm ((firstOfEach Joined.id [] ordered).map Joined.id) := by
  refine (List.perm_ext_iff_of_nodup (nodup_groupIds hrows hg) (nodup_firstOfEach _ _ _)).2 ?_
  intro id
  rw [mem_groupIds hrows hg, mem_keptIds ho]

/-- an export has the roots in the sequence of a page exactly when first rows and folded keys
agree -/
theorem ids_eq_iff (ho : E.Ordered (E.rowKeys plan.order) rows ordered)
    (hg : Grouping (E.Same (PageQuery.ofPlan plan).group) rows groups)
    (hsorted : groups.Pairwise (E.Precedes (E.pageKeys plan))) :
    (firstOfEach Joined.id [] ordered).map Joined.id = groups.map groupId ↔
      E.FirstRowsAgree plan rows := by
  have hkept : ((firstOfEach Joined.id [] ordered).map Joined.id).Pairwise
      (ByFirstRows E plan.order rows) := by
    refine List.pairwise_map.2 ?_
    refine (ho.pairwise.sublist (firstOfEach_sublist _ _ _)).imp_of_mem fun hr hs h => ?_
    exact (byFirstRows_iff (first_of_kept ho hr) (first_of_kept ho hs)).2 h
  rw [eq_iff_of_pairwise (perm_ids hrows ho hg) (nodup_firstOfEach _ _ _) hkept
    (pairwise_byGroups hrows hg hsorted)]
  · constructor
    · intro h r s hr hs hne
      rw [← byFirstRows_iff hr hs]
      exact h _ ((mem_keptIds ho).2 ⟨r, hr.mem, rfl⟩) _ ((mem_keptIds ho).2 ⟨s, hs.mem, rfl⟩) hne
    · intro h a ha b hb hne
      obtain ⟨r, hr, rfl⟩ := List.mem_map.1 ha
      obtain ⟨s, hs, rfl⟩ := List.mem_map.1 hb
      have hr := first_of_kept ho hr
      have hs := first_of_kept ho hs
      exact (byFirstRows_iff hr hs).trans (h r s hr hs hne)
  · intro a _ b _ hab hba
    exact byFirstRows_antisymm hrows hkey hab hba
  · intro a ha b hb hab hba
    obtain ⟨r, hr, rfl⟩ := (mem_keptIds ho).1 ha
    obtain ⟨s, hs, rfl⟩ := (mem_keptIds ho).1 hb
    exact byGroups_antisymm hrows hkey hr hs hab hba

end Sequences
end EntityAccess
