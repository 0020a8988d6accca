import EntityAccess.Proofs.Repository.Fetch
import EntityAccess.Proofs.Transactions.Writes
import EntityAccess.Proofs.Transitions.Changes

/-!
# what an update assigns

An update without rules decides column by column: whether it assigns a column, and what, depends on
what the payload says of the column and on the current value of the same column.

* `names_of_assignments`, `primaryKey_not_mem` : the columns that a write assigns;
* `Entity.assigning` : the columns that an update sets;
* `Entity.cellAfter` : what it leaves in one column;
* `cellAfter_eq` : what is assigned is what is left;
* `exists_assigning` : an update is not refused for the columns that its payload leaves out;
* `Entity.fields` : the columns that an update sets only to what it assigns;
* `Repository.of_runOn_update`, `Repository.succeeds_update` : when an update succeeds.
-/

namespace EntityAccess

open EntityAccess.Action Outcome
open Program (Store)

namespace Entity

variable {e : Entity} {current : Record} {input values : Row} {assigned : Sql.Assignments}
  {name : String} {v : Json}

/-- a value of a payload as one of a column -/
def cast (e : Entity) (name : String) (v : Json) : Except Error SqlValue := do
  castWrite (← e.scalarColumn name).type v

/-- what an update without rules assigns -/
def assigning (e : Entity) (current : Record) (input : Row) : Except Error Sql.Assignments := do
  let (values, _) ← e.prepareUpdate current input
  let (kept, _) ← e.diff current values
  Repository.checkTransition e current kept
  e.assignments kept

/-- what an update with a payload leaves in a column that holds `x` -/
def cellAfter (e : Entity) (name : String) (input : Row) (x : SqlValue) : SqlValue :=
  match (e.projected input).get? name with
  | none => x
  | some v =>
    match e.cast name v with
    | .ok y => if x.sent.toJson.same y.toJson then x else y.sent
    | .error _ => x

/-! ### the values that are kept -/

theorem get?_projected (e : Entity) (input : Row) (name : String) :
    (e.projected input).get? name = (input.get? name).filter (e.takes name) :=
  Dict.get?_filter input e.takes name

theorem cellAfter_of_absent (h : input.get? name = none) (x : SqlValue) :
    e.cellAfter name input x = x := by
  unfold cellAfter
  rw [get?_projected, h]
  rfl

theorem change_isOk {entry : String × Json} :
    (∃ found, e.change current entry = .ok found) ↔ ∃ y, e.cast entry.1 entry.2 = .ok y := by
  constructor
  · rintro ⟨found, h⟩
    obtain ⟨c, hc, h⟩ := bind_eq_ok.1 h
    obtain ⟨y, hy, _⟩ := bind_eq_ok.1 h
    exact ⟨y, bind_eq_ok.2 ⟨c, hc, hy⟩⟩
  · rintro ⟨y, h⟩
    obtain ⟨c, hc, hy⟩ := bind_eq_ok.1 h
    exact ⟨_, bind_eq_ok.2 ⟨c, hc, bind_eq_ok.2 ⟨y, hy, rfl⟩⟩⟩

/-- values can be compared when they can be cast, whatever they are compared with -/
theorem diff_isOk :
    (∃ found, e.diff current values = .ok found) ↔
      ∀ entry ∈ values.entries, ∃ y, e.cast entry.1 entry.2 = .ok y := by
  have hmap : (∃ found, e.diff current values = .ok found) ↔
      ∃ found, values.entries.mapM (e.change current) = .ok found := by
    unfold diff
    cases values.entries.mapM (e.change current) with
    | error err => simp [bind, Except.bind]
    | ok found => simp [bind, Except.bind, pure, Except.pure]
  rw [hmap, mapM_isOk]
  exact forall₂_congr fun entry _ => change_isOk

theorem differs_of_cast {y : SqlValue} (h : e.cast name v = .ok y) :
    e.differs current (name, v) = !(current.value name).same y.toJson := by
  unfold cast at h
  obtain ⟨c, hc, hy⟩ := bind_eq_ok.1 h
  unfold differs
  rw [hc]
  dsimp only
  rw [hy]

theorem scalarColumn_of_assignable {c : Column} (h : e.assignableColumn? name = some c) :
    e.scalarColumn name = .ok c := by
  obtain ⟨hfound, hassignable⟩ := Option.filter_eq_some_iff.1 h
  have hscalar : e.scalarColumn? name = some c := by
    refine Option.filter_eq_some_iff.2 ⟨hfound, ?_⟩
    simp only [Bool.and_eq_true, decide_eq_true_eq] at hassignable ⊢
    exact hassignable.1
  unfold scalarColumn
  rw [hscalar]

/-- a value is assigned as it is cast -/
theorem assignment_of_assignable {c : Column} (h : e.assignableColumn? name = some c) :
    e.assignment (name, v) = (e.cast name v).map fun y => (name, y) := by
  unfold assignment cast
  dsimp only
  rw [h, scalarColumn_of_assignable h]
  rfl

/-- a value that is taken is assigned as it is cast -/
theorem assignment_of_takes (h : e.takes name v = true) :
    e.assignment (name, v) = (e.cast name v).map fun y => (name, y) := by
  unfold takes at h
  split at h
  · next c hc => exact assignment_of_assignable (assignableColumn?_of_writable hc)
  · cases h

theorem cast_of_assignment {entry : String × Json} {bound : String × SqlValue}
    (h : e.assignment entry = .ok bound) :
    bound.1 = entry.1 ∧ e.cast entry.1 entry.2 = .ok bound.2 := by
  cases hc : e.assignableColumn? entry.1 with
  | none =>
    unfold assignment at h
    rw [hc] at h
    cases h
  | some c =>
    rw [← Prod.eta entry, assignment_of_assignable hc] at h
    obtain ⟨y, hy, rfl⟩ := map_eq_ok.1 h
    exact ⟨rfl, hy⟩

/-- the columns that are assigned are those of the values -/
theorem names_of_assignments (h : e.assignments values = .ok assigned) :
    assigned.map (·.1) = values.keys :=
  map_eq_map h fun _ _ h => (cast_of_assignment h).1

/-- the primary key is never assigned -/
theorem primaryKey_not_mem (h : e.assignments values = .ok assigned) :
    primaryKey ∉ assigned.map (·.1) := by
  intro hmem
  obtain ⟨⟨_, x⟩, hx, rfl⟩ := List.mem_map.1 hmem
  obtain ⟨_, c, _, hassignable, _⟩ := of_mem_assignments h hx
  obtain ⟨hfound, hno⟩ := Option.filter_eq_some_iff.1 hassignable
  have hname : c.name = primaryKey := by simpa using List.find?_some hfound
  simp [hname] at hno

/-! ### what is decided -/

/-- the values of a payload that an update keeps -/
def kept (e : Entity) (current : Record) (input : Row) : Row :=
  (e.projected input).filter fun name v => e.differs current (name, v)

theorem get?_kept (e : Entity) (current : Record) (input : Row) (name : String) :
    (e.kept current input).get? name =
      ((e.projected input).get? name).filter fun v => e.differs current (name, v) :=
  Dict.get?_filter (e.projected input) (fun name v => e.differs current (name, v)) name

theorem takes_of_kept (h : (e.kept current input).get? name = some v) :
    e.takes name v = true := by
  rw [get?_kept] at h
  obtain ⟨h, _⟩ := Option.filter_eq_some_iff.1 h
  rw [get?_projected] at h
  exact (Option.filter_eq_some_iff.1 h).2

/-- a second comparison keeps what the first one has kept -/
theorem eq_kept_of_diff {changes changes' : Changes} {twice : Row}
    (h : e.diff current (e.projected input) = .ok (values, changes))
    (h' : e.diff current values = .ok (twice, changes')) : twice = e.kept current input := by
  refine Dict.ext ?_
  rw [diff_entries h', diff_entries h, List.filter_filter]
  simp only [Bool.and_self]
  rfl

/-- what is assigned are the values that are kept, if all can be cast and the check passes -/
theorem assigning_eq_ok :
    e.assigning current input = .ok assigned ↔ input.isEmpty = false ∧
      (∀ entry ∈ (e.projected input).entries, ∃ y, e.cast entry.1 entry.2 = .ok y) ∧
      Repository.checkTransition e current (e.kept current input) = .ok () ∧
      e.assignments (e.kept current input) = .ok assigned := by
  unfold assigning prepareUpdate
  cases hempty : input.isEmpty with
  | true => simp [bind, Except.bind]
  | false =>
    have hcast : (∀ entry ∈ (e.projected input).entries, ∃ y, e.cast entry.1 entry.2 = .ok y) ↔
        ∃ found, e.diff current (e.projected input) = .ok found := diff_isOk.symm
    rw [hcast]
    constructor
    · intro h
      obtain ⟨⟨values, changes⟩, hdiff, h⟩ := bind_eq_ok.1 h
      obtain ⟨⟨values', changes'⟩, hdiff', h⟩ := bind_eq_ok.1 h
      obtain ⟨_, hcheck, h⟩ := bind_eq_ok.1 h
      obtain rfl := eq_kept_of_diff hdiff hdiff'
      exact ⟨rfl, ⟨_, hdiff⟩, hcheck, h⟩
    · rintro ⟨_, ⟨⟨values, changes⟩, hdiff⟩, hcheck, h⟩
      have hcast := diff_isOk.1 ⟨_, hdiff⟩
      have hmore : ∀ entry ∈ values.entries, ∃ y, e.cast entry.1 entry.2 = .ok y := by
        intro entry hentry
        rw [diff_entries hdiff] at hentry
        exact hcast entry (List.mem_filter.1 hentry).1
      obtain ⟨⟨values', changes'⟩, hdiff'⟩ := diff_isOk.2 hmore
      obtain rfl := eq_kept_of_diff hdiff hdiff'
      exact bind_eq_ok.2 ⟨_, hdiff, bind_eq_ok.2 ⟨_, hdiff', bind_eq_ok.2 ⟨(), hcheck, h⟩⟩⟩

/-- what is assigned to a column is the value that is kept for it -/
theorem lookup_assignments (htakes : ∀ name v, values.get? name = some v → e.takes name v = true)
    (h : e.assignments values = .ok assigned) (name : String) :
    assigned.lookup name = (values.get? name).bind fun v => (e.cast name v).toOption := by
  have hentries : ∀ entry ∈ values.entries, e.takes entry.1 entry.2 = true := fun entry hentry =>
    htakes _ _ (Dict.get?_eq_some_iff.2 hentry)
  have hall := mapM_eq_ok.1 h
  show assigned.lookup name = (findEntry name values.entries).bind _
  clear h htakes
  generalize values.entries = entries at hall hentries
  induction hall with
  | nil => rfl
  | @cons entry bound entries assigned hentry _ ih =>
    obtain ⟨htakes, hrest⟩ := List.forall_mem_cons.1 hentries
    obtain ⟨key, v⟩ := entry
    rw [assignment_of_takes htakes] at hentry
    obtain ⟨y, hy, rfl⟩ := map_eq_ok.1 hentry
    unfold findEntry
    by_cases hkey : key = name
    · subst hkey
      rw [if_pos rfl, List.lookup_cons_self]
      simp [hy, Except.toOption]
    · rw [if_neg hkey, ← ih hrest, List.lookup_cons, beq_false_of_ne (Ne.symm hkey)]

theorem lookup_primaryKey (h : e.assignments values = .ok assigned) :
    assigned.lookup primaryKey = none := by
  refine List.lookup_eq_none_iff.2 fun a ha => ?_
  rw [bne_iff_ne]
  intro heq
  exact primaryKey_not_mem h (List.mem_map.2 ⟨a, ha, heq.symm⟩)

/-- what is assigned is what is left in a column -/
theorem cellAfter_eq (h : e.assigning current input = .ok assigned) {x : SqlValue}
    (hvalue : current.value name = x.sent.toJson) :
    ((assigned.lookup name).map SqlValue.sent).getD x = e.cellAfter name input x := by
  obtain ⟨_, hcast, _, hassign⟩ := assigning_eq_ok.1 h
  rw [lookup_assignments (fun _ _ => takes_of_kept) hassign name, get?_kept]
  unfold cellAfter
  cases hprojected : (e.projected input).get? name with
  | none => rfl
  | some v =>
    obtain ⟨y, hy⟩ := hcast (name, v) (Dict.get?_eq_some_iff.1 hprojected)
    have hdiffers : e.differs current (name, v) = !x.sent.toJson.same y.toJson := by
      rw [differs_of_cast hy, hvalue]
    have hcasty : e.cast name v = .ok y := hy
    dsimp only
    rw [Option.filter_some, hdiffers, hcasty]
    cases hsame : x.sent.toJson.same y.toJson with
    | true => simp [hsame]
    | false => simp [hcasty, Except.toOption, hsame]

/-- a column that is assigned is one that the payload has -/
theorem isSome_of_mem_assigning (h : e.assigning current input = .ok assigned) {x : SqlValue}
    (hx : (name, x) ∈ assigned) : (input.get? name).isSome = true := by
  obtain ⟨_, _, _, hassign⟩ := assigning_eq_ok.1 h
  obtain ⟨v, _, hv, _, _⟩ := of_mem_assignments hassign hx
  rw [get?_kept, get?_projected] at hv
  rw [(Option.filter_eq_some_iff.1 (Option.filter_eq_some_iff.1 hv).1).1]
  rfl

/-- an update depends on a current value only for the column of the graph, and only if its payload
has a value for that column -/
theorem exists_assigning {other : Record} (h : e.assigning current input = .ok assigned)
    (hstate : ∀ g, e.transitions = some g → ((e.projected input).get? g.key).isSome = true →
      other.values.get? g.key = current.values.get? g.key) :
    ∃ assigned', e.assigning other input = .ok assigned' := by
  obtain ⟨hne, hcast, hcheck, _⟩ := assigning_eq_ok.1 h
  have hcheck' : Repository.checkTransition e other (e.kept other input) = .ok () := by
    unfold Repository.checkTransition at hcheck ⊢
    cases hg : e.transitions with
    | none => rfl
    | some g =>
      rw [hg] at hcheck
      dsimp only at hcheck ⊢
      cases htaken : (e.projected input).get? g.key with
      | none =>
        refine TransitionGraph.validate_of_get?_eq_none _ _ _ ?_
        rw [get?_kept, htaken]
        rfl
      | some v =>
        have hsame := hstate g hg (by rw [htaken]; rfl)
        have hvalue : other.value g.key = current.value g.key := by
          unfold Record.value Record.get?
          rw [hsame]
        have hkept : (e.kept other input).get? g.key = (e.kept current input).get? g.key := by
          have hdiffers : ∀ v, e.differs other (g.key, v) = e.differs current (g.key, v) := by
            intro v
            unfold differs
            rw [hvalue]
          rw [get?_kept, get?_kept]
          simp only [hdiffers]
        unfold TransitionGraph.validate at hcheck ⊢
        rw [hsame, hkept]
        exact hcheck
  have hassign : ∀ entry ∈ (e.kept other input).entries,
      ∃ bound, e.assignment entry = .ok bound := by
    intro entry hentry
    obtain ⟨hprojected, _⟩ := List.mem_filter.1 hentry
    obtain ⟨y, hy⟩ := hcast entry hprojected
    refine ⟨(entry.1, y), ?_⟩
    rw [assignment_of_takes (List.mem_filter.1 hprojected).2, hy]
    rfl
  obtain ⟨assigned', hassigned⟩ := mapM_isOk.2 hassign
  exact ⟨assigned', assigning_eq_ok.2 ⟨hne, hcast, hcheck', hassigned⟩⟩

/-! ### the columns that can be assigned -/

/-- the time stamp that every update sets -/
def isStamp (e : Entity) (name : String) : Bool := e.tracksUpdatedAt && name == updatedAt

/-- the columns with values of their own: the key tells the row, a search vector follows from the
columns that it indexes, and the time stamp from the last update -/
def fields (e : Entity) : List Column :=
  e.selectable.filter fun c => c.name ≠ primaryKey && !e.isStamp c.name

theorem mem_fields {c : Column} :
    c ∈ e.fields ↔ c ∈ e.selectable ∧ c.name ≠ primaryKey ∧ e.isStamp c.name = false := by
  unfold fields
  rw [List.mem_filter]
  simp

theorem column_of_mem_fields {c : Column} (hc : c ∈ e.fields) :
    c ∈ e.columns ∧ c.type ≠ .searchVector := by
  obtain ⟨hmem, ht⟩ := List.mem_filter.1 (mem_fields.1 hc).1
  exact ⟨hmem, by simpa using ht⟩

/-- a column that a payload assigns is a field, or the time stamp -/
theorem exists_field_of_projected (h : ((e.projected input).get? name).isSome = true) :
    (input.get? name).isSome = true ∧ (e.isStamp name = false → ∃ c ∈ e.fields, c.name = name) := by
  obtain ⟨v, hv⟩ := Option.isSome_iff_exists.1 h
  rw [get?_projected] at hv
  obtain ⟨hinput, htakes⟩ := Option.filter_eq_some_iff.1 hv
  refine ⟨by rw [hinput]; rfl, fun hstamp => ?_⟩
  unfold takes at htakes
  split at htakes
  · next c hwritable =>
    obtain ⟨hc, rfl, _⟩ := writableColumn_mem hwritable
    obtain ⟨_, hwrite⟩ := Option.filter_eq_some_iff.1 hwritable
    simp only [Bool.and_eq_true, decide_eq_true_eq] at hwrite
    obtain ⟨⟨_, ht⟩, hkey⟩ := hwrite
    have hselectable : c ∈ e.selectable := List.mem_filter.2 ⟨hc, by simpa using ht⟩
    exact ⟨c, mem_fields.2 ⟨hselectable, hkey, hstamp⟩, rfl⟩
  · cases htakes

end Entity

/-! ### the run of an update -/

namespace Repository

variable {schema : Schema} {e : Entity} {load : LoadPlan} {σ : Type} {store : Store σ} {s : σ}
  {current record : Record} {input : Row} {assigned : Sql.Assignments}

/-- an update that succeeds has executed what it assigns, if that is anything, and reads the record
again -/
theorem of_runOn_update {log : List Event} {s' : σ}
    (h : (update ⟨schema, e, .none, load⟩ current input).runOn store s = (.ok record, log, s')) :
    ∃ assigned mid log', e.assigning current input = .ok assigned ∧
      (assigned = [] ∧ mid = s ∨ ∃ rs,
        store.reply (.update e current.id assigned) s = (.ok rs, mid)) ∧
      (reread ⟨schema, e, .none, load⟩ current.id).runOn store mid = (.ok record, log', s') := by
  unfold update at h
  obtain ⟨⟨values, changes⟩, hprepare, h⟩ := of_runOn_liftM_bind h
  obtain ⟨_, _, mid, _, hrow, h, _⟩ := of_runOn_bind h
  obtain ⟨_, log', _, _, hreread, hpost, _⟩ := of_runOn_bind h
  obtain ⟨rfl, rfl⟩ : _ = record ∧ s' = _ := of_runOn_pure hpost
  obtain ⟨_, hbody⟩ := of_runOn_transaction hrow
  -- no rule has a say in the values before they are compared again
  obtain ⟨hooked, hhook, hbody⟩ := of_runOn_liftM_bind hbody
  obtain rfl : values = hooked := Except.ok.inj hhook
  obtain ⟨⟨kept, _⟩, hdiff, hbody⟩ := of_runOn_liftM_bind hbody
  obtain ⟨_, hcheck, hbody⟩ := of_runOn_liftM_bind hbody
  obtain ⟨_, _, _, _, hassign, hbody, _⟩ := of_runOn_bind hbody
  obtain ⟨_, rfl⟩ : _ ∧ mid = _ := of_runOn_pure hbody
  have hassigning : ∀ assigned, e.assignments kept = .ok assigned →
      e.assigning current input = .ok assigned := fun assigned h =>
    bind_eq_ok.2 ⟨_, hprepare, bind_eq_ok.2 ⟨_, hdiff, bind_eq_ok.2 ⟨(), hcheck, h⟩⟩⟩
  unfold assign at hassign
  split at hassign
  · next hempty =>
    obtain ⟨_, rfl⟩ := of_runOn_pure hassign
    have hnone : e.assignments kept = .ok [] := by
      unfold Entity.assignments
      rw [List.isEmpty_iff.1 hempty]
      rfl
    exact ⟨[], _, log', hassigning [] hnone, .inl ⟨rfl, rfl⟩, hreread⟩
  · obtain ⟨assigned, hassigned, hassign⟩ := of_runOn_liftM_bind hassign
    obtain ⟨⟨rs, hreply, _⟩, rfl⟩ := of_runOn_query hassign
    exact ⟨assigned, _, log', hassigning assigned hassigned, .inr ⟨rs, Prod.ext hreply rfl⟩,
      hreread⟩

/-- an update succeeds when it can decide, what it assigns is accepted, and the record is there -/
theorem succeeds_update (h : e.assigning current input = .ok assigned)
    (haccepted : assigned ≠ [] →
      ∃ rs, (store.reply (.update e current.id assigned) s).1 = .ok rs)
    (hfound : ∀ s, (reread ⟨schema, e, .none, load⟩ current.id).Succeeds store s) :
    (update ⟨schema, e, .none, load⟩ current input).Succeeds store s := by
  obtain ⟨⟨values, _⟩, hprepare, h⟩ := bind_eq_ok.1 h
  obtain ⟨⟨kept, changes⟩, hdiff, h⟩ := bind_eq_ok.1 h
  obtain ⟨_, hcheck, hassigned⟩ := bind_eq_ok.1 h
  have hassign : (assign e current.id kept).Succeeds store s := by
    unfold assign
    split
    · exact succeeds_pure ()
    · next hkept =>
      refine .liftM_bind hassigned (succeeds_execute (haccepted ?_))
      rintro rfl
      have hentries : kept.entries = [] := List.forall₂_nil_right_iff.1 (mapM_eq_ok.1 hassigned)
      exact hkept (by rw [Dict.isEmpty, hentries]; rfl)
  have hbody : (do
      let (kept, changes) ← e.diff current values
      checkTransition e current kept
      assign e current.id kept
      return changes : Action Changes).Succeeds store s :=
    .liftM_bind hdiff (.liftM_bind hcheck (hassign.bind fun _ _ _ _ => succeeds_pure changes))
  have hrow : (updateRow ⟨schema, e, .none, load⟩ current values input).Succeeds store s :=
    Succeeds.transaction hbody
  refine .liftM_bind hprepare (hrow.bind fun _ _ mid _ => ?_)
  exact (hfound mid).bind fun record _ _ _ => succeeds_pure record

end Repository
end EntityAccess
