import EntityAccess.Proofs.Repository.Assignment
import EntityAccess.Proofs.Repository.Executed
import EntityAccess.Proofs.Sql.Columns

/-!
# the run of an update

An update decides what it assigns from the values that the rule before it leaves, whatever these
are, and executes at most one statement of its own.  What it tells the rule after it is what that
statement says: the columns that it assigns, with the values before and after.

* `Entity.decided`, `updateRow_eq` : the decision, and the transaction with it;
* `Rewriting`, `rewriting_of_runOn` : the ways in which the transaction ends;
* `executes_of_assigning` : the statement of an update without rules;
* `Changes.Tells`, `tells_of_decided` : changes that say what a statement assigns;
* `update_tells` : the whole update, under any rules.
-/

namespace EntityAccess

open EntityAccess.Action Outcome
open Program (Store)

namespace Action

/-- one outcome after the other, in front of an action -/
theorem liftM_bind_bind {α β γ : Type} (x : Except Error α) (f : α → Except Error β)
    (k : β → Action γ) : ((liftM (x >>= f) : Action β) >>= k) =
      (liftM x : Action α) >>= fun a => liftM (f a) >>= k := by
  cases x <;> rfl

/-- an action in front of a value -/
theorem runOn_bind_return {α σ : Type} {store : Store σ} {s : σ} (x : Action Unit) (a : α) :
    (x >>= fun _ => pure a).runOn store s =
      ((x.runOn store s).1.map fun _ => a, (x.runOn store s).2.1, (x.runOn store s).2.2) := by
  rcases hx : x.runOn store s with ⟨err | _, log, s'⟩
  · rw [runOn_bind_error _ hx]
    rfl
  · rw [runOn_bind_ok _ hx, runOn_pure, List.append_nil]
    rfl

end Action

/-! ### what is told -/

/-- changes that say of each assigned column what it was and what it becomes, and of no other -/
structure Changes.Tells (changes : Changes) (current : Record) (assigned : Sql.Assignments) :
    Prop where
  columns : changes.keys = assigned.map (·.1)
  values : ∀ column x, (column, x) ∈ assigned →
    changes.get? column = some ⟨current.value column, x.toJson⟩
  differ : ∀ column change, changes.get? column = some change →
    change.before.same change.after = false

namespace Entity

variable {e : Entity} {current : Record} {input values kept hooked : Row} {changes : Changes}
  {assigned : Sql.Assignments}

/-- what an update assigns of the values that its rule leaves, and what it tells of that -/
def decided (e : Entity) (current : Record) (hooked : Row) :
    Except Error (Sql.Assignments × Changes) := do
  let (kept, changes) ← e.diff current hooked
  Repository.checkTransition e current kept
  return (← e.assignments kept, changes)

theorem decided_eq_ok : e.decided current hooked = .ok (assigned, changes) ↔
    ∃ kept, e.diff current hooked = .ok (kept, changes) ∧
      Repository.checkTransition e current kept = .ok () ∧ e.assignments kept = .ok assigned := by
  unfold decided
  constructor
  · intro h
    obtain ⟨⟨kept, _⟩, hdiff, h⟩ := bind_eq_ok.1 h
    obtain ⟨_, hcheck, h⟩ := bind_eq_ok.1 h
    obtain ⟨_, hassigned, h⟩ := bind_eq_ok.1 h
    obtain ⟨rfl, rfl⟩ := Prod.mk.inj (Except.ok.inj h)
    exact ⟨kept, hdiff, hcheck, hassigned⟩
  · rintro ⟨kept, hdiff, hcheck, hassigned⟩
    exact bind_eq_ok.2 ⟨_, hdiff, bind_eq_ok.2 ⟨(), hcheck, bind_eq_ok.2 ⟨_, hassigned, rfl⟩⟩⟩

/-- what an update without rules assigns is decided of the values of its payload -/
theorem assigning_eq_decided : e.assigning current input = .ok assigned ↔
    ∃ values first changes, e.prepareUpdate current input = .ok (values, first) ∧
      e.decided current values = .ok (assigned, changes) := by
  constructor
  · intro h
    obtain ⟨⟨values, first⟩, hprepare, h⟩ := bind_eq_ok.1 h
    obtain ⟨⟨kept, changes⟩, hdiff, h⟩ := bind_eq_ok.1 h
    obtain ⟨_, hcheck, hassigned⟩ := bind_eq_ok.1 h
    exact ⟨values, first, changes, hprepare, decided_eq_ok.2 ⟨kept, hdiff, hcheck, hassigned⟩⟩
  · rintro ⟨values, first, changes, hprepare, hdecided⟩
    obtain ⟨kept, hdiff, hcheck, hassigned⟩ := decided_eq_ok.1 hdecided
    exact bind_eq_ok.2 ⟨_, hprepare, bind_eq_ok.2 ⟨_, hdiff, bind_eq_ok.2 ⟨(), hcheck, hassigned⟩⟩⟩

/-- a payload of one value is assigned, if the record does not have the value already -/
theorem assigning_single {name : String} {v : Json} {y : SqlValue} (hgraph : e.transitions = none)
    (hentries : (e.projected input).entries = [(name, v)]) (hy : e.cast name v = .ok y)
    (hdiffer : (current.value name).same y.toJson = false) :
    e.assigning current input = .ok [(name, y)] := by
  have hprojected : (e.projected input).get? name = some v := by
    rw [Dict.get?_eq_some_iff, hentries]
    exact List.mem_cons_self
  rw [get?_projected, Option.filter_eq_some_iff] at hprojected
  obtain ⟨hinput, htakes⟩ := hprojected
  have hkept : (e.kept current input).entries = [(name, v)] := by
    unfold kept Dict.filter
    simp [hentries, differs_of_cast hy, hdiffer]
  have hsome : input.isEmpty = false := by
    rw [Bool.eq_false_iff]
    intro hnone
    rw [Dict.get?_eq_some_iff, List.isEmpty_iff.1 hnone] at hinput
    cases hinput
  refine assigning_eq_ok.2 ⟨hsome, fun entry hentry => ?_, ?_, ?_⟩
  · rw [hentries, List.mem_singleton] at hentry
    subst hentry
    exact ⟨y, hy⟩
  · unfold Repository.checkTransition
    rw [hgraph]
  · unfold assignments
    rw [hkept, mapM_eq_ok, List.forall₂_cons]
    refine ⟨?_, .nil⟩
    rw [assignment_of_takes htakes, hy]
    rfl

/-- a change that is found is one of its entry, from the current value to the one that is cast -/
theorem of_change {entry : String × Json} {found : (String × Json) × Change}
    (h : e.change current entry = .ok (some found)) :
    found.1 = entry ∧ found.2.before = current.value entry.1 ∧
      (∃ y, e.cast entry.1 entry.2 = .ok y ∧ found.2.after = y.toJson) ∧
      found.2.before.same found.2.after = false := by
  obtain ⟨c, hc, h⟩ := bind_eq_ok.1 h
  obtain ⟨y, hy, h⟩ := bind_eq_ok.1 h
  have hfound : (if (current.value entry.1).same y.toJson then none
      else some (entry, (⟨current.value entry.1, y.toJson⟩ : Change))) = some found := by
    simpa [pure, Except.pure] using h
  split at hfound
  · cases hfound
  · next hdiffer =>
    obtain rfl := Option.some.inj hfound
    exact ⟨rfl, rfl, ⟨y, bind_eq_ok.2 ⟨c, hc, hy⟩, rfl⟩, by simpa using hdiffer⟩

/-- the values that differ and their changes have the same columns in the same order -/
theorem changes_of_diff (h : e.diff current values = .ok (kept, changes)) :
    ∃ found : List ((String × Json) × Change), kept.entries = found.map (·.1) ∧
      changes.entries = found.map (fun f => (f.1.1, f.2)) ∧
      ∀ f ∈ found, f.2.before = current.value f.1.1 ∧
        (∃ y, e.cast f.1.1 f.1.2 = .ok y ∧ f.2.after = y.toJson) ∧
        f.2.before.same f.2.after = false := by
  have hkept := diff_entries h
  unfold diff at h
  obtain ⟨all, hall, h⟩ := bind_eq_ok.1 h
  obtain ⟨_, rfl⟩ := Prod.mk.inj (Except.ok.inj h)
  have hfound := found_changes hall
  have hsorted : SortedKeys ((all.filterMap id).map (·.1)) := by
    rw [hfound]
    exact values.sorted.filter _
  refine ⟨all.filterMap id, hkept.trans hfound.symm, Dict.entries_ofList ?_, fun f hf => ?_⟩
  · unfold SortedKeys at hsorted ⊢
    rw [List.pairwise_map] at hsorted ⊢
    exact hsorted
  · obtain ⟨found, hmem, rfl⟩ := List.mem_filterMap.1 hf
    obtain ⟨entry, _, hchange⟩ := exists_of_mem_result hall hmem
    obtain ⟨rfl, hchange⟩ := of_change hchange
    exact hchange

/-- what is told is what is assigned -/
theorem tells_of_decided (h : e.decided current hooked = .ok (assigned, changes)) :
    changes.Tells current assigned := by
  obtain ⟨kept, hdiff, _, hassigned⟩ := decided_eq_ok.1 h
  obtain ⟨found, hkept, hchanges, hfound⟩ := changes_of_diff hdiff
  have hnames := names_of_assignments hassigned
  refine ⟨?_, fun column x hx => ?_, fun column change hchange => ?_⟩
  · unfold Dict.keys at hnames ⊢
    rw [hnames, hkept, hchanges, List.map_map, List.map_map]
    rfl
  · obtain ⟨entry, hentry, hbound⟩ := exists_of_mem_result hassigned hx
    obtain ⟨hname, hcast⟩ := cast_of_assignment hbound
    obtain ⟨⟨entry', change⟩, hf, rfl⟩ := List.mem_map.1 (hkept ▸ hentry)
    obtain ⟨hbefore, ⟨y, hy, hafter⟩, _⟩ := hfound _ hf
    obtain rfl : x = y := Except.ok.inj (hcast.symm.trans hy)
    rw [Dict.get?_eq_some_iff, hchanges]
    refine List.mem_map.2 ⟨_, hf, ?_⟩
    rw [show column = _ from hname]
    exact congrArg (Prod.mk _) (show change = ⟨_, _⟩ by rw [← hbefore, ← hafter])
  · rw [Dict.get?_eq_some_iff, hchanges] at hchange
    obtain ⟨f, hf, heq⟩ := List.mem_map.1 hchange
    obtain ⟨_, rfl⟩ := Prod.mk.inj heq
    exact (hfound f hf).2.2

end Entity

namespace Repository

variable {r : Repository} {σ : Type} {store : Store σ} {s s' : σ} {current : Record}
  {values input : Row} {log : List Event}

/-- the statement of an update, if it assigns anything -/
def ownUpdate (e : Entity) (id : String) (assigned : Sql.Assignments) : Action Unit :=
  if assigned.isEmpty then pure () else execute (.update e id assigned)

/-- nothing is assigned exactly when nothing differs -/
theorem assign_eq (e : Entity) (id : String) (kept : Row) :
    assign e id kept =
      (liftM (e.assignments kept) : Action Sql.Assignments) >>= ownUpdate e id := by
  have hempty : ∀ assigned, e.assignments kept = .ok assigned →
      kept.isEmpty = assigned.isEmpty := by
    intro assigned h
    have hlength := (mapM_eq_ok.1 h).length_eq
    unfold Dict.isEmpty
    rw [Bool.eq_iff_iff, List.isEmpty_iff_length_eq_zero, List.isEmpty_iff_length_eq_zero, hlength]
  unfold assign ownUpdate
  cases hassigned : e.assignments kept with
  | ok assigned => rw [hempty assigned hassigned, liftM_ok_bind, liftM_ok_bind]
  | error err =>
    have hsome : ¬ kept.isEmpty = true := by
      intro hnone
      unfold Entity.assignments at hassigned
      rw [List.isEmpty_iff.1 hnone] at hassigned
      cases hassigned
    rw [if_neg hsome]
    rfl

/-- the transaction of an update: its rule, the decision, its statement, and associated rows -/
theorem updateRow_eq (r : Repository) (current : Record) (values input : Row) :
    r.updateRow current values input = transaction do
      let hooked ← r.hooks.preUpdate current values input
      let (assigned, changes) ← r.entity.decided current hooked
      ownUpdate r.entity current.id assigned
      r.hooks.relationship current.id input (some current)
      return changes := by
  unfold updateRow Entity.decided
  simp only [liftM_bind_bind, assign_eq]
  congr 2
  funext hooked
  congr 1
  funext ⟨kept, changes⟩
  dsimp only
  congr 1
  funext _
  cases r.entity.assignments kept <;> rfl

/-! ### the ways of an update -/

/-- what the statement of an update logs -/
def ownLog (e : Entity) (id : String) (assigned : Sql.Assignments) : List Event :=
  if assigned.isEmpty then [] else [.executed (.update e id assigned)]

theorem log_ownUpdate {e : Entity} {id : String} {assigned : Sql.Assignments}
    {result : Except Error Unit} (h : (ownUpdate e id assigned).runOn store s = (result, log, s')) :
    log = ownLog e id assigned := by
  have hlog := congrArg (·.2.1) h
  unfold ownUpdate at hlog
  unfold ownLog
  split at hlog
  · next hempty => rw [if_pos hempty]; exact hlog.symm
  · next hempty => rw [if_neg hempty]; exact hlog.symm

/-- what a run of the transaction of an update can be, its marks apart -/
inductive Rewriting (r : Repository) {σ : Type} (store : Store σ) (s : σ) (current : Record)
    (values input : Row) : Except Error Changes → List Event → σ → Prop where
  /-- the rule before it fails -/
  | ruledOut {err : Error} {ruled : List Event} {s' : σ}
    (hrule : (r.hooks.preUpdate current values input).runOn store s = (.error err, ruled, s')) :
    Rewriting r store s current values input (.error err) ruled s'
  /-- what the rule leaves cannot be assigned -/
  | refused {hooked : Row} {err : Error} {ruled : List Event} {s' : σ}
    (hrule : (r.hooks.preUpdate current values input).runOn store s = (.ok hooked, ruled, s'))
    (hdecided : r.entity.decided current hooked = .error err) :
    Rewriting r store s current values input (.error err) ruled s'
  /-- the statement fails -/
  | unwritten {hooked : Row} {assigned : Sql.Assignments} {changes : Changes} {err : Error}
    {ruled : List Event} {mid s' : σ}
    (hrule : (r.hooks.preUpdate current values input).runOn store s = (.ok hooked, ruled, mid))
    (hdecided : r.entity.decided current hooked = .ok (assigned, changes))
    (hown : (ownUpdate r.entity current.id assigned).runOn store mid =
      (.error err, ownLog r.entity current.id assigned, s')) :
    Rewriting r store s current values input (.error err)
      (ruled ++ ownLog r.entity current.id assigned) s'
  /-- the statement succeeds, and then the rule for associated rows acts -/
  | written {hooked : Row} {assigned : Sql.Assignments} {changes : Changes}
    {outcome : Except Error Unit} {ruled related : List Event} {mid mid' s' : σ}
    (hrule : (r.hooks.preUpdate current values input).runOn store s = (.ok hooked, ruled, mid))
    (hdecided : r.entity.decided current hooked = .ok (assigned, changes))
    (hown : (ownUpdate r.entity current.id assigned).runOn store mid =
      (.ok (), ownLog r.entity current.id assigned, mid'))
    (hrelated : (r.hooks.relationship current.id input (some current)).runOn store mid' =
      (outcome, related, s')) :
    Rewriting r store s current values input (outcome.map fun _ => changes)
      (ruled ++ ownLog r.entity current.id assigned ++ related) s'

theorem rewriting_of_runOn {result : Except Error Changes}
    (h : (r.updateRow current values input).runOn store s = (result, log, s')) :
    ∃ inner, Rewriting r store s current values input result inner s' ∧
      log = .marked .begin :: inner ++ [.marked (if result.isOk then .commit else .rollback)] := by
  rw [updateRow_eq] at h
  obtain ⟨inner, hbody, hlog⟩ := runOn_transaction_cases h
  refine ⟨inner, ?_, hlog⟩
  rcases runOn_bind_cases hbody with ⟨err, hrule, rfl⟩ |
    ⟨hooked, ruled, mid, rest, hrule, hrest, rfl⟩
  · exact .ruledOut hrule
  rcases runOn_liftM_bind_cases hrest with
    ⟨err, hdecided, rfl, rfl, rfl⟩ | ⟨⟨assigned, changes⟩, hdecided, hrest⟩
  · rw [List.append_nil]
    exact .refused hrule hdecided
  rcases runOn_bind_cases hrest with ⟨err, hown, rfl⟩ | ⟨_, own, mid', last, hown, hlast, rfl⟩
  · obtain rfl := log_ownUpdate hown
    exact .unwritten hrule hdecided hown
  obtain rfl := log_ownUpdate hown
  rw [← List.append_assoc]
  rcases runOn_bind_cases hlast with ⟨err, hrelated, rfl⟩ |
    ⟨_, related, _, _, hrelated, hpure, rfl⟩
  · exact .written hrule hdecided hown hrelated
  · rw [runOn_pure] at hpure
    obtain ⟨rfl, rfl, rfl⟩ : .ok changes = result ∧ [] = _ ∧ _ = s' := by simpa using hpure
    rw [List.append_nil]
    exact .written hrule hdecided hown hrelated

/-- an update without rules executes what it assigns, if that is anything, before all else -/
theorem executes_of_assigning {schema : Schema} {e : Entity} {load : LoadPlan}
    {assigned : Sql.Assignments} (h : e.assigning current input = .ok assigned)
    (hsome : assigned ≠ []) :
    (update ⟨schema, e, .none, load⟩ current input).Executes store s [.marked .begin]
      (.update e current.id assigned) := by
  obtain ⟨values, first, changes, hprepare, hdecided⟩ := Entity.assigning_eq_decided.1 h
  unfold update
  rw [hprepare, liftM_ok_bind]
  refine .bind_of_first _ ?_
  rw [updateRow_eq]
  refine .after_begin ?_
  -- no rule has a say in the values
  show ((liftM (e.decided current values) : Action (Sql.Assignments × Changes)) >>= _).Executes
    store s [] _
  rw [hdecided, liftM_ok_bind]
  refine .bind_of_first _ ?_
  unfold ownUpdate
  rw [if_neg fun hnone => hsome (List.isEmpty_iff.1 hnone)]
  exact .asked

/-! ### what the rule after an update is told -/

/-- the repository with another rule after its updates -/
def ending (r : Repository) (rule : Record → Changes → Action Unit) : Repository :=
  { r with hooks := { r.hooks with postUpdate := rule } }

/-- an update up to the rule after it: the rule before it, its own statement, associated rows, and
the record that is read again -/
inductive Updated (r : Repository) {σ : Type} (store : Store σ) (s : σ) (current : Record)
    (input : Row) : Record → Changes → List Event → σ → Prop where
  | intro {values hooked : Row} {first changes : Changes} {assigned : Sql.Assignments}
    {record : Record} {ruled own related reads : List Event} {s₁ s₂ s₃ s' : σ}
    (hprepare : r.entity.prepareUpdate current input = .ok (values, first))
    (hrule : (r.hooks.preUpdate current values input).runOn store s = (.ok hooked, ruled, s₁))
    (hdecided : r.entity.decided current hooked = .ok (assigned, changes))
    (htells : changes.Tells current assigned)
    (hcolumns : (Statement.update r.entity current.id assigned).columns =
      changes.keys ++ r.entity.stampColumns)
    (howned : own =
      if changes.isEmpty then [] else [.executed (.update r.entity current.id assigned)])
    (hown : (ownUpdate r.entity current.id assigned).runOn store s₁ = (.ok (), own, s₂))
    (hrelated : (r.hooks.relationship current.id input (some current)).runOn store s₂ =
      (.ok (), related, s₃))
    (hread : (r.reread current.id).runOn store s₃ = (.ok record, reads, s')) :
    Updated r store s current input record changes
      (.marked .begin :: (ruled ++ own ++ related) ++ .marked .commit :: reads) s'

theorem ownLog_of_tells {e : Entity} {id : String} {assigned : Sql.Assignments} {changes : Changes}
    (h : changes.Tells current assigned) : ownLog e id assigned =
      if changes.isEmpty then [] else [.executed (.update e id assigned)] := by
  have hlength := congrArg List.length h.columns
  unfold Dict.keys at hlength
  rw [List.length_map, List.length_map] at hlength
  have hempty : assigned.isEmpty = changes.isEmpty := by
    unfold Dict.isEmpty
    rw [Bool.eq_iff_iff, List.isEmpty_iff_length_eq_zero, List.isEmpty_iff_length_eq_zero, hlength]
  unfold ownLog
  rw [hempty]

/-- the transaction that has succeeded and the record that is read again -/
theorem updated_of_runOn {first changes : Changes} {record : Record} {reads : List Event} {mid : σ}
    (hprepare : r.entity.prepareUpdate current input = .ok (values, first))
    (hrow : (r.updateRow current values input).runOn store s = (.ok changes, log, mid))
    (hread : (r.reread current.id).runOn store mid = (.ok record, reads, s')) :
    Updated r store s current input record changes (log ++ reads) s' := by
  obtain ⟨inner, hways, rfl⟩ := rewriting_of_runOn hrow
  generalize hresult : Except.ok changes = result at hways
  cases hways with
  | ruledOut _ => cases hresult
  | refused _ _ => cases hresult
  | unwritten _ _ _ => cases hresult
  | @written hooked assigned changes' outcome ruled related _ _ _ hrule hdecided hown hrelated =>
    obtain ⟨_, rfl, rfl⟩ := map_eq_ok.1 hresult.symm
    have htells := Entity.tells_of_decided hdecided
    have hcolumns : (Statement.update r.entity current.id assigned).columns =
        changes'.keys ++ r.entity.stampColumns := by
      rw [Statement.columns_update, htells.columns]
    rw [List.append_assoc]
    exact .intro hprepare hrule hdecided htells hcolumns (ownLog_of_tells htells) hown hrelated
      hread

end Repository

/-- either the rule after an update has no part in it, because the update fails before; or the rule
acts on the record that is read again and on changes that say what the statement of the update has
assigned, with none executed exactly when there are no changes -/
theorem update_tells (r : Repository) (current : Record) (input : Row) {σ : Type} (store : Store σ)
    (s : σ) :
    (∃ err log s', ∀ rule,
      ((r.ending rule).update current input).runOn store s = (.error err, log, s')) ∨
    ∃ record changes log s', r.Updated store s current input record changes log s' ∧
      ∀ rule, ((r.ending rule).update current input).runOn store s =
        (((rule record changes).runOn store s').1.map fun _ => record,
          log ++ ((rule record changes).runOn store s').2.1,
          ((rule record changes).runOn store s').2.2) := by
  have hupdate : ∀ rule, (r.ending rule).update current input = do
      let (values, _) ← r.entity.prepareUpdate current input
      let changes ← r.updateRow current values input
      let record ← r.reread current.id
      rule record changes
      return record := fun _ => rfl
  simp only [hupdate]
  cases hprepare : r.entity.prepareUpdate current input with
  | error err => exact .inl ⟨err, [], s, fun rule => runOn_bind_error _ (runOn_liftM _)⟩
  | ok prepared =>
    obtain ⟨values, first⟩ := prepared
    simp only [liftM_ok_bind]
    rcases hrow : (r.updateRow current values input).runOn store s with ⟨err | changes, log, mid⟩
    · exact .inl ⟨err, log, mid, fun rule => runOn_bind_error _ hrow⟩
    rcases hread : (r.reread current.id).runOn store mid with ⟨err | record, reads, s'⟩
    · refine .inl ⟨err, log ++ reads, s', fun rule => ?_⟩
      rw [runOn_bind_ok _ hrow, runOn_bind_error _ hread]
    · refine .inr ⟨record, changes, log ++ reads, s',
        Repository.updated_of_runOn hprepare hrow hread, fun rule => ?_⟩
      rw [runOn_bind_ok _ hrow, runOn_bind_ok _ hread, runOn_bind_return,
        List.append_assoc]

end EntityAccess
