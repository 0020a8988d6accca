import EntityAccess.Proofs.Concurrency.States
import EntityAccess.Proofs.Concurrency.StoredRow

/-!
# updates of different columns at the same time

Two updates that read a record and then write it, in any interleaving of what they do, leave each
column as the one of them leaves it that has the column in its payload.  So do the same updates one
after the other, in either order, if they succeed then.

* `Repository.revise` : a read and the update that is computed from it;
* `Assigns.revised` : what it leaves in a column;
* `Keeps.revised_of_interleaved` : what it leaves among others that do not assign the column;
* `disjoint_updates_serializable` : two of them;
* `stamp_refuses_second_update` : a graph that looks at the time stamp, which every update sets.
-/

namespace EntityAccess

open EntityAccess.Action Outcome Program

/-- reads a record and updates it -/
def Repository.revise (r : Repository) (id : String) (input : Row) : Action Record := do
  let current ← r.required (← r.getById id)
  r.update current input

section

variable {schema : Schema} {e : Entity} {load : LoadPlan} {σ : Type} {store : Store σ}
  {id key : String} {held : σ → SqlValue} {input : Row} {s : σ}

/-! ### one client -/

theorem of_runOn_revise {record : Record} {log : List Event} {s' : σ}
    (h : (Repository.revise ⟨schema, e, .none, load⟩ id input).runOn store s =
      (.ok record, log, s')) :
    ∃ current first mid rest,
      (Repository.getById ⟨schema, e, .none, load⟩ id).runOn store s =
        (.ok (some current), first, mid) ∧
      (Repository.update ⟨schema, e, .none, load⟩ current input).runOn store mid =
        (.ok record, rest, s') := by
  unfold Repository.revise at h
  obtain ⟨found, first, mid, rest, hget, h, _⟩ := of_runOn_bind h
  obtain ⟨current, hcurrent, hupdate⟩ := of_runOn_liftM_bind h
  cases found with
  | none => simp [Repository.required] at hcurrent
  | some current' =>
    obtain rfl := Except.ok.inj hcurrent
    exact ⟨current', first, mid, rest, hget, hupdate⟩

/-- a statement that updates is one of the update, which has been computed from the record -/
theorem executed_revise {e' : Entity} {id' : String} {assigned : Sql.Assignments}
    (h : .executed (.update e' id' assigned) ∈
      ((Repository.revise ⟨schema, e, .none, load⟩ id input).runOn store s).2.1) :
    ∃ current, e.assigning current input = .ok assigned := by
  unfold Repository.revise at h
  rcases mem_log_bind h with h | ⟨found, log, s', hget, h⟩
  · have hread := (Hooks.preparing_none.reading_getById id).of_mem_log h
    simp [Statement.isRead] at hread
  · obtain ⟨current, _, h⟩ := mem_log_liftM_bind h
    obtain ⟨_, _, values, changes, hooked, log', s'', kept, changes', hprepare, hhook, hdiff,
      hcheck, hassign⟩ := executed_update Hooks.preparing_none h
    obtain ⟨rfl, _⟩ : values = hooked ∧ _ := of_runOn_pure hhook
    exact ⟨current, bind_eq_ok.2 ⟨_, hprepare, bind_eq_ok.2 ⟨_, hdiff,
      bind_eq_ok.2 ⟨(), hcheck, hassign⟩⟩⟩⟩

/-- what an update that succeeds leaves in a column whose value it has read -/
theorem Assigns.revised (h : Assigns store e id key held)
    (hshown : ∀ current log mid,
      (Repository.getById ⟨schema, e, .none, load⟩ id).runOn store s =
        (.ok (some current), log, mid) →
      current.id = id ∧ current.values.get? key = some (held s).sent.toJson)
    {record : Record} {log : List Event} {s' : σ}
    (hrun : (Repository.revise ⟨schema, e, .none, load⟩ id input).runOn store s =
      (.ok record, log, s')) :
    held s' = e.cellAfter key input (held s) := by
  obtain ⟨current, first, mid, rest, hget, hupdate⟩ := of_runOn_revise hrun
  obtain ⟨hid, hkey⟩ := hshown current first mid hget
  obtain ⟨assigned, written, log', hassigning, hwritten, hreread⟩ :=
    Repository.of_runOn_update hupdate
  have hget' : Reading (Repository.getById ⟨schema, e, .none, load⟩ id) :=
    Hooks.preparing_none.reading_getById id
  have hreread' : Reading (Repository.reread ⟨schema, e, .none, load⟩ current.id) :=
    Hooks.preparing_none.reading_reread current.id
  have hmid : held mid = held s := by
    have hsame := h.held_reading hget' s
    rw [hget] at hsame
    exact hsame
  have hlast : held s' = held written := by
    have hsame := h.held_reading hreread' written
    rw [hreread] at hsame
    exact hsame
  have hvalue : current.value key = (held s).sent.toJson := by
    unfold Record.value Record.get?
    rw [hkey]
    rfl
  rw [hlast, ← Entity.cellAfter_eq hassigning hvalue, ← hmid]
  rcases hwritten with ⟨rfl, rfl⟩ | ⟨rs, hreply⟩
  · rfl
  · rw [hid] at hreply
    have hassigned := h.updated mid assigned rs (by rw [hreply])
    rw [hreply] at hassigned
    exact hassigned

/-- a read of the record shows what is held, in a store that answers as this one does -/
theorem Keeps.shown (h : Keeps store schema e id key held) (he : e.WellFormed) {c : Column}
    (hc : c ∈ e.columns) (hname : c.name = key) (ht : c.type ≠ .searchVector) {x : SqlValue}
    {τ : Type} {other : Store τ} {t mid : τ}
    (hanswers : ∀ q rs, (other.reply q t).1 = .ok rs →
      ∃ s, (store.reply q s).1 = .ok rs ∧ held s = x)
    {current : Record} {log : List Event}
    (hget : (Repository.getById ⟨schema, e, .none, load⟩ id).runOn other t =
      (.ok (some current), log, mid)) :
    current.id = id ∧ current.values.get? key = some x.sent.toJson := by
  obtain ⟨plan, rs, rows, hplan, hreply, hrows, hcurrent⟩ :=
    Repository.getById_eq_ok (fun _ _ => rfl) (fun _ _ => rfl) hget
  obtain ⟨s, hreply, rfl⟩ := hanswers _ rs hreply
  have hvalues : current.values ∈ rows := List.mem_of_head? hcurrent.symm
  obtain ⟨hid, hkey, _⟩ := h.read_cell he hc hname ht hplan hreply hrows hvalues
  exact ⟨hid, hkey⟩

theorem Keeps.revised (h : Keeps store schema e id key held) (he : e.WellFormed) {c : Column}
    (hc : c ∈ e.columns) (hname : c.name = key) (ht : c.type ≠ .searchVector) {record : Record}
    {log : List Event} {s' : σ}
    (hrun : (Repository.revise ⟨schema, e, .none, load⟩ id input).runOn store s =
      (.ok record, log, s')) :
    held s' = e.cellAfter key input (held s) := by
  refine h.assigns.revised (fun current log mid hget => ?_) hrun
  exact h.shown he hc hname ht (fun q rs hreply => ⟨s, hreply, rfl⟩) hget

end

/-! ### the account of one client -/

namespace Assigns

variable {e : Entity} {σ : Type} {store : Store σ} {id key : String} {held : σ → SqlValue}

/-- what a column that has held `x` holds after a statement -/
def leaves (store : Store σ) (e : Entity) (id key : String) (q : Statement) (s : σ)
    (x : SqlValue) : SqlValue :=
  match q, (store.reply q s).1 with
  | .update e' id' assigned, .ok _ =>
    if e' = e ∧ id' = id then ((assigned.lookup key).map SqlValue.sent).getD x else x
  | _, _ => x

theorem leaves_of_ne {q : Statement} (hq : ∀ assigned, q ≠ .update e id assigned) (s : σ)
    (x : SqlValue) : leaves store e id key q s x = x := by
  unfold leaves
  split
  · next e' id' assigned _ _ =>
    rw [if_neg]
    rintro ⟨rfl, rfl⟩
    exact hq assigned rfl
  · rfl

theorem leaves_held (h : Assigns store e id key held) (q : Statement) (s : σ) :
    leaves store e id key q s (held s) = held (store.reply q s).2 := by
  by_cases hq : ∃ assigned, q = .update e id assigned
  · obtain ⟨assigned, rfl⟩ := hq
    unfold leaves
    cases hreply : (store.reply (.update e id assigned) s).1 with
    | error err => rw [h.refused s assigned err hreply]
    | ok rs => simp [h.updated s assigned rs hreply]
  · have hne : ∀ assigned, q ≠ .update e id assigned := fun assigned heq => hq ⟨assigned, heq⟩
    rw [leaves_of_ne hne, h.others s q hne]

/-- one client alone accounts for the column -/
theorem script (store : Store σ) (e : Entity) (id key : String) :
    Assigns (store.script (leaves store e id key)) e id key (·.account) where
  updated script assigned rs hreply := by
    obtain ⟨s, ahead, hahead, hstored⟩ := Store.exists_ahead hreply
    obtain ⟨_, account⟩ := script
    obtain rfl : _ = s :: ahead := hahead
    show leaves store e id key (.update e id assigned) s account = _
    unfold leaves
    rw [hstored]
    simp
  refused script assigned err hreply := by
    obtain ⟨ahead, account⟩ := script
    cases ahead with
    | nil => rfl
    | cons s ahead =>
      have hreply : (store.reply (.update e id assigned) s).1 = .error err := hreply
      show leaves store e id key (.update e id assigned) s account = _
      unfold leaves
      rw [hreply]
  others script q hq := by
    obtain ⟨ahead, account⟩ := script
    cases ahead with
    | nil => rfl
    | cons s ahead => exact leaves_of_ne hq s account
  fresh script := by
    obtain ⟨ahead, account⟩ := script
    cases ahead with
    | nil => rfl
    | cons s ahead => rfl

/-- a turn leaves what is held -/
theorem noted_held (h : Assigns store e id key held) {α : Type} {p next : Program α} {s s' : σ}
    {deed : Deed} (hstep : p.step? store s = some (deed, next, s')) :
    deed.noted (leaves store e id key) s (held s) = held s' := by
  cases p with
  | done a => cases hstep
  | tell m next => cases hstep; rfl
  | fresh next => cases hstep; exact (h.fresh s).symm
  | ask q next => cases hstep; exact h.leaves_held q s

end Assigns

/-! ### one client among others -/

section

variable {schema : Schema} {e : Entity} {load : LoadPlan} {σ ι : Type} [DecidableEq ι]
  {store : Store σ} {id : String} {inputs : ι → Row} {s s' : σ} {turns : List (Turn ι σ)}
  {rest : ι → Program (Except Error Record)}
  (hrun : Interleaved store
    (fun i => (Repository.revise ⟨schema, e, .none, load⟩ id (inputs i)).run) s turns rest s')

include hrun

section

variable {key : String} {held : σ → SqlValue} (h : Keeps store schema e id key held)

include h

/-- a client without the column in its payload does not change it -/
theorem Keeps.held_of_absent {t : Turn ι σ} (ht : t ∈ turns)
    (habsent : (inputs t.client).get? key = none) : held t.after = held t.before := by
  obtain ⟨p, next, hstep⟩ := hrun.exists_step ht
  rcases h.held_step hstep with hsame | ⟨assigned, x, hdeed, hx, _⟩
  · exact hsame
  · have hlog := hrun.mem_log_script (fun _ _ u => u) ht hdeed ()
    obtain ⟨current, hassigning⟩ := executed_revise hlog
    have hpresent := Entity.isSome_of_mem_assigning hassigning hx
    rw [habsent] at hpresent
    cases hpresent

variable {i : ι} (hothers : ∀ j, j ≠ i → (inputs j).get? key = none)

include hothers

/-- where the client begins, what no other client assigns is held as at the beginning of all -/
theorem Keeps.answers_script {γ : Type} {note : Statement → σ → γ → γ} {account : γ}
    {q : Statement} {rs : ResultSet}
    (hreply : ((store.script note).reply q ⟨seen (turnsOf i turns), account⟩).1 = .ok rs) :
    ∃ s₀, (store.reply q s₀).1 = .ok rs ∧ held s₀ = held s := by
  obtain ⟨s₀, ahead, hseen, hstored⟩ := Store.exists_ahead hreply
  have hsame : ∀ t ∈ turns, t.client ≠ i → held t.after = held t.before := fun t ht hne =>
    h.held_of_absent hrun ht (hothers t.client hne)
  exact ⟨s₀, hstored, hrun.eq_of_seen hsame hseen⟩

/-- a client that succeeds leaves what no other client assigns as it leaves it alone -/
theorem Keeps.revised_of_interleaved (he : e.WellFormed) {c : Column} (hc : c ∈ e.columns)
    (hname : c.name = key) (ht : c.type ≠ .searchVector) {record : Record}
    (hdone : rest i = .done (.ok record)) :
    held s' = e.cellAfter key (inputs i) (held s) := by
  have haccount : accounted (Assigns.leaves store e id key) (held s) (turnsOf i turns) =
      held s' := by
    refine hrun.accounted_eq (fun t ht _ => ?_) fun t ht hne =>
      h.held_of_absent hrun ht (hothers t.client hne)
    obtain ⟨p, next, hstep⟩ := hrun.exists_step ht
    exact h.assigns.noted_held hstep
  have hscript := hrun.run_script_of_done (Assigns.leaves store e id key) hdone (held s)
  rw [haccount] at hscript
  refine (Assigns.script store e id key).revised (fun current log mid hget => ?_) hscript
  exact h.shown he hc hname ht (fun q rs hreply => h.answers_script hrun hothers hreply) hget

end

/-- a client that succeeds has decided by the values that were held at the beginning, in columns
that no other client assigns -/
theorem exists_current_of_interleaved (he : e.WellFormed) {i : ι} {record : Record}
    (hdone : rest i = .done (.ok record)) :
    ∃ current assigned, e.assigning current (inputs i) = .ok assigned ∧
      ∀ c ∈ e.columns, c.type ≠ .searchVector → ∀ held, Keeps store schema e id c.name held →
        (∀ j, j ≠ i → (inputs j).get? c.name = none) →
        current.values.get? c.name = some (held s).sent.toJson := by
  have hscript := hrun.run_script_of_done (fun _ _ u => u) hdone ()
  obtain ⟨current, log, mid, log', hget, hupdate⟩ := of_runOn_revise hscript
  obtain ⟨assigned, _, _, hassigning, _, _⟩ := Repository.of_runOn_update hupdate
  refine ⟨current, assigned, hassigning, fun c hc ht held h hothers => ?_⟩
  obtain ⟨_, hvalue⟩ := h.shown he hc rfl ht
    (fun q rs hreply => h.answers_script hrun hothers hreply) hget
  exact hvalue

end

/-! ### two clients -/

/-- the row is there, and the database executes what an update with one of the payloads assigns -/
structure Answers {σ ι : Type} (store : Store σ) (r : Repository) (id : String)
    (inputs : ι → Row) : Prop where
  found : ∀ s, ∃ record, ((r.getById id).runOn store s).1 = .ok (some record) ∧ record.id = id
  executed : ∀ i s current assigned, r.entity.assigning current (inputs i) = .ok assigned →
    assigned ≠ [] → ∃ rs, (store.reply (.update r.entity id assigned) s).1 = .ok rs

section

variable {schema : Schema} {e : Entity} {load : LoadPlan} {σ ι : Type} {store : Store σ}
  {id : String} {inputs : ι → Row}

theorem Answers.succeeds_reread (h : Answers store ⟨schema, e, .none, load⟩ id inputs) (s : σ) :
    (Repository.reread ⟨schema, e, .none, load⟩ id).Succeeds store s := by
  obtain ⟨record, hfound, _⟩ := h.found s
  refine Succeeds.bind ⟨_, hfound⟩ fun found log s' hget => ?_
  rw [hget] at hfound
  obtain rfl : found = some record := Except.ok.inj hfound
  exact ⟨record, rfl⟩

/-- an update succeeds if it is not refused for the record that it reads -/
theorem Answers.succeeds_revise (h : Answers store ⟨schema, e, .none, load⟩ id inputs) {i : ι}
    {s : σ} (hdecided : ∀ current log mid,
      (Repository.getById ⟨schema, e, .none, load⟩ id).runOn store s =
        (.ok (some current), log, mid) →
      ∃ assigned, e.assigning current (inputs i) = .ok assigned) :
    (Repository.revise ⟨schema, e, .none, load⟩ id (inputs i)).Succeeds store s := by
  obtain ⟨current, hfound, hid⟩ := h.found s
  refine Succeeds.bind ⟨_, hfound⟩ fun found log mid hget => ?_
  rw [hget] at hfound
  obtain rfl : found = some current := Except.ok.inj hfound
  obtain ⟨assigned, hassigning⟩ := hdecided current log mid hget
  have hupdate : (Repository.update ⟨schema, e, .none, load⟩ current (inputs i)).Succeeds store
      mid := by
    refine Repository.succeeds_update hassigning (fun hne => ?_) fun s => ?_
    · rw [hid]
      exact h.executed i mid current assigned hassigning hne
    · rw [hid]
      exact h.succeeds_reread s
  exact hupdate

end

section

variable {schema : Schema} {e : Entity} {load : LoadPlan} {σ : Type} {store : Store σ} {id : String}
  {row : σ → String → SqlValue} {inputs : Bool → Row} {s s' : σ} {turns : List (Turn Bool σ)}
  {rest : Bool → Program (Except Error Record)}

theorem absent_of_present
    (hdisjoint : ∀ name ∈ (inputs true).keys, name ∉ (inputs false).keys) {i : Bool}
    {name : String} (h : (inputs i).get? name ≠ none) (j : Bool) (hj : j ≠ i) :
    (inputs j).get? name = none := by
  obtain rfl : j = !i := Bool.eq_not.2 hj
  rw [ne_eq, Dict.get?_eq_none_iff, not_not] at h
  rw [Dict.get?_eq_none_iff]
  cases i with
  | false => exact fun hname => hdisjoint name hname h
  | true => exact hdisjoint name h

/-- an update that succeeds among others succeeds wherever its columns hold what they held at the
beginning, unless the graph looks at the time stamp -/
theorem succeeds_of_interleaved (he : e.WellFormed)
    (hkeeps : ∀ c ∈ e.fields, Keeps store schema e id c.name fun s => row s c.name)
    (hdisjoint : ∀ name ∈ (inputs true).keys, name ∉ (inputs false).keys)
    (hrun : Interleaved store
      (fun i => (Repository.revise ⟨schema, e, .none, load⟩ id (inputs i)).run) s turns rest s')
    (hanswers : Answers store ⟨schema, e, .none, load⟩ id inputs) {i : Bool} {record : Record}
    (hdone : rest i = .done (.ok record))
    (hstamp : ∀ g, e.transitions = some g → e.isStamp g.key = true → g.key ∉ (inputs i).keys)
    {t : σ} (ht : ∀ c ∈ e.fields, (inputs i).get? c.name ≠ none → row t c.name = row s c.name) :
    (Repository.revise ⟨schema, e, .none, load⟩ id (inputs i)).Succeeds store t := by
  obtain ⟨current, assigned, hassigning, hcurrent⟩ := exists_current_of_interleaved hrun he hdone
  refine hanswers.succeeds_revise fun other log mid hget => ?_
  refine Entity.exists_assigning hassigning fun g hg hprojected => ?_
  obtain ⟨hpresent, hfield⟩ := Entity.exists_field_of_projected hprojected
  have hinput : (inputs i).get? g.key ≠ none := Option.isSome_iff_ne_none.1 hpresent
  have hno : e.isStamp g.key = false := by
    by_contra hyes
    exact hinput (Dict.get?_eq_none_iff.2 (hstamp g hg (by simpa using hyes)))
  obtain ⟨c, hc, hname⟩ := hfield hno
  rw [← hname] at hinput ⊢
  obtain ⟨hmem, htype⟩ := Entity.column_of_mem_fields hc
  obtain ⟨_, hother⟩ := (hkeeps c hc).shown he hmem rfl htype
    (fun q rs hreply => ⟨t, hreply, rfl⟩) hget
  rw [hother, ht c hc hinput]
  exact (hcurrent c hmem htype _ (hkeeps c hc) (absent_of_present hdisjoint hinput)).symm

end

/-- two updates with different columns in their payloads, in any interleaving in which both succeed:
the row is left as by one update after the other, in either order in which both succeed.  They do if
the database answers, and no payload names a time stamp that the graph looks at -/
theorem disjoint_updates_serializable {d : Document} {schema : Schema}
    (hd : d.resolve = .ok schema) {e : Entity} (he : e ∈ schema.entities) {load : LoadPlan}
    {σ : Type} {store : Store σ} {id : String} {row : σ → String → SqlValue}
    (hkeeps : ∀ c ∈ e.fields, Keeps store schema e id c.name fun s => row s c.name)
    {inputs : Bool → Row}
    (hdisjoint : ∀ name ∈ (inputs true).keys, name ∉ (inputs false).keys)
    {s s' : σ} {turns : List (Turn Bool σ)} {rest : Bool → Program (Except Error Record)}
    (hrun : Interleaved store
      (fun i => (Repository.revise ⟨schema, e, .none, load⟩ id (inputs i)).run) s turns rest s')
    (hdone : ∀ i, ∃ record, rest i = .done (.ok record)) (i : Bool)
    {first second : Except Error Record} {log log' : List Event} {s₁ s₂ : σ}
    (hfirst : (Repository.revise ⟨schema, e, .none, load⟩ id (inputs i)).runOn store s =
      (first, log, s₁))
    (hsecond : (Repository.revise ⟨schema, e, .none, load⟩ id (inputs !i)).runOn store s₁ =
      (second, log', s₂)) :
    ((∃ record, first = .ok record) → (∃ record, second = .ok record) →
      ∀ c ∈ e.fields, row s' c.name = row s₂ c.name) ∧
    (Answers store ⟨schema, e, .none, load⟩ id inputs →
      (∀ g, e.transitions = some g → e.isStamp g.key = true → ∀ i, g.key ∉ (inputs i).keys) →
      (∃ record, first = .ok record) ∧ ∃ record, second = .ok record) := by
  have hwf := (Document.wellFormed_of_resolve hd).entity e he
  have hunchanged : ∀ record, first = .ok record → ∀ c ∈ e.fields,
      (inputs i).get? c.name = none → row s₁ c.name = row s c.name := by
    rintro record rfl c hc hnone
    obtain ⟨hmem, ht⟩ := Entity.column_of_mem_fields hc
    rw [(hkeeps c hc).revised hwf hmem rfl ht hfirst, Entity.cellAfter_of_absent hnone]
  refine ⟨?_, fun hanswers hstamp => ?_⟩
  · rintro ⟨a, hok⟩ ⟨b, rfl⟩ c hc
    obtain ⟨hmem, ht⟩ := Entity.column_of_mem_fields hc
    have h := hkeeps c hc
    rw [h.revised hwf hmem rfl ht hsecond]
    -- one of the two payloads does not have the column
    by_cases hi : (inputs i).get? c.name = none
    · have hothers : ∀ j, j ≠ !i → (inputs j).get? c.name = none := by
        intro j hj
        obtain rfl : j = i := by simpa using hj
        exact hi
      obtain ⟨record, hdone⟩ := hdone !i
      rw [hunchanged a hok c hc hi]
      exact h.revised_of_interleaved hrun hothers hwf hmem rfl ht hdone
    · have hothers : ∀ j, j ≠ i → (inputs j).get? c.name = none :=
        absent_of_present hdisjoint hi
      have hsecond : (inputs !i).get? c.name = none := hothers (!i) (by simp)
      obtain ⟨record, hdone⟩ := hdone i
      rw [hok] at hfirst
      rw [Entity.cellAfter_of_absent hsecond, h.revised hwf hmem rfl ht hfirst]
      exact h.revised_of_interleaved hrun hothers hwf hmem rfl ht hdone
  · have hone : (Repository.revise ⟨schema, e, .none, load⟩ id (inputs i)).Succeeds store s := by
      obtain ⟨record, hdone⟩ := hdone i
      exact succeeds_of_interleaved hwf hkeeps hdisjoint hrun hanswers hdone
        (fun g hg hyes => hstamp g hg hyes i) fun _ _ _ => rfl
    obtain ⟨a, ha⟩ := hone
    rw [hfirst] at ha
    have hother :
        (Repository.revise ⟨schema, e, .none, load⟩ id (inputs !i)).Succeeds store s₁ := by
      obtain ⟨record, hdone⟩ := hdone !i
      refine succeeds_of_interleaved hwf hkeeps hdisjoint hrun hanswers hdone
        (fun g hg hyes => hstamp g hg hyes !i) fun c hc hinput => ?_
      exact hunchanged a ha c hc (absent_of_present hdisjoint hinput i (by simp))
    obtain ⟨b, hb⟩ := hother
    rw [hsecond] at hb
    exact ⟨⟨a, ha⟩, ⟨b, hb⟩⟩

/-! ### two updates of one task -/

/-- a program that has ended in a value -/
def Program.succeeded {α : Type} : Program (Except Error α) → Bool
  | .done (.ok _) => true
  | _ => false

theorem Program.eq_done_of_succeeded {α : Type} {p : Program (Except Error α)}
    (h : p.succeeded = true) : ∃ a, p = .done (.ok a) := by
  unfold succeeded at h
  split at h
  · exact ⟨_, rfl⟩
  · cases h

/-- both clients read, then one writes, and then the other -/
def readsFirst : List Bool := true :: false :: List.replicate 4 true ++ List.replicate 4 false

/-- a task without a state -/
def storedTask : StoredRow tasksEntity "5" := ⟨.ofList [("id", .text "5")], by decide⟩

/-- one update opens the task, the other gives it an owner and an effort -/
def taskInputs (i : Bool) : Row :=
  if i then .ofList [("state", .str "open")]
  else .ofList [("owner_id", .str "7"), ("effort", .int 3)]

def taskRevision (i : Bool) : Action Record :=
  Repository.revise ⟨tasksSchema, tasksEntity, .none, .empty⟩ "5" (taskInputs i)

/-- the task after both, with what is left to do -/
def revisedTask : (Bool → Program (Except Error Record)) × StoredRow tasksEntity "5" :=
  (interleave (rowStore tasksEntity "5" .null) readsFirst (fun i => (taskRevision i).run)
    storedTask).2

theorem revisedTask_done (i : Bool) : ∃ record, revisedTask.1 i = .done (.ok record) := by
  have hsucceeded : ∀ i, (revisedTask.1 i).succeeded = true := by decide
  exact eq_done_of_succeeded (hsucceeded i)

theorem revisedTask_cells : ["state", "owner_id", "effort"].map
    (fun name => (cell revisedTask.2.tuple name).state) = ["open", "7", "3"] := by decide

theorem interleaved_revisedTask : ∃ turns, Interleaved (rowStore tasksEntity "5" .null)
    (fun i => (taskRevision i).run) storedTask turns revisedTask.1 revisedTask.2 := by
  unfold revisedTask
  exact ⟨_, interleaved_interleave (rowStore tasksEntity "5" .null) readsFirst _ storedTask⟩

theorem task_updates_serialize :
    (∀ i, ∃ record, revisedTask.1 i = .done (.ok record)) ∧
      ["state", "owner_id", "effort"].map
        (fun name => (cell revisedTask.2.tuple name).state) = ["open", "7", "3"] ∧
      ∀ i, ∃ a b log log' s₁ s₂,
        (taskRevision i).runOn (rowStore tasksEntity "5" .null) storedTask = (.ok a, log, s₁) ∧
        (taskRevision !i).runOn (rowStore tasksEntity "5" .null) s₁ = (.ok b, log', s₂) ∧
        ∀ c ∈ tasksEntity.fields, cell revisedTask.2.tuple c.name = cell s₂.tuple c.name := by
  have he : tasksEntity ∈ tasksSchema.entities := List.mem_cons_self
  have hwf := (Document.wellFormed_of_resolve resolve_tasksDocument).entity tasksEntity he
  have hstamp : ∀ name, tasksEntity.isStamp name = true → ∀ i, name ∉ (taskInputs i).keys := by
    intro name hname
    cases hname
  have hanswers : Answers (rowStore tasksEntity "5" .null)
      ⟨tasksSchema, tasksEntity, .none, .empty⟩ "5" taskInputs := by
    refine ⟨fun row => found_rowStore hwf rfl row, fun i row current assigned h _ => ?_⟩
    exact executed_rowStore hwf (by decide) h
      (fun name hname => Dict.get?_eq_none_iff.2 (hstamp name hname i)) row
  refine ⟨revisedTask_done, revisedTask_cells, fun i => ?_⟩
  obtain ⟨turns, hrun⟩ := interleaved_revisedTask
  rcases hfirst : (taskRevision i).runOn (rowStore tasksEntity "5" .null) storedTask with
    ⟨first, log, s₁⟩
  rcases hsecond : (taskRevision !i).runOn (rowStore tasksEntity "5" .null) s₁ with
    ⟨second, log', s₂⟩
  obtain ⟨hsame, hserial⟩ := disjoint_updates_serializable resolve_tasksDocument he
    (fun c hc => keeps_rowStore hwf hc) (by decide) hrun revisedTask_done i hfirst hsecond
  obtain ⟨⟨a, rfl⟩, ⟨b, rfl⟩⟩ := hserial hanswers fun g _ hyes => hstamp g.key hyes
  exact ⟨a, b, log, log', s₁, s₂, rfl, hsecond, hsame ⟨a, rfl⟩ ⟨b, rfl⟩⟩

/-! ### a time stamp under the graph -/

/-- drafts declare their time stamp, and no payload may change it -/
def draftsDeclaration : EntityDeclaration where
  name := "drafts"
  table := none
  columns := [⟨"title", .text, true, false, none, false⟩, ⟨"body", .text, true, false, none, false⟩,
    ⟨updatedAt, .dateTime, true, false, none, false⟩]
  relationships := []
  searchVectors := []
  unique := []
  trackUpdatedAt := true
  transitions := some ⟨updatedAt, .empty⟩

def draftsEntity : Entity := draftsDeclaration.toEntity "public"

def draftsSchema : Schema := ⟨[draftsEntity]⟩

theorem resolve_draftsDocument :
    (Document.mk "public" [draftsDeclaration]).resolve = .ok draftsSchema := by rfl

def stampOf (s : String) : SqlValue := (castWrite .dateTime (.str s)).toOption.getD .null

def storedDraft : StoredRow draftsEntity "5" :=
  ⟨.ofList [("id", .text "5"), (updatedAt, stampOf "2024-05-06T00:00:00")], by decide +kernel⟩

/-- one update sends the time stamp that it has read along with the title -/
def draftInputs (i : Bool) : Row :=
  if i then .ofList [("title", .str "a"), (updatedAt, .str "2024-05-06T00:00:00")]
  else .ofList [("body", .str "b")]

def draftStore : Store (StoredRow draftsEntity "5") :=
  rowStore draftsEntity "5" (stampOf "2025-05-06T00:00:00")

def draftRevision (i : Bool) : Action Record :=
  Repository.revise ⟨draftsSchema, draftsEntity, .none, .empty⟩ "5" (draftInputs i)

/-- the draft after both, with what is left to do -/
def revisedDraft : (Bool → Program (Except Error Record)) × StoredRow draftsEntity "5" :=
  (interleave draftStore readsFirst (fun i => (draftRevision i).run) storedDraft).2

theorem revisedDraft_done (i : Bool) : ∃ record, revisedDraft.1 i = .done (.ok record) := by
  have hsucceeded : ∀ i, (revisedDraft.1 i).succeeded = true := by decide +kernel
  exact eq_done_of_succeeded (hsucceeded i)

theorem interleaved_revisedDraft : ∃ turns, Interleaved draftStore
    (fun i => (draftRevision i).run) storedDraft turns revisedDraft.1 revisedDraft.2 := by
  unfold revisedDraft
  exact ⟨_, interleaved_interleave draftStore readsFirst _ storedDraft⟩

/-- the draft after the body, and then what comes of the title -/
def titleAfterBody : Except Error Record × List Event × StoredRow draftsEntity "5" :=
  (draftRevision true).runOn draftStore ((draftRevision false).runOn draftStore storedDraft).2.2

/-- at the same time both updates succeed; one after the other, the title is refused for the time
stamp that the body has set -/
theorem stamp_refuses_second_update :
    (Document.mk "public" [draftsDeclaration]).resolve = .ok draftsSchema ∧
      draftsEntity ∈ draftsSchema.entities ∧
      (∀ c ∈ draftsEntity.fields, Keeps draftStore draftsSchema draftsEntity "5" c.name
        fun row => cell row.tuple c.name) ∧
      (∀ name ∈ (draftInputs true).keys, name ∉ (draftInputs false).keys) ∧
      (∃ turns, Interleaved draftStore (fun i => (draftRevision i).run) storedDraft turns
        revisedDraft.1 revisedDraft.2) ∧
      (∀ i, ∃ record, revisedDraft.1 i = .done (.ok record)) ∧
      (∃ err, titleAfterBody.1 = .error err ∧ err.isRejection = true) ∧
      ∃ c ∈ draftsEntity.fields,
        cell revisedDraft.2.tuple c.name ≠ cell titleAfterBody.2.2.tuple c.name := by
  have he : draftsEntity ∈ draftsSchema.entities := List.mem_cons_self
  have hwf := (Document.wellFormed_of_resolve resolve_draftsDocument).entity draftsEntity he
  have hrejected : ∃ err, titleAfterBody.1 = .error err ∧ err.isRejection = true := by
    have hoption : (match titleAfterBody.1 with
      | .error err => err.isRejection
      | .ok _ => false) = true := by decide +kernel
    revert hoption
    cases titleAfterBody.1 with
    | error err => exact fun h => ⟨err, rfl, h⟩
    | ok record => exact fun h => by cases h
  have htitle : (⟨"title", .text, true, false, none, false⟩ : Column) ∈ draftsEntity.fields := by
    decide
  have hlost : (cell revisedDraft.2.tuple "title").state = "a" ∧
      (cell titleAfterBody.2.2.tuple "title").state = "" := by decide +kernel
  refine ⟨resolve_draftsDocument, he, fun c hc => keeps_rowStore hwf hc, by decide,
    interleaved_revisedDraft, revisedDraft_done, hrejected, _, htitle, fun hsame => ?_⟩
  have hstates := hlost.1.symm.trans ((congrArg SqlValue.state hsame).trans hlost.2)
  exact absurd hstates (by decide)

end EntityAccess
