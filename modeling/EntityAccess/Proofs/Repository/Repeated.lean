import EntityAccess.Proofs.Calendar.Stored
import EntityAccess.Proofs.Concurrency.Fields
import EntityAccess.Proofs.Filter.Literals
import EntityAccess.Proofs.Repository.Revisions

/-!
# updates that are repeated

An update that has succeeded is repeated with the record that it has returned.  It compares its
values with what the store has kept of them, so that it has nothing to do exactly if the store shows
every value as it was cast: a date-time with less than a microsecond is cast to more digits than are
kept, and the time stamp is kept as the store's clock shows it.

* `prepareUpdate_nothing_iff` : when there is nothing to write;
* `executed_update_iff` : when there is, a statement is executed;
* `Keeps.value_of_update` : what the returned record shows of a field;
* `Entity.Settles`, `update_again_iff` : when the repeated update does nothing.
-/

namespace EntityAccess

open EntityAccess.Action Outcome Calendar
open Program (Store)

/-! ### values that are shown as they are -/

/-- a value that was sent is shown like the value itself only if they are equal -/
theorem SqlValue.same_sent_iff (x : SqlValue) :
    x.sent.toJson.same x.toJson = true ↔ x.sent = x := by
  constructor
  · intro h
    cases x with
    | dateTime t =>
      have htext : dateTimeText t.stored = dateTimeText t := by
        have hsame : (Json.str (dateTimeText t.stored)).same (.str (dateTimeText t)) = true := h
        simpa [Json.same] using hsame
      have hread := readWriteDateTime_dateTimeText t.stored
      rw [htext, readWriteDateTime_dateTimeText] at hread
      exact congrArg SqlValue.dateTime (Option.some.inj hread).symm
    | _ => rfl
  · intro h
    rw [h]
    exact x.toJson.same_self

namespace Entity

variable {e : Entity} {current record : Record} {input : Row} {assigned : Sql.Assignments}
  {name : String} {v : Json} {y : SqlValue}

theorem change_eq_none (hy : e.cast name v = .ok y)
    (hsame : (record.value name).same y.toJson = true) : e.change record (name, v) = .ok none := by
  obtain ⟨c, hc, hcast⟩ := bind_eq_ok.1 hy
  unfold change
  simp only [hc, hcast, hsame, bind, Except.bind, pure, Except.pure, if_true]

/-- there is nothing to write exactly if the record has all values already -/
theorem prepareUpdate_nothing_iff (hinput : input.isEmpty = false)
    (hcast : ∀ entry ∈ (e.projected input).entries, ∃ y, e.cast entry.1 entry.2 = .ok y) :
    e.prepareUpdate record input = .ok (.empty, .empty) ↔
      ∀ name v y, (e.projected input).get? name = some v → e.cast name v = .ok y →
        (record.value name).same y.toJson = true := by
  unfold prepareUpdate
  rw [hinput]
  constructor
  · intro h name v y hv hy
    by_contra hno
    have hkept : (Dict.empty : Row).get? name = some v := by
      refine (get?_of_diff h).2 ⟨hv, ?_⟩
      rw [differs_of_cast hy]
      simpa using hno
    cases hkept
  · intro h
    refine diff_of_forall fun ⟨name, v⟩ hentry => ?_
    obtain ⟨y, hy⟩ := hcast _ hentry
    exact change_eq_none hy (h name v y (Dict.get?_eq_some_iff.2 hentry) hy)

/-- nothing is assigned exactly if the record has all values already -/
theorem assigning_nil_iff (h : e.assigning record input = .ok assigned) :
    assigned = [] ↔ ∀ name v y, (e.projected input).get? name = some v → e.cast name v = .ok y →
      (record.value name).same y.toJson = true := by
  obtain ⟨_, hcast, _, hassigned⟩ := assigning_eq_ok.1 h
  have hnames := names_of_assignments hassigned
  constructor
  · rintro rfl name v y hv hy
    by_contra hno
    have hkept : (e.kept record input).get? name = some v := by
      rw [get?_kept, hv, Option.filter_some, differs_of_cast hy]
      simp [hno]
    have hname : name ∈ (e.kept record input).keys :=
      List.mem_map.2 ⟨_, Dict.get?_eq_some_iff.1 hkept, rfl⟩
    rw [← hnames] at hname
    cases hname
  · intro hall
    refine List.map_eq_nil_iff.1 (hnames.trans ?_)
    refine List.eq_nil_iff_forall_not_mem.2 fun name hname => ?_
    obtain ⟨⟨_, v⟩, hentry, rfl⟩ := List.mem_map.1 hname
    obtain ⟨hprojected, hdiffers⟩ := List.mem_filter.1 hentry
    obtain ⟨y, hy⟩ := hcast _ hprojected
    dsimp only at hdiffers
    rw [differs_of_cast hy, hall _ v y (Dict.get?_eq_some_iff.2 hprojected) hy] at hdiffers
    cases hdiffers

/-- what an update assigns to a column of its payload -/
theorem lookup_assigning (h : e.assigning current input = .ok assigned)
    (hv : (e.projected input).get? name = some v) (hy : e.cast name v = .ok y) :
    assigned.lookup name = if (current.value name).same y.toJson then none else some y := by
  obtain ⟨_, _, _, hassigned⟩ := assigning_eq_ok.1 h
  rw [lookup_assignments (fun _ _ => takes_of_kept) hassigned name, get?_kept, hv,
    Option.filter_some, differs_of_cast hy]
  cases (current.value name).same y.toJson with
  | true => rfl
  | false => simp [hy, Except.toOption]

end Entity

/-! ### the statement of an update -/

section

variable {schema : Schema} {e : Entity} {load : LoadPlan} {σ : Type} {store : Store σ}
  {s s' : σ} {current record : Record} {input : Row} {assigned : Sql.Assignments}
  {log : List Event} {id key : String} {held : σ → SqlValue}

/-- an update that can decide executes a statement exactly if it assigns something -/
theorem executed_update_iff (h : e.assigning current input = .ok assigned) :
    (∃ e' id' bound, .executed (.update e' id' bound) ∈
      ((Repository.update ⟨schema, e, .none, load⟩ current input).runOn store s).2.1) ↔
      assigned ≠ [] := by
  obtain ⟨values, first, changes, hprepare, hdecided⟩ := Entity.assigning_eq_decided.1 h
  constructor
  · rintro ⟨e', id', bound, hmem⟩
    obtain ⟨before, hexecutes⟩ := executes_of_mem hmem
    rcases Repository.executes_update Hooks.preparing_none.leading hexecutes with ⟨_, _, _, hpure⟩ |
      ⟨values', _, _, hooked, kept, _, _, _, _, hprepare', hrule, hdiff, _, hsome, _⟩ | hread
    · exact hpure.not_pure.elim
    · rintro rfl
      obtain ⟨rfl, _⟩ : values' = hooked ∧ _ := of_runOn_pure hrule
      obtain ⟨rfl, _⟩ := Prod.mk.inj (Except.ok.inj (hprepare.symm.trans hprepare'))
      obtain ⟨kept', hdiff', _, hassigned⟩ := Entity.decided_eq_ok.1 hdecided
      obtain ⟨rfl, _⟩ := Prod.mk.inj (Except.ok.inj (hdiff.symm.trans hdiff'))
      have hnames := Entity.names_of_assignments hassigned
      unfold Dict.isEmpty at hsome
      rw [List.map_eq_nil_iff.1 hnames.symm] at hsome
      cases hsome
    · cases hread
  · intro hsome
    exact ⟨e, current.id, assigned, (Repository.executes_of_assigning h hsome).mem_log⟩

/-- a record that an update returns shows what is held of a field -/
theorem Keeps.value_of_update (hkeeps : Keeps store schema e id key held) (he : e.WellFormed)
    {c : Column} (hc : c ∈ e.fields) (hname : c.name = key) (hid : current.id = id)
    (hrun : (Repository.update ⟨schema, e, .none, load⟩ current input).runOn store s =
      (.ok record, log, s')) (h : e.assigning current input = .ok assigned) :
    record.value key = (((assigned.lookup key).map SqlValue.sent).getD (held s)).sent.toJson := by
  obtain ⟨assigned', mid, log', hassigning, hwritten, hreread⟩ := Repository.of_runOn_update hrun
  obtain rfl : assigned = assigned' := Except.ok.inj (h.symm.trans hassigning)
  obtain ⟨hcolumn, ht⟩ := Entity.column_of_mem_fields hc
  have hheld : held mid = ((assigned.lookup key).map SqlValue.sent).getD (held s) := by
    rcases hwritten with ⟨rfl, rfl⟩ | ⟨rs, hreply⟩
    · rfl
    · rw [hid] at hreply
      have hupdated := hkeeps.updated s assigned rs (by rw [hreply])
      rw [hreply] at hupdated
      exact hupdated
  unfold Repository.reread at hreread
  obtain ⟨found, _, _, _, hget, hlift, _⟩ := of_runOn_bind hreread
  obtain ⟨hrequired, _, _⟩ := of_runOn_liftM hlift
  cases found with
  | none => simp [Repository.required] at hrequired
  | some record' =>
    obtain rfl := Except.ok.inj hrequired
    rw [hid] at hget
    obtain ⟨_, hshown⟩ := hkeeps.shown he hcolumn hname ht
      (fun q rs hreply => ⟨mid, hreply, hheld⟩) hget
    unfold Record.value Record.get?
    rw [hshown]
    rfl

end

/-! ### the same update again -/

/-- whether what is kept of the values of a payload is shown like the values themselves: of a value
that is written, because it is sent as it is; of one that the current record has already, because
the store holds it; and of the time stamp -/
def Entity.Settles (e : Entity) (current record : Record) (row : String → SqlValue) (input : Row) :
    Prop :=
  ∀ name v y, (e.projected input).get? name = some v → e.cast name v = .ok y →
    if e.isStamp name then (record.value name).same y.toJson = true
    else if (current.value name).same y.toJson then (row name).sent.toJson.same y.toJson = true
    else y.sent = y

section

variable {schema : Schema} {e : Entity} {load : LoadPlan} {σ : Type} {store : Store σ}
  {s s' : σ} {current record : Record} {input : Row} {assigned : Sql.Assignments}
  {log : List Event} {id : String} {row : σ → String → SqlValue}

/-- the values of a payload are settled exactly if the record that comes back has them -/
theorem settles_iff (he : e.WellFormed)
    (hkeeps : ∀ c ∈ e.fields, Keeps store schema e id c.name fun s => row s c.name)
    (hid : current.id = id)
    (hrun : (Repository.update ⟨schema, e, .none, load⟩ current input).runOn store s =
      (.ok record, log, s')) (h : e.assigning current input = .ok assigned) :
    e.Settles current record (row s) input ↔
      ∀ name v y, (e.projected input).get? name = some v → e.cast name v = .ok y →
        (record.value name).same y.toJson = true := by
  unfold Entity.Settles
  refine forall₅_congr fun name v y hv hy => ?_
  cases hstamp : e.isStamp name with
  | true => simp
  | false =>
    obtain ⟨_, hfield⟩ := Entity.exists_field_of_projected (by rw [hv]; rfl)
    obtain ⟨c, hc, hname⟩ := hfield hstamp
    subst hname
    have hvalue := (hkeeps c hc).value_of_update he hc rfl hid hrun h
    rw [hvalue, Entity.lookup_assigning h hv hy]
    cases (current.value c.name).same y.toJson with
    | true => simp
    | false => simp [SqlValue.sent_sent, SqlValue.same_sent_iff]

/-- an update without rules tells no changes exactly if it assigns nothing -/
theorem told_iff {next : Record} {changes : Changes} {reported : List Event} {s' : σ}
    (h : e.assigning current input = .ok assigned)
    (hupdated : Repository.Updated ⟨schema, e, .none, load⟩ store s current input next changes
      reported s') : changes.isEmpty = true ↔ assigned = [] := by
  obtain ⟨values, first, changes', hprepare, hdecided⟩ := Entity.assigning_eq_decided.1 h
  cases hupdated with
  | intro hprepare' hrule hdecided' htells _ _ _ _ _ =>
    dsimp only at hprepare' hdecided'
    obtain ⟨rfl, _⟩ := Prod.mk.inj (Except.ok.inj (hprepare.symm.trans hprepare'))
    obtain ⟨rfl, _⟩ : values = _ ∧ _ := of_runOn_pure hrule
    obtain ⟨rfl, _⟩ := Prod.mk.inj (Except.ok.inj (hdecided.symm.trans hdecided'))
    have hcolumns := htells.columns
    unfold Dict.keys at hcolumns
    unfold Dict.isEmpty
    rw [List.isEmpty_iff, ← List.map_eq_nil_iff (f := (·.1)), hcolumns, List.map_eq_nil_iff]

/-- what a repeated update assigns -/
theorem exists_assigning_again (he : e.WellFormed) (hgraph : e.transitions = none)
    (hkeeps : ∀ c ∈ e.fields, Keeps store schema e id c.name fun s => row s c.name)
    (hid : current.id = id)
    (hrun : (Repository.update ⟨schema, e, .none, load⟩ current input).runOn store s =
      (.ok record, log, s')) :
    ∃ assigned, e.assigning record input = .ok assigned ∧
      (assigned = [] ↔ e.Settles current record (row s) input) := by
  obtain ⟨assigned, _, _, hassigning, _, _⟩ := Repository.of_runOn_update hrun
  obtain ⟨assigned', hagain⟩ : ∃ assigned', e.assigning record input = .ok assigned' :=
    Entity.exists_assigning hassigning fun g hg => by rw [hgraph] at hg; cases hg
  refine ⟨assigned', hagain, ?_⟩
  rw [settles_iff he hkeeps hid hrun hassigning]
  exact Entity.assigning_nil_iff hagain

end

/-- the record that an update has returned, updated with the same payload: a statement is executed,
and a change told, exactly if the values of the payload are not settled -/
theorem update_again_iff {d : Document} {schema : Schema} (hd : d.resolve = .ok schema)
    {e : Entity} (he : e ∈ schema.entities) (hgraph : e.transitions = none) (load : LoadPlan)
    {σ : Type} {store : Store σ} {id : String} {row : σ → String → SqlValue}
    (hkeeps : ∀ c ∈ e.fields, Keeps store schema e id c.name fun s => row s c.name)
    {current record : Record} (hid : current.id = id) {input : Row} {s s' : σ} {log : List Event}
    (hrun : (Repository.update ⟨schema, e, .none, load⟩ current input).runOn store s =
      (.ok record, log, s')) :
    ((∃ e' id' bound, .executed (.update e' id' bound) ∈
        ((Repository.update ⟨schema, e, .none, load⟩ record input).runOn store s').2.1) ↔
      ¬ e.Settles current record (row s) input) ∧
    (e.prepareUpdate record input = .ok (.empty, .empty) ↔
      e.Settles current record (row s) input) ∧
    ∀ next changes log' s'', Repository.Updated ⟨schema, e, .none, load⟩ store s' record input next
        changes log' s'' →
      (changes.isEmpty = true ↔ e.Settles current record (row s) input) := by
  have hwf := (Document.wellFormed_of_resolve hd).entity e he
  obtain ⟨assigned, hagain, hsettles⟩ := exists_assigning_again hwf hgraph hkeeps hid hrun
  obtain ⟨hinput, hcast, _, _⟩ := Entity.assigning_eq_ok.1 hagain
  rw [← hsettles]
  refine ⟨executed_update_iff hagain, ?_, fun next changes log' s'' => told_iff hagain⟩
  rw [Entity.prepareUpdate_nothing_iff hinput hcast, Entity.assigning_nil_iff hagain]

/-! ### visits -/

def visitsDeclaration : EntityDeclaration where
  name := "visits"
  table := none
  columns := [⟨"title", .text, true, false, none, false⟩,
    ⟨"seen_at", .dateTime, true, false, none, false⟩]
  relationships := []
  searchVectors := []
  unique := []
  trackUpdatedAt := false
  transitions := none

def visitsEntity : Entity := visitsDeclaration.toEntity "public"

def visitsSchema : Schema := ⟨[visitsEntity]⟩

theorem resolve_visitsDocument :
    (Document.mk "public" [visitsDeclaration]).resolve = .ok visitsSchema := by rfl

theorem wellFormed_visits : visitsEntity.WellFormed :=
  (Document.wellFormed_of_resolve resolve_visitsDocument).entity _ (List.mem_singleton_self _)

/-- a visit without a time -/
def storedVisit : StoredRow visitsEntity "5" := ⟨.ofList [("id", .text "5")], by decide⟩

def visit : Record := .ofRow (.ofList [("id", .str "5"), ("title", .null), ("seen_at", .null)])

/-- a payload with a time -/
def seenAt (time : String) : Row := .ofList [("seen_at", .str time)]

def visitStore : Store (StoredRow visitsEntity "5") := rowStore visitsEntity "5" .null

section

variable {time : String} {t : DateTime}

theorem cast_seenAt (h : readWriteDateTime time = some t) :
    visitsEntity.cast "seen_at" (.str time) = .ok (.dateTime t) := castWrite_dateTime h

theorem projected_seenAt (time : String) :
    (visitsEntity.projected (seenAt time)).entries = [("seen_at", .str time)] := rfl

theorem assigning_seenAt (h : readWriteDateTime time = some t) :
    visitsEntity.assigning visit (seenAt time) = .ok [("seen_at", .dateTime t)] :=
  Entity.assigning_single rfl (projected_seenAt time) (cast_seenAt h) rfl

/-- the values of such a payload are settled exactly if the time is kept as it is -/
theorem settles_seenAt_iff (h : readWriteDateTime time = some t) (record : Record)
    (row : String → SqlValue) :
    visitsEntity.Settles visit record row (seenAt time) ↔ t.stored = t := by
  unfold Entity.Settles
  constructor
  · intro hsettles
    have hmem : ("seen_at", .str time) ∈ (visitsEntity.projected (seenAt time)).entries :=
      List.mem_cons_self
    exact SqlValue.dateTime.inj
      (hsettles "seen_at" _ (.dateTime t) (Dict.get?_eq_some_iff.2 hmem) (cast_seenAt h))
  · intro hstored name v y hv hy
    rw [Dict.get?_eq_some_iff, projected_seenAt, List.mem_singleton] at hv
    obtain ⟨rfl, rfl⟩ := Prod.mk.inj hv
    obtain rfl : SqlValue.dateTime t = y := Except.ok.inj ((cast_seenAt h).symm.trans hy)
    exact congrArg SqlValue.dateTime hstored

/-- the store with the visit executes such an update -/
theorem updated_visit (h : readWriteDateTime time = some t) :
    ∃ record log s', (Repository.update ⟨visitsSchema, visitsEntity, .none, .empty⟩ visit
      (seenAt time)).runOn visitStore storedVisit = (.ok record, log, s') := by
  have hanswers : Answers visitStore ⟨visitsSchema, visitsEntity, .none, .empty⟩ "5"
      fun _ : Unit => seenAt time := by
    refine ⟨fun row => found_rowStore wellFormed_visits rfl row,
      fun _ row current assigned h _ => ?_⟩
    exact executed_rowStore wellFormed_visits (by decide) h (fun name hname => by cases hname) row
  have hsucceeds : (Repository.update ⟨visitsSchema, visitsEntity, .none, .empty⟩ visit
      (seenAt time)).Succeeds visitStore storedVisit :=
    Repository.succeeds_update (assigning_seenAt h)
      (fun hsome => hanswers.executed () storedVisit visit _ (assigning_seenAt h) hsome)
      fun s => hanswers.succeeds_reread s
  obtain ⟨record, hrecord⟩ := hsucceeds
  exact ⟨record, _, _, Prod.ext hrecord rfl⟩

end

theorem keeps_visit {c : Column} (hc : c ∈ visitsEntity.fields) :
    Keeps visitStore visitsSchema visitsEntity "5" c.name fun s => cell s.tuple c.name :=
  keeps_rowStore wellFormed_visits hc

/-- a time to the second, written twice -/
theorem visit_settled : ∃ record log s',
    (Repository.update ⟨visitsSchema, visitsEntity, .none, .empty⟩ visit
      (seenAt "2024-01-31 09:30")).runOn visitStore storedVisit = (.ok record, log, s') ∧
    visitsEntity.prepareUpdate record (seenAt "2024-01-31 09:30") = .ok (.empty, .empty) ∧
    ∀ e' id' bound, .executed (.update e' id' bound) ∉
      ((Repository.update ⟨visitsSchema, visitsEntity, .none, .empty⟩ record
        (seenAt "2024-01-31 09:30")).runOn visitStore s').2.1 := by
  have hread : readWriteDateTime "2024-01-31 09:30" = some
      ⟨⟨2024, 1, 31, by decide, by decide, by decide⟩,
        ⟨9, 30, 0, 0, by decide, by decide, by decide, by decide⟩⟩ := by decide +kernel
  obtain ⟨record, log, s', hrun⟩ := updated_visit hread
  have hid : visit.id = "5" := by decide
  obtain ⟨hexecuted, hnothing, _⟩ := update_again_iff resolve_visitsDocument
    (List.mem_singleton_self _) rfl .empty (fun _ hc => keeps_visit hc) hid hrun
  have hsettles : visitsEntity.Settles visit record (cell storedVisit.tuple)
      (seenAt "2024-01-31 09:30") := (settles_seenAt_iff hread _ _).2 (by decide +kernel)
  have hnothing := hnothing.2 hsettles
  refine ⟨record, log, s', hrun, hnothing, fun e' id' bound hmem => ?_⟩
  exact hexecuted.1 ⟨e', id', bound, hmem⟩ hsettles

/-- a time to the nanosecond is written as often as it is sent, each time to a visit that shows what
is kept of it -/
theorem visit_rewritten :
    (Document.mk "public" [visitsDeclaration]).resolve = .ok visitsSchema ∧
      visitsEntity ∈ visitsSchema.entities ∧ visitsEntity.transitions = none ∧
      (∀ c ∈ visitsEntity.fields, Keeps visitStore visitsSchema visitsEntity "5" c.name
        fun s => cell s.tuple c.name) ∧
      visit.id = "5" ∧
      (∀ c ∈ visitsEntity.fields,
        visit.value c.name = (cell storedVisit.tuple c.name).sent.toJson) ∧
      ∃ record log s', (Repository.update ⟨visitsSchema, visitsEntity, .none, .empty⟩ visit
          (seenAt "2024-01-31T09:30:15.123456789")).runOn visitStore storedVisit =
          (.ok record, log, s') ∧
        ∃ e' id' bound, .executed (.update e' id' bound) ∈
          ((Repository.update ⟨visitsSchema, visitsEntity, .none, .empty⟩ record
            (seenAt "2024-01-31T09:30:15.123456789")).runOn visitStore s').2.1 := by
  have hread : readWriteDateTime "2024-01-31T09:30:15.123456789" = some
      ⟨⟨2024, 1, 31, by decide, by decide, by decide⟩,
        ⟨9, 30, 15, 123456789, by decide, by decide, by decide, by decide⟩⟩ := by decide +kernel
  obtain ⟨record, log, s', hrun⟩ := updated_visit hread
  have hid : visit.id = "5" := by decide
  have hshown : ∀ c ∈ visitsEntity.fields,
      visit.value c.name = (cell storedVisit.tuple c.name).sent.toJson := by
    intro c hc
    have hname : c.name ∈ ["title", "seen_at", "created_at"] := List.mem_map_of_mem hc
    simp only [List.mem_cons, List.not_mem_nil, or_false] at hname
    rcases hname with hname | hname | hname <;> rw [hname] <;> rfl
  obtain ⟨assigned, hagain, hnil⟩ := exists_assigning_again wellFormed_visits rfl
    (fun _ hc => keeps_visit hc) hid hrun
  have hsettles : ¬ visitsEntity.Settles visit record (cell storedVisit.tuple)
      (seenAt "2024-01-31T09:30:15.123456789") := fun h =>
    absurd ((settles_seenAt_iff hread _ _).1 h) (by decide +kernel)
  exact ⟨resolve_visitsDocument, List.mem_singleton_self _, rfl, fun _ hc => keeps_visit hc, hid,
    hshown, record, log, s', hrun, (executed_update_iff hagain).2 fun h => hsettles (hnil.1 h)⟩

end EntityAccess
