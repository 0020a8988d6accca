import EntityAccess.Proofs.Concurrency.StoredRow
import EntityAccess.Proofs.Filter.Literals
import EntityAccess.Proofs.Repository.Revisions
import EntityAccess.Proofs.Repository.WriteFaults

/-!
# states by their spellings

A change of state is compared with the current value as it is cast, and looked up in the graph as it
is written in the payload.  Values that are cast to one and the same state can so be judged
differently: a text may write the state `2` as ` 2`, which no edge of the graph leads to.

* `Repository.Rejects`, `rejects_iff` : updates that are refused by the graph;
* `rejects_insert_iff` : the verdict on one value of the payload;
* `SpellingsAgree` : values that are cast alike are judged alike;
* `spellings_agree_iff` : the column types of which that is true.
-/

namespace EntityAccess

open EntityAccess.Action Outcome
open Program (Store)

/-! ### updates that are refused by the graph -/

/-- the update ends in a refused change of state -/
def Repository.Rejects (r : Repository) (current : Record) (input : Row) {σ : Type}
    (store : Store σ) (s : σ) : Prop :=
  ∃ err, ((r.update current input).runOn store s).1 = .error err ∧ err.isRejection = true

namespace Entity

variable {e : Entity} {current : Record} {input values kept : Row} {first changes : Changes}

theorem mild_prepareUpdate (e : Entity) (current : Record) (input : Row) :
    MildOutcome (e.prepareUpdate current input) := by
  unfold prepareUpdate
  split
  · exact .error rfl
  · exact e.mild_diff current _

/-- a decision is refused by the graph, or for no change of state -/
theorem checked_of_decided_error (hprepare : e.prepareUpdate current input = .ok (values, first))
    {err : Error} (h : e.decided current values = .error err) (hrejected : err.isRejection = true) :
    Repository.checkTransition e current (e.kept current input) = .error err := by
  rcases bind_eq_error.1 h with hdiff | ⟨⟨kept, changes⟩, hdiff, h⟩
  · rw [e.mild_diff current values err hdiff] at hrejected
    cases hrejected
  rw [← eq_kept_of_diff (diff_of_prepareUpdate hprepare) hdiff]
  rcases bind_eq_error.1 h with hcheck | ⟨_, _, h⟩
  · exact hcheck
  rcases bind_eq_error.1 h with hassigned | ⟨_, _, hpure⟩
  · rw [e.mild_assignments kept err hassigned] at hrejected
    cases hrejected
  · cases hpure

/-- a value that can be cast is taken -/
theorem takes_of_castWrite {name : String} {c : Column} {a : Json} {x : SqlValue}
    (hc : e.writableColumn? name = some c) (hnull : a.isNull = false)
    (hx : castWrite c.type a = .ok x) : e.takes name a = true := by
  unfold takes
  rw [hc, hnull]
  cases a with
  | arr items =>
    cases htype : c.type with
    | json => simp [htype]
    | _ =>
      rw [htype] at hx
      cases hx
  | _ => simp [Json.isArr]

theorem rejection_of_check {err : Error}
    (h : Repository.checkTransition e current kept = .error err) : err.isRejection = true := by
  unfold Repository.checkTransition at h
  split at h
  · unfold TransitionGraph.validate at h
    split at h
    · cases h
    · dsimp only at h
      split at h
      · cases h
      · obtain rfl := Except.error.inj h
        rfl
  · cases h

end Entity

namespace Repository

variable {schema : Schema} {e : Entity} {load : LoadPlan} {σ : Type} {store : Store σ} {s : σ}
  {current : Record} {input : Row}

theorem mild_ownUpdate (e : Entity) (id : String) (assigned : Sql.Assignments) :
    Mild (ownUpdate e id assigned) := by
  unfold ownUpdate
  split
  · exact .pure ()
  · exact .query _ _

/-- an update is refused by the graph exactly if all its values can be cast and the check of those
that differ fails -/
theorem rejects_iff : Rejects ⟨schema, e, .none, load⟩ current input store s ↔
    input.isEmpty = false ∧
      (∀ entry ∈ (e.projected input).entries, ∃ y, e.cast entry.1 entry.2 = .ok y) ∧
      ∃ err, checkTransition e current (e.kept current input) = .error err := by
  constructor
  · rintro ⟨err, hresult, hrejected⟩
    rcases hrun : (update ⟨schema, e, .none, load⟩ current input).runOn store s with
      ⟨result, log, s'⟩
    rw [hrun] at hresult
    obtain rfl : result = .error err := hresult
    have hno : ∀ {α : Type} {x : Except Error α}, MildOutcome x → x ≠ .error err := by
      intro α x hmild hx
      rw [hmild err hx] at hrejected
      cases hrejected
    rcases runOn_liftM_bind_cases hrun with ⟨err', hprepare, heq, _⟩ |
      ⟨⟨values, first⟩, hprepare, hwrite⟩
    · obtain rfl := Except.error.inj heq
      exact absurd hprepare (hno (e.mild_prepareUpdate current input))
    have hinput : input.isEmpty = false := by
      cases hempty : input.isEmpty with
      | false => rfl
      | true => simp [Entity.prepareUpdate, hempty] at hprepare
    refine ⟨hinput, Entity.diff_isOk.1 ⟨_, Entity.diff_of_prepareUpdate hprepare⟩, err, ?_⟩
    rcases runOn_bind_cases hwrite with ⟨err', hrow, heq⟩ | ⟨_, _, mid, _, _, hafter, _⟩
    · obtain rfl := Except.error.inj heq
      obtain ⟨_, hways, _⟩ := rewriting_of_runOn hrow
      generalize hresult : (Except.error err : Except Error Changes) = result at hways
      cases hways with
      | ruledOut hrule => cases hrule
      | refused hrule hdecided =>
        obtain rfl := Except.error.inj hresult
        obtain ⟨rfl, _⟩ := of_runOn_pure hrule
        exact Entity.checked_of_decided_error hprepare hdecided hrejected
      | unwritten _ _ hown =>
        obtain rfl := Except.error.inj hresult
        exact absurd (congrArg Prod.fst hown) (hno (mild_ownUpdate _ _ _ σ store _))
      | written _ _ _ hrelated =>
        obtain ⟨rfl, _⟩ := Prod.mk.inj hrelated
        cases hresult
    · have hmild : Mild (reread ⟨schema, e, .none, load⟩ current.id) :=
        mild_reread (fun _ _ => rfl) (fun _ _ => rfl) _
      have hrest := hmild.bind fun record => .bind (.pure ()) fun _ => .pure record
      exact absurd (congrArg Prod.fst hafter) (hno (hrest σ store mid))
  · rintro ⟨hinput, hcast, err, hcheck⟩
    refine ⟨err, ?_, Entity.rejection_of_check hcheck⟩
    have hdiff : ∃ found, e.diff current (e.projected input) = .ok found :=
      Entity.diff_isOk.2 hcast
    obtain ⟨⟨values, first⟩, hdiff⟩ := hdiff
    have hprepare : e.prepareUpdate current input = .ok (values, first) := by
      unfold Entity.prepareUpdate
      rw [hinput]
      exact hdiff
    obtain ⟨kept, changes, hagain, _⟩ := Entity.assignable_of_prepareUpdate hprepare
    have hdecided : e.decided current values = .error err := by
      rw [← Entity.eq_kept_of_diff hdiff hagain] at hcheck
      exact bind_eq_error.2 (.inr ⟨_, hagain, bind_eq_error.2 (.inl hcheck)⟩)
    have hrow : ((updateRow ⟨schema, e, .none, load⟩ current values input).runOn store s).1 =
        .error err := by
      rw [updateRow_eq, runOn_transaction]
      have hrule : (Hooks.none.preUpdate current values input).runOn store s =
          (.ok values, [], s) := rfl
      dsimp only
      rw [runOn_bind_ok _ hrule, hdecided, runOn_bind_error _ (runOn_liftM _)]
    unfold update
    rw [hprepare, liftM_ok_bind, runOn_bind_error _ (Prod.ext hrow rfl)]

/-! ### the verdict on a value -/

section

variable {g : TransitionGraph} {c : Column} {a : Json} {x : SqlValue}

/-- a change of state is refused if no edge leads to the name of the value that is kept for it -/
theorem check_fails_iff (hg : e.transitions = some g) {kept : Row} :
    (∃ err, checkTransition e current kept = .error err) ↔
      ∃ v, kept.get? g.key = some v ∧
        g.permits (current.state g.key) (TransitionGraph.stateName v) = false := by
  have hbefore : ((current.values.get? g.key).map TransitionGraph.stateName).getD "" =
      current.state g.key := (current.state_eq g.key).symm
  unfold checkTransition
  rw [hg]
  dsimp only
  unfold TransitionGraph.validate
  rw [hbefore]
  cases hkept : kept.get? g.key with
  | none => simp
  | some v =>
    cases hpermits : g.permits (current.state g.key) (TransitionGraph.stateName v) with
    | true => simp [hpermits]
    | false => simp [hpermits]

/-- with a value for the state, an update is refused exactly if its other values can be cast, the
value differs from the current one as it is cast, and no edge leads to it as it is written -/
theorem rejects_insert_iff (hg : e.transitions = some g) (hc : e.writableColumn? g.key = some c)
    (hnull : a.isNull = false) (hx : castWrite c.type a = .ok x) :
    Rejects ⟨schema, e, .none, load⟩ current (input.insert g.key a) store s ↔
      (∀ entry ∈ (e.projected input).entries, entry.1 ≠ g.key →
        ∃ y, e.cast entry.1 entry.2 = .ok y) ∧
      (current.value g.key).same x.toJson = false ∧
      g.permits (current.state g.key) (TransitionGraph.stateName a) = false := by
  have htakes : e.takes g.key a = true := Entity.takes_of_castWrite hc hnull hx
  have hcast : e.cast g.key a = .ok x := bind_eq_ok.2
    ⟨c, Entity.scalarColumn_of_assignable (Entity.assignableColumn?_of_writable hc), hx⟩
  have hself : (e.projected (input.insert g.key a)).get? g.key = some a := by
    rw [Entity.get?_projected, Dict.get?_insert_self, Option.filter_some, htakes]
    rfl
  have hother : ∀ name, name ≠ g.key →
      (e.projected (input.insert g.key a)).get? name = (e.projected input).get? name := by
    intro name hname
    rw [Entity.get?_projected, Entity.get?_projected, Dict.get?_insert_ne _ _ (Ne.symm hname)]
  have hinput : (input.insert g.key a).isEmpty = false := by
    cases hempty : (input.insert g.key a).isEmpty with
    | false => rfl
    | true =>
      have hget := Dict.get?_insert_self input g.key a
      unfold Dict.get? at hget
      rw [List.isEmpty_iff.1 hempty] at hget
      cases hget
  have hcasts : (∀ entry ∈ (e.projected (input.insert g.key a)).entries,
        ∃ y, e.cast entry.1 entry.2 = .ok y) ↔
      ∀ entry ∈ (e.projected input).entries, entry.1 ≠ g.key →
        ∃ y, e.cast entry.1 entry.2 = .ok y := by
    constructor
    · intro h entry hentry hname
      refine h entry (Dict.get?_eq_some_iff.1 ?_)
      rw [hother _ hname]
      exact Dict.get?_eq_some_iff.2 hentry
    · intro h entry hentry
      by_cases hname : entry.1 = g.key
      · have hv := Dict.get?_eq_some_iff.2 hentry
        rw [hname, hself] at hv
        exact ⟨x, by rw [hname, ← Option.some.inj hv]; exact hcast⟩
      · refine h entry (Dict.get?_eq_some_iff.1 ?_) hname
        rw [← hother _ hname]
        exact Dict.get?_eq_some_iff.2 hentry
  have hkept : (e.kept current (input.insert g.key a)).get? g.key =
      if (current.value g.key).same x.toJson then none else some a := by
    rw [Entity.get?_kept, hself, Option.filter_some, Entity.differs_of_cast hcast]
    cases (current.value g.key).same x.toJson <;> rfl
  rw [rejects_iff, check_fails_iff hg, hcasts, hkept]
  cases (current.value g.key).same x.toJson with
  | true => simp
  | false => simp [hinput]

end

end Repository

/-! ### casts that fail -/

/-- a cast that fails names the value that it could not cast -/
theorem castWrite_error_names {type : ColumnType} (htype : type ≠ .searchVector) {v : Json}
    {err : Error} (h : castWrite type v = .error err) :
    (∃ kind, err = .badRequest (.unexpectedValue kind v)) ∨
      ∃ s, v = .str s ∧ err = .invalidDateFormat s := by
  have hexpect : ∀ {kind found}, expect kind v found = .error err →
      ∃ kind, err = .badRequest (.unexpectedValue kind v) := by
    intro kind found h
    cases found with
    | some x => cases h
    | none => exact ⟨kind, (Except.error.inj h).symm⟩
  have htime : ∀ {kind read}, castTime kind read v = .error err →
      (∃ kind, err = .badRequest (.unexpectedValue kind v)) ∨
        ∃ s, v = .str s ∧ err = .invalidDateFormat s := by
    intro kind read h
    unfold castTime at h
    split at h
    · split at h
      · cases h
      · exact .inr ⟨_, rfl, (Except.error.inj h).symm⟩
    · exact .inl ⟨kind, (Except.error.inj h).symm⟩
  unfold castWrite at h
  split at h
  · cases h
  cases type with
  | text =>
    have h : castText v = .error err := h
    unfold castText at h
    split at h
    · cases h
    · cases h
    · cases h
    · cases h
    · exact .inl ⟨.text, (Except.error.inj h).symm⟩
  | integer => exact .inl (hexpect h)
  | float => exact .inl (hexpect h)
  | boolean => exact .inl (hexpect h)
  | date => exact htime h
  | dateTime => exact htime h
  | json => cases h
  | searchVector => exact absurd rfl htype

theorem eq_of_castWrite_error {type : ColumnType} (htype : type ≠ .searchVector) {a b : Json}
    {err : Error} (ha : castWrite type a = .error err) (hb : castWrite type b = .error err) :
    a = b := by
  rcases castWrite_error_names htype ha with ⟨kind, rfl⟩ | ⟨s, rfl, rfl⟩
  · rcases castWrite_error_names htype hb with ⟨kind', heq⟩ | ⟨s, _, heq⟩
    · cases heq
      rfl
    · cases heq
  · rcases castWrite_error_names htype hb with ⟨kind', heq⟩ | ⟨s', rfl, heq⟩
    · cases heq
    · cases heq
      rfl

/-! ### values that are cast alike -/

/-- in every accepted schema with a graph on a writable column of a type, updates that differ in two
values for that column which are cast alike are both refused by the graph, or neither is -/
def SpellingsAgree (type : ColumnType) : Prop :=
  ∀ (d : Document) (schema : Schema), d.resolve = .ok schema → ∀ e ∈ schema.entities,
    ∀ (g : TransitionGraph) (c : Column), e.transitions = some g →
      e.writableColumn? g.key = some c → c.type = type →
    ∀ (current : Record) (input : Row) (a b : Json), a.isNull = false → b.isNull = false →
      castWrite type a = castWrite type b →
    ∀ (load : LoadPlan) (σ : Type) (store : Store σ) (s : σ),
      Repository.Rejects ⟨schema, e, .none, load⟩ current (input.insert g.key a) store s ↔
        Repository.Rejects ⟨schema, e, .none, load⟩ current (input.insert g.key b) store s

/-- values agree whose names do -/
theorem spellingsAgree_of_names {type : ColumnType} (h : ∀ a b x, a.isNull = false →
      b.isNull = false → castWrite type a = .ok x → castWrite type b = .ok x →
        TransitionGraph.stateName a = TransitionGraph.stateName b) :
    SpellingsAgree type := by
  intro d schema _ e _ g c hg hc htype current input a b ha hb hcast load σ store s
  subst htype
  have hscalar : c.type ≠ .searchVector := by
    obtain ⟨_, hwrite⟩ := Option.filter_eq_some_iff.1 hc
    intro hvector
    simp [hvector] at hwrite
  cases hx : castWrite c.type a with
  | error err => rw [eq_of_castWrite_error hscalar hx (hcast.symm.trans hx)]
  | ok x =>
    have hy : castWrite c.type b = .ok x := hcast.symm.trans hx
    rw [Repository.rejects_insert_iff hg hc ha hx, Repository.rejects_insert_iff hg hc hb hy,
      h a b x ha hb hx hy]

/-! ### marks in two spellings -/

/-- from no state to `first` -/
def marksGraph (first : String) : TransitionGraph := ⟨"state", .ofList [("", [first])]⟩

theorem permits_marksGraph (first name : String) :
    (marksGraph first).permits "" name = true ↔ name = first := by
  have hnext : (marksGraph first).edges.get? "" = some [first] := rfl
  unfold TransitionGraph.permits
  rw [hnext]
  simp

/-- a column for states of a type -/
def stateColumn (type : ColumnType) : Column := ⟨"state", type, true, false, none, false⟩

def marksDeclaration (type : ColumnType) (first : String) : EntityDeclaration where
  name := "marks"
  table := none
  columns := [⟨"state", type, true, false, none, false⟩]
  relationships := []
  searchVectors := []
  unique := []
  trackUpdatedAt := false
  transitions := some ⟨"state", (marksGraph first).edges⟩

def marksEntity (type : ColumnType) (first : String) : Entity :=
  (marksDeclaration type first).toEntity "public"

def marksSchema (type : ColumnType) (first : String) : Schema := ⟨[marksEntity type first]⟩

/-- a mark without a state -/
def mark : Record := .ofRow (.ofList [("id", .str "5")])

/-- two texts that are cast to one value are judged differently where only one of them is a state -/
theorem not_spellingsAgree {type : ColumnType} {s t : String} {x : SqlValue}
    (hd : (Document.mk "public" [marksDeclaration type s]).resolve = .ok (marksSchema type s))
    (hc : (marksEntity type s).writableColumn? "state" = some (stateColumn type))
    (hs : castWrite type (.str s) = .ok x) (ht : castWrite type (.str t) = .ok x)
    (hx : x.toJson.isNull = false) (hne : s ≠ t) : ¬ SpellingsAgree type := by
  intro h
  have hagree := h _ _ hd _ (List.mem_singleton_self _) (marksGraph s) _ rfl hc rfl mark .empty
    (.str s) (.str t) rfl rfl (hs.trans ht.symm) .empty Unit refusing ()
  rw [Repository.rejects_insert_iff rfl hc rfl hs, Repository.rejects_insert_iff rfl hc rfl ht]
    at hagree
  have hdiffers : (mark.value "state").same x.toJson = false := by
    have hvalue : mark.value "state" = .null := rfl
    rw [hvalue]
    cases hshown : x.toJson with
    | null => rw [hshown] at hx; cases hx
    | _ => rfl
  have hpermits : (marksGraph s).permits "" s = true := (permits_marksGraph s s).2 rfl
  have hrefuses : (marksGraph s).permits "" t = false := by
    rw [Bool.eq_false_iff, ne_eq, permits_marksGraph]
    exact Ne.symm hne
  obtain ⟨_, _, hrefused⟩ := hagree.2 ⟨fun _ hentry => absurd hentry List.not_mem_nil, hdiffers,
    hrefuses⟩
  exact Bool.false_ne_true (hrefused.symm.trans hpermits)

theorem float_spellings : ∃ x, castWrite .float (.str "2") = .ok x ∧
    castWrite .float (.str " 2") = .ok x ∧ x.toJson.isNull = false := by
  have hshown : ((Number.readDouble (Text.trim "2").toList).any fun x =>
      !(SqlValue.float x).toJson.isNull) = true := by decide +kernel
  have htrim : Text.trim " 2" = Text.trim "2" := by decide +kernel
  cases hread : Number.readDouble (Text.trim "2").toList with
  | none => rw [hread] at hshown; cases hshown
  | some x =>
    rw [hread, Option.any_some, Bool.not_eq_true'] at hshown
    refine ⟨.float x, ?_, ?_, hshown⟩ <;>
      simp [castWrite, castWith, castFloat, expect, Json.isNull, htrim, hread]

theorem boolean_spellings : castWrite .boolean (.str "true") = .ok (.bool true) ∧
    castWrite .boolean (.str "TRUE") = .ok (.bool true) := by
  have hlower : readTruth "true" = some true := by decide +kernel
  have hupper : readTruth "TRUE" = some true := by decide +kernel
  simp [castWrite, castWith, castBoolean, expect, Json.isNull, hlower, hupper]

theorem date_spellings : ∃ d, castWrite .date (.str "2024-01-31") = .ok (.date d) ∧
    castWrite .date (.str "2024-1-31") = .ok (.date d) := by
  have hpadded : readWriteDate "2024-01-31" =
      some ⟨2024, 1, 31, by decide, by decide, by decide⟩ := by decide +kernel
  have hshort : readWriteDate "2024-1-31" =
      some ⟨2024, 1, 31, by decide, by decide, by decide⟩ := by decide +kernel
  exact ⟨_, castWrite_date hpadded, castWrite_date hshort⟩

theorem dateTime_spellings : ∃ t,
    castWrite .dateTime (.str "2024-01-31T09:30") = .ok (.dateTime t) ∧
      castWrite .dateTime (.str "2024-01-31 09:30") = .ok (.dateTime t) := by
  have hmark : readWriteDateTime "2024-01-31T09:30" = some
      ⟨⟨2024, 1, 31, by decide, by decide, by decide⟩,
        ⟨9, 30, 0, 0, by decide, by decide, by decide, by decide⟩⟩ := by decide +kernel
  have hblank : readWriteDateTime "2024-01-31 09:30" = some
      ⟨⟨2024, 1, 31, by decide, by decide, by decide⟩,
        ⟨9, 30, 0, 0, by decide, by decide, by decide, by decide⟩⟩ := by decide +kernel
  exact ⟨_, castWrite_dateTime hmark, castWrite_dateTime hblank⟩

/-- values that are cast alike are judged alike in text and json columns, and in search vectors,
which no payload can set; numbers, truth values, dates and date-times have spellings that are judged
differently -/
theorem spellings_agree_iff (type : ColumnType) :
    SpellingsAgree type ↔ type = .text ∨ type = .json ∨ type = .searchVector := by
  constructor
  · intro h
    by_contra hno
    cases type with
    | text => exact hno (.inl rfl)
    | json => exact hno (.inr (.inl rfl))
    | searchVector => exact hno (.inr (.inr rfl))
    | integer =>
      have hs : castWrite .integer (.str "2") = .ok (.int 2) := by rfl
      have ht : castWrite .integer (.str " 2") = .ok (.int 2) := by rfl
      exact not_spellingsAgree (by rfl) (by rfl) hs ht rfl (by decide) h
    | float =>
      obtain ⟨_, hs, ht, hshown⟩ := float_spellings
      exact not_spellingsAgree (by rfl) (by rfl) hs ht hshown (by decide) h
    | boolean =>
      obtain ⟨hs, ht⟩ := boolean_spellings
      exact not_spellingsAgree (by rfl) (by rfl) hs ht rfl (by decide) h
    | date =>
      obtain ⟨_, hs, ht⟩ := date_spellings
      exact not_spellingsAgree (by rfl) (by rfl) hs ht rfl (by decide) h
    | dateTime =>
      obtain ⟨_, hs, ht⟩ := dateTime_spellings
      exact not_spellingsAgree (by rfl) (by rfl) hs ht rfl (by decide) h
  · rintro (rfl | rfl | rfl)
    · refine spellingsAgree_of_names fun a b x _ _ ha hb => ?_
      exact (state_of_castWrite ha).symm.trans (state_of_castWrite hb)
    · refine spellingsAgree_of_names fun a b x hna hnb ha hb => ?_
      unfold castWrite at ha hb
      rw [hna] at ha
      rw [hnb] at hb
      obtain rfl := Except.ok.inj ha
      obtain rfl := SqlValue.json.inj (Except.ok.inj hb)
      rfl
    · refine spellingsAgree_of_names fun a b x hna _ ha _ => ?_
      unfold castWrite at ha
      rw [hna] at ha
      cases ha

def storedMark : StoredRow (marksEntity .integer "2") "5" :=
  ⟨.ofList [("id", .text "5")], by decide⟩

/-- an update of the mark with a state, in a store with its row -/
def markedWith (v : Json) : Except Error Record :=
  ((Repository.update ⟨marksSchema .integer "2", marksEntity .integer "2", .none, .empty⟩ mark
    (.ofList [("state", v)])).runOn (rowStore (marksEntity .integer "2") "5" .null) storedMark).1

/-- the state is taken as a number, and refused as a text that is cast to the same number -/
theorem mark_refused_as_text :
    (Document.mk "public" [marksDeclaration .integer "2"]).resolve =
        .ok (marksSchema .integer "2") ∧
      castWrite .integer (.int 2) = castWrite .integer (.str " 2") ∧
      (∃ record, markedWith (.int 2) = .ok record ∧ record.value "state" = .int 2) ∧
      markedWith (.str " 2") = .error (.transitionNotPermitted "marks" "" " 2") := by
  exact ⟨by rfl, by rfl, ⟨_, by rfl, by rfl⟩, by rfl⟩

end EntityAccess
