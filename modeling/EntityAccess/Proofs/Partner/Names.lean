import EntityAccess.Proofs.Repository.Writable

/-!
# names of partners and the question for them

A name that is given as text is asked for in the form in which it is stored, in the transaction that
stores it.  A number or a truth value is stored as its text, and no name is asked for.

* `CheckedBefore` : a question that has been asked in the same transaction;
* `text_of_name` : the text that is bound to a name;
* `names_checked` : every statement that binds a name;
* `number_unchecked` : a name that is a number.
-/

namespace EntityAccess.Partner

open EntityAccess.Action
open Program (Store)

/-- executed before, in the transaction that is still open -/
def CheckedBefore (before : List Event) (check : Statement) : Prop :=
  ∃ earlier inner, before = earlier ++ .marked .begin :: inner ∧ (∀ m, .marked m ∉ inner) ∧
    .executed check ∈ inner

theorem checkedBefore_single (check : Statement) :
    CheckedBefore [.marked .begin, .executed check] check :=
  ⟨[], [.executed check], rfl, by simp, List.mem_singleton_self _⟩

theorem not_checkedBefore_begin (check : Statement) : ¬ CheckedBefore [.marked .begin] check := by
  rintro ⟨earlier, inner, heq, _, hmem⟩
  rcases List.append_eq_cons_iff.1 heq.symm with ⟨_, hcons⟩ | ⟨_, _, hnil⟩
  · obtain ⟨_, rfl⟩ := List.cons.inj hcons
    cases hmem
  · simp at hnil

/-! ### the name that is bound -/

section

variable {e : Entity} {values input hooked : Row} {current : Record} {v : SqlValue} {w : Json}
  {assigned : Sql.Assignments}

/-- what is bound to a text column is text -/
theorem exists_text_of_castWrite (h : castWrite .text w = .ok v) (hnull : w.isNull = false) :
    ∃ n, v = .text n := by
  cases w with
  | null => cases hnull
  | bool b => exact ⟨_, (Except.ok.inj h).symm⟩
  | int n => exact ⟨_, (Except.ok.inj h).symm⟩
  | float x => exact ⟨_, (Except.ok.inj h).symm⟩
  | str t => exact ⟨_, (Except.ok.inj h).symm⟩
  | arr items => cases h
  | obj fields => cases h

/-- a name is bound to the text that its value is cast to -/
theorem text_of_name (ht : e.columnType "name" = .text) (h : e.assignments hooked = .ok assigned)
    (hv : ("name", v) ∈ assigned) :
    ∃ w, hooked.get? "name" = some w ∧ castWrite .text w = .ok v := by
  obtain ⟨w, c, hw, hc, hcast⟩ := Entity.of_mem_assignments h hv
  rw [Entity.type_of_assignable hc, ht] at hcast
  exact ⟨w, hw, hcast⟩

theorem textOf_eq (h : values.get? "name" = some w) : textOf values "name" = w.str? := by
  unfold textOf
  rw [h]
  rfl

end

/-! ### writes of partners -/

section

variable {schema : Schema} {e members : Entity} {load : LoadPlan} {σ : Type} {store : Store σ}
  {s : σ} {before : List Event} {q : Statement} {v : SqlValue} {input : Row} {current : Record}

theorem members_ne (he : schema.entity? partnersName = some e)
    (hmembers : schema.entity? membersName = some members) : members ≠ e := by
  rintro rfl
  have hname : members.name = partnersName := by simpa using List.find?_some he
  have hname' : members.name = membersName := by simpa using List.find?_some hmembers
  rw [hname] at hname'
  revert hname'
  decide

/-- the membership of an owner binds nothing of a partner -/
theorem bindings_postCreate (hne : members ≠ e) {record : Record}
    (h : (postCreate (.plain schema members) record).Executes store s before q) :
    q.bindings e = [] := by
  obtain ⟨owner, _, hcreate⟩ := executes_postCreate h
  rcases Repository.executes_create Hooks.preparing_none.leading hcreate with
    ⟨_, _, _, _, _, hrule⟩ | ⟨_, _, _, _, _, _, _, _, _, _, _, rfl⟩ | hread | ⟨_, _, _, hrule⟩
  · exact hrule.not_pure.elim
  · exact if_neg hne
  · exact Statement.bindings_of_isRead hread e
  · exact hrule.not_pure.elim

theorem name_of_create (hmembers : members ≠ e) (ht : e.columnType "name" = .text)
    (hbinds : ("name", v) ∈ q.bindings e)
    (h : (Repository.create ⟨schema, e, rules schema e members, load⟩ input).Executes store s
      before q) :
    ∃ n id assigned, q = .insert e ((primaryKey, .text id) :: assigned) ∧ v = .text n ∧
      (∀ t, textOf input "name" = some t →
        n = Text.trim t ∧ CheckedBefore before (.nameTaken e n id)) ∧
      (textOf input "name" = none → before = [.marked .begin]) := by
  rcases Repository.executes_create (preparing_rules schema e members).leading h with
    ⟨id, values, inner, mid, _, hrule⟩ |
    ⟨id, values, inner, hooked, assigned, mid, mid', rfl, hcheck, hrule, hassigned, rfl⟩ | hread |
    ⟨record, rest, mid, hrule⟩
  · have hrule : (preCreate e id values input).Executes store mid inner q := hrule
    obtain ⟨_, rfl⟩ := executes_preCreate hrule
    cases hbinds
  · have hv : ("name", v) ∈ assigned := by
      simpa [Statement.bindings, primaryKey] using hbinds
    obtain ⟨w, hw, hcast⟩ := text_of_name ht hassigned hv
    obtain rfl := Entity.eq_projected_of_checkCreate hcheck
    have hrule : (preCreate e id (e.projected input) input).runOn store mid =
        (.ok hooked, inner, mid') := hrule
    rcases of_runOn_preCreate hrule with ⟨hnone, rfl, rfl⟩ | ⟨t, htext, rfl, rfl⟩
    · obtain ⟨hinput, hnull, _⟩ := Entity.of_get?_projected hw
      obtain ⟨n, rfl⟩ := exists_text_of_castWrite hcast hnull
      refine ⟨n, id, assigned, rfl, rfl, fun t ht => ?_, fun _ => rfl⟩
      rw [textOf_eq hinput, ← textOf_eq hw, hnone] at ht
      cases ht
    · rw [Dict.get?_insert_self] at hw
      obtain rfl := Option.some.inj hw
      obtain rfl : SqlValue.text (Text.trim t) = v := Except.ok.inj hcast
      have hinput : textOf input "name" = some t := by
        unfold textOf at htext
        obtain ⟨w', hw', hstr⟩ := Option.bind_eq_some_iff.1 htext
        rw [textOf_eq (Entity.of_get?_projected hw').1, hstr]
      refine ⟨_, id, assigned, rfl, rfl, fun t' ht' => ?_, fun hnone => ?_⟩
      · obtain rfl : t = t' := Option.some.inj (hinput.symm.trans ht')
        exact ⟨rfl, checkedBefore_single _⟩
      · rw [hinput] at hnone
        cases hnone
  · rw [Statement.bindings_of_isRead hread e] at hbinds
    cases hbinds
  · rw [bindings_postCreate hmembers hrule] at hbinds
    cases hbinds

theorem name_of_update (ht : e.columnType "name" = .text)
    (hbinds : ("name", v) ∈ q.bindings e)
    (h : (Repository.update ⟨schema, e, rules schema e members, load⟩ current input).Executes
      store s before q) :
    ∃ n assigned, q = .update e current.id assigned ∧ v = .text n ∧
      (∀ t, textOf input "name" = some t →
        n = t ∧ CheckedBefore before (.nameTaken e n current.id)) ∧
      (textOf input "name" = none → before = [.marked .begin]) := by
  rcases Repository.executes_update (preparing_rules schema e members).leading h with
    ⟨values, inner, _, hrule⟩ |
    ⟨values, _, inner, hooked, kept, _, assigned, mid, rfl, hprepare, hrule, hdiff, hassigned,
      _, rfl⟩ | hread
  · have hrule : (preUpdate e current values input).Executes store s inner q := hrule
    obtain ⟨_, rfl⟩ := executes_preUpdate hrule
    cases hbinds
  · have hv : ("name", v) ∈ assigned := by
      simpa [Statement.bindings] using hbinds
    obtain ⟨w, hw, hcast⟩ := text_of_name ht hassigned hv
    have hrule : (preUpdate e current values input).runOn store s = (.ok hooked, inner, mid) :=
      hrule
    obtain ⟨rfl, hasked⟩ := of_runOn_preUpdate hrule
    have hvalue : hooked.get? "name" = some w := ((Entity.get?_of_diff hdiff).1 hw).1
    have hprojected : (e.projected input).get? "name" = some w :=
      ((Entity.get?_of_diff (Entity.diff_of_prepareUpdate hprepare)).1 hvalue).1
    obtain ⟨hinput, hnull, _⟩ := Entity.of_get?_projected hprojected
    have hsame : textOf input "name" = textOf hooked "name" := by
      rw [textOf_eq hinput, textOf_eq hvalue]
    obtain ⟨n, rfl⟩ := exists_text_of_castWrite hcast hnull
    refine ⟨n, assigned, rfl, rfl, fun t ht => ?_, fun hnone => ?_⟩
    · rw [hsame] at ht
      rcases hasked with ⟨hnone, _⟩ | ⟨t', ht', rfl⟩
      · rw [hnone] at ht
        cases ht
      · obtain rfl : t' = t := Option.some.inj (ht'.symm.trans ht)
        rw [textOf_eq hvalue] at ht
        cases w with
        | str t =>
          obtain rfl : t = t' := Option.some.inj ht
          obtain rfl : t = n := SqlValue.text.inj (Except.ok.inj hcast)
          exact ⟨rfl, checkedBefore_single _⟩
        | _ => cases ht
    · rcases hasked with ⟨_, rfl⟩ | ⟨t', ht', _⟩
      · rfl
      · rw [hsame, ht'] at hnone
        cases hnone
  · rw [Statement.bindings_of_isRead hread e] at hbinds
    cases hbinds

end

/-- a name that is given as text has been asked for as it is bound, in the same transaction; before
any other name nothing has been executed -/
theorem names_checked {schema : Schema} {h : Hooks} (hh : hooks schema = .ok h) {e : Entity}
    (he : schema.entity? partnersName = some e) (ht : e.columnType "name" = .text) (load : LoadPlan)
    {σ : Type} (store : Store σ) (s : σ) {before : List Event} {q : Statement} {v : SqlValue}
    (hbinds : ("name", v) ∈ q.bindings e) :
    (∀ input, (Repository.create ⟨schema, e, h, load⟩ input).Executes store s before q →
        ∃ n id assigned, q = .insert e ((primaryKey, .text id) :: assigned) ∧ v = .text n ∧
          (∀ t, textOf input "name" = some t →
            n = Text.trim t ∧ CheckedBefore before (.nameTaken e n id)) ∧
          (textOf input "name" = none → before = [.marked .begin])) ∧
      ∀ current input,
        (Repository.update ⟨schema, e, h, load⟩ current input).Executes store s before q →
        ∃ n assigned, q = .update e current.id assigned ∧ v = .text n ∧
          (∀ t, textOf input "name" = some t →
            n = t ∧ CheckedBefore before (.nameTaken e n current.id)) ∧
          (textOf input "name" = none → before = [.marked .begin]) := by
  obtain ⟨partners, members, hpartners, hmembers, rfl⟩ := hooks_eq_ok hh
  obtain rfl : partners = e := Option.some.inj (hpartners.symm.trans he)
  exact ⟨fun input hcreate => name_of_create (members_ne he hmembers) ht hbinds hcreate,
    fun current input hupdate => name_of_update ht hbinds hupdate⟩

/-- a name with white space around it is asked for, and stored, without -/
theorem trimmed_name_checked :
    (partners.create acmeFields).Executes scripted [flag false]
        [.marked .begin, .executed (.nameTaken partnersEntity "Acme" "p1")]
        (.insert partnersEntity [("id", .text "p1"), ("name", .text "Acme")]) ∧
      CheckedBefore [.marked .begin, .executed (.nameTaken partnersEntity "Acme" "p1")]
        (.nameTaken partnersEntity "Acme" "p1") := by
  have hrun : (partners.create acmeFields).Executes scripted [flag false]
      [.marked .begin, .executed (.nameTaken partnersEntity "Acme" "p1")]
      (.insert partnersEntity [("id", .text "p1"), ("name", .text "Acme")]) := ⟨_, rfl⟩
  have hbinds : ("name", .text "Acme") ∈ Statement.bindings partnersEntity
      (.insert partnersEntity [("id", .text "p1"), ("name", .text "Acme")]) := by
    simp [Statement.bindings]
  obtain ⟨hcreate, _⟩ := names_checked hooks_partnersSchema rfl rfl .empty scripted [flag false]
    hbinds
  obtain ⟨n, id, assigned, hq, hv, hchecked, _⟩ := hcreate acmeFields hrun
  obtain ⟨_, hvalues⟩ := Statement.insert.inj hq
  obtain ⟨hid, _⟩ := List.cons.inj hvalues
  obtain rfl : "p1" = id := SqlValue.text.inj (Prod.mk.inj hid).2
  obtain rfl : "Acme" = n := SqlValue.text.inj hv
  exact ⟨hrun, (hchecked " Acme " rfl).2⟩

/-- the number 5 becomes the name of a partner without a question -/
theorem number_unchecked :
    let named5 : Row := Dict.ofList [("id", .str "p1"), ("name", .int 5)]
    let answers := [.ok .empty, oneRow partnersEntity [("id", .text "p1"), ("name", .text "5")]]
    ((partners.create named5).runOn scripted answers).1.isOk = true ∧
      ∃ before q, (partners.create named5).Executes scripted answers before q ∧
        ("name", .text "5") ∈ q.bindings partnersEntity ∧
        ∀ id, ¬ CheckedBefore before (.nameTaken partnersEntity "5" id) :=
  ⟨rfl, [.marked .begin], .insert partnersEntity [("id", .text "p1"), ("name", .text "5")],
    ⟨_, rfl⟩, by simp [Statement.bindings], fun _ => not_checkedBefore_begin _⟩

end EntityAccess.Partner
