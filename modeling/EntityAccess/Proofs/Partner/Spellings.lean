import EntityAccess.Proofs.Partner.Names
import EntityAccess.Proofs.Repository.Revisions

/-!
# spellings of a partner's name

A creation drops the white space around a name, asks whether what is left is taken, and stores that.
An update asks for the name as it is written, and stores it so.

* `Free` : the answer that nobody else has a name;
* `Naming` : the name that a write asks for, and the one that it binds after that;
* `naming_create`, `naming_update` : what both writes do with a name that is free;
* `namings_agree_iff` : the names for which they do the same.
-/

namespace EntityAccess.Partner

open EntityAccess.Action Outcome
open Program (Store)

/-- the store answers that no other partner has a name -/
def Free {σ : Type} (store : Store σ) (s : σ) (e : Entity) (name id : String) : Prop :=
  ofReply ResultSet.readFirstFlag (store.reply (.nameTaken e name id) s).1 = .ok false

/-- a write begins, asks for the name `asked`, and with its next statement binds the name `bound` -/
def Naming {σ : Type} (e : Entity) (x : Action Record) (store : Store σ) (s : σ)
    (asked bound : String) : Prop :=
  ∃ id q, x.Executes store s [.marked .begin, .executed (.nameTaken e asked id)] q ∧
    (q.bindings e).lookup "name" = some (.text bound)

section

variable {schema : Schema} {e members : Entity} {load : LoadPlan} {c : Column} {σ : Type}
  {store : Store σ} {s mid : σ} {x : Action Record} {name id asked asked' bound bound' t : String}
  {values input : Row} {current : Record} {assigned : Sql.Assignments}

/-- a run has one naming -/
theorem Naming.unique (h : Naming e x store s asked bound) (h' : Naming e x store s asked' bound') :
    asked = asked' ∧ bound = bound' := by
  obtain ⟨id, q, ⟨after, hlog⟩, hbound⟩ := h
  obtain ⟨id', q', ⟨after', hlog'⟩, hbound'⟩ := h'
  rw [hlog] at hlog'
  simp only [List.cons_append, List.nil_append, List.cons.injEq, Event.executed.injEq,
    Statement.nameTaken.injEq, true_and] at hlog'
  obtain ⟨⟨rfl, rfl⟩, rfl, rfl⟩ := hlog'
  rw [hbound] at hbound'
  exact ⟨rfl, SqlValue.text.inj (Option.some.inj hbound')⟩

theorem runOn_ensureUniqueName_of_free (h : Free store s e name id) :
    (ensureUniqueName e name id).runOn store s =
      (.ok (), [.executed (.nameTaken e name id)], (store.reply (.nameTaken e name id) s).2) := by
  have hask : (query (.nameTaken e name id) ResultSet.readFirstFlag).runOn store s =
      (.ok false, [.executed (.nameTaken e name id)],
        (store.reply (.nameTaken e name id) s).2) := by
    rw [runOn_query, h]
  unfold ensureUniqueName
  rw [runOn_bind_ok _ hask]
  rfl

theorem runOn_preCreate_of_free (input : Row) (hname : textOf values "name" = some t)
    (h : Free store s e (Text.trim t) id) :
    (preCreate e id values input).runOn store s =
      (.ok (values.insert "name" (.str (Text.trim t))),
        [.executed (.nameTaken e (Text.trim t) id)],
        (store.reply (.nameTaken e (Text.trim t) id) s).2) := by
  unfold preCreate
  rw [hname]
  dsimp only
  rw [runOn_bind_ok _ (runOn_ensureUniqueName_of_free h)]
  rfl

theorem runOn_preUpdate_of_free (input : Row) (hname : textOf values "name" = some t)
    (h : Free store s e t current.id) :
    (preUpdate e current values input).runOn store s =
      (.ok values, [.executed (.nameTaken e t current.id)],
        (store.reply (.nameTaken e t current.id) s).2) := by
  unfold preUpdate
  rw [hname]
  dsimp only
  rw [runOn_bind_ok _ (runOn_ensureUniqueName_of_free h)]
  rfl

/-! ### the namings of both writes -/

variable (hc : e.writableColumn? "name" = some c) (ht : c.type = .text)

include hc

theorem takes_name (t : String) : e.takes "name" (.str t) = true := by
  unfold Entity.takes
  rw [hc]
  simp [Json.isNull, Json.isArr]

include ht

theorem cast_name (t : String) : e.cast "name" (.str t) = .ok (.text t) := by
  unfold Entity.cast
  rw [Entity.scalarColumn_of_assignable (Entity.assignableColumn?_of_writable hc)]
  show castWrite c.type (.str t) = _
  rw [ht]
  rfl

/-- values that can be assigned can be assigned with another name -/
theorem exists_assignments_insert (hassigned : e.assignments values = .ok assigned)
    (t : String) : ∃ assigned', e.assignments (values.insert "name" (.str t)) = .ok assigned' := by
  refine mapM_isOk.2 fun entry hentry => ?_
  rcases Dict.mem_insert.1 hentry with rfl | ⟨_, hentry⟩
  · refine ⟨("name", .text t), ?_⟩
    rw [Entity.assignment_of_takes (takes_name hc t), cast_name hc ht t]
    rfl
  · exact mapM_isOk.1 ⟨assigned, hassigned⟩ entry hentry

/-- a creation asks for the name without white space around it, and stores that -/
theorem naming_create (hname : input.get? "name" = some (.str t))
    (hprepare : (Repository.prepareCreate ⟨schema, e, rules schema e members, load⟩ input).runOn
      store s = (.ok (id, values), [], mid))
    (hfree : Free store mid e (Text.trim t) id) :
    Naming e (Repository.create ⟨schema, e, rules schema e members, load⟩ input) store s
      (Text.trim t) (Text.trim t) := by
  obtain ⟨_, hprepared⟩ := Repository.runOn_prepareCreate_cases hprepare
  obtain ⟨checked, hcheck, heq⟩ := map_eq_ok.1 hprepared.symm
  obtain ⟨_, rfl⟩ := Prod.mk.inj heq
  obtain rfl := Entity.eq_projected_of_checkCreate hcheck
  obtain ⟨_, hbound, _⟩ := bind_eq_ok.1 hcheck
  have htext : textOf (e.projected input) "name" = some t := by
    refine (textOf_eq (w := .str t) ?_).trans rfl
    rw [Entity.get?_projected, hname, Option.filter_some, takes_name hc, if_pos rfl]
  obtain ⟨assigned, hassigned⟩ := exists_assignments_insert hc ht hbound (Text.trim t)
  refine ⟨id, .insert e ((primaryKey, .text id) :: assigned), ?_, ?_⟩
  · refine .bind_after hprepare (.bind_of_first _ ?_)
    refine .after_begin (.bind_after (runOn_preCreate_of_free input htext hfree) ?_)
    show ((liftM (e.assignments ((e.projected input).insert "name" (.str (Text.trim t)))) :
      Action Sql.Assignments) >>= _).Executes store _ [] _
    rw [hassigned, liftM_ok_bind]
    exact .bind_of_first _ .asked
  · have hlookup : assigned.lookup "name" = some (.text (Text.trim t)) := by
      have htakes : ∀ name v, ((e.projected input).insert "name" (.str (Text.trim t))).get? name =
          some v → e.takes name v = true := by
        intro name v hv
        rcases Dict.mem_insert.1 (Dict.get?_eq_some_iff.1 hv) with heq | ⟨_, hmem⟩
        · obtain ⟨rfl, rfl⟩ := Prod.mk.inj heq
          exact takes_name hc _
        · exact (List.mem_filter.1 hmem).2
      rw [Entity.lookup_assignments htakes hassigned, Dict.get?_insert_self, Option.bind_some,
        cast_name hc ht]
      rfl
    rw [Statement.bindings, if_pos rfl, List.lookup_cons, hlookup]
    rfl

/-- an update asks for the name as it is written, and stores it so -/
theorem naming_update (hname : input.get? "name" = some (.str t))
    (hassigning : e.assigning current input = .ok assigned)
    (hother : current.value "name" ≠ .str t) (hfree : Free store s e t current.id) :
    Naming e (Repository.update ⟨schema, e, rules schema e members, load⟩ current input) store s
      t t := by
  have hdiffers : e.differs current ("name", .str t) = true := by
    rw [Entity.differs_of_cast (cast_name hc ht t)]
    cases hvalue : current.value "name" with
    | str t' =>
      have hne : t' ≠ t := fun heq => hother (heq ▸ hvalue)
      simp [SqlValue.toJson, Json.same, hne]
    | _ => simp [SqlValue.toJson, Json.same]
  have hkept : (e.kept current input).get? "name" = some (.str t) := by
    rw [Entity.get?_kept, Entity.get?_projected, hname, Option.filter_some, takes_name hc,
      if_pos rfl, Option.filter_some, hdiffers, if_pos rfl]
  have hlookup : assigned.lookup "name" = some (.text t) := by
    obtain ⟨_, _, _, hassigned⟩ := Entity.assigning_eq_ok.1 hassigning
    rw [Entity.lookup_assignments (fun _ _ => Entity.takes_of_kept) hassigned, hkept,
      Option.bind_some, cast_name hc ht]
    rfl
  obtain ⟨values, first, changes, hprepare, hdecided⟩ := Entity.assigning_eq_decided.1 hassigning
  have htext : textOf values "name" = some t := by
    have hdiff := Entity.diff_of_prepareUpdate hprepare
    refine (textOf_eq (w := .str t) ?_).trans rfl
    rw [Entity.get?_of_diff hdiff, Entity.get?_projected, hname, Option.filter_some, takes_name hc]
    exact ⟨if_pos rfl, hdiffers⟩
  refine ⟨current.id, .update e current.id assigned, ?_, ?_⟩
  · unfold Repository.update
    rw [hprepare, liftM_ok_bind]
    refine .bind_of_first _ ?_
    rw [Repository.updateRow_eq]
    refine .after_begin (.bind_after (runOn_preUpdate_of_free input htext hfree) ?_)
    show ((liftM (e.decided current values) : Action (Sql.Assignments × Changes)) >>= _).Executes
      store _ [] _
    rw [hdecided, liftM_ok_bind]
    refine .bind_of_first _ ?_
    unfold Repository.ownUpdate
    rw [if_neg fun hnone => ?_]
    · exact .asked
    · rw [List.isEmpty_iff.1 hnone] at hlookup
      cases hlookup
  · rw [Statement.bindings, if_pos rfl, hlookup]

end

/-- of a name that is free, a creation under the rules asks for the text without white space around
it and stores that, and an update of a partner with another name asks for the text as it is written
and stores it so; they ask for the same name and store the same name exactly if there is no white
space around it -/
theorem namings_agree_iff {schema : Schema} {h : Hooks} (hh : hooks schema = .ok h) {e : Entity}
    (he : schema.entity? partnersName = some e) {c : Column}
    (hc : e.writableColumn? "name" = some c) (ht : c.type = .text) (load : LoadPlan) {t : String}
    {σ : Type} (store : Store σ) {s mid s' : σ} {created updated values : Row} {id : String}
    {current : Record} {assigned : Sql.Assignments}
    (hcreated : created.get? "name" = some (.str t))
    (hupdated : updated.get? "name" = some (.str t))
    (hprepare : (Repository.prepareCreate ⟨schema, e, h, load⟩ created).runOn store s =
      (.ok (id, values), [], mid))
    (hassigning : e.assigning current updated = .ok assigned)
    (hother : current.value "name" ≠ .str t) (hfree : Free store mid e (Text.trim t) id)
    (hfree' : Free store s' e t current.id) :
    let creation := Repository.create ⟨schema, e, h, load⟩ created
    let update := Repository.update ⟨schema, e, h, load⟩ current updated
    Naming e creation store s (Text.trim t) (Text.trim t) ∧
      Naming e update store s' t t ∧
      ((∃ asked bound, Naming e creation store s asked bound ∧
          Naming e update store s' asked bound) ↔ Text.trim t = t) := by
  obtain ⟨partners, members, hpartners, _, rfl⟩ := hooks_eq_ok hh
  obtain rfl : partners = e := Option.some.inj (hpartners.symm.trans he)
  have hcreation := naming_create hc ht hcreated hprepare hfree
  have hupdate : Naming partners (Repository.update
      ⟨schema, partners, rules schema partners members, load⟩ current updated) store s' t t :=
    naming_update hc ht hupdated hassigning hother hfree'
  refine ⟨hcreation, hupdate, ?_, fun heq => ⟨t, t, ?_, hupdate⟩⟩
  · rintro ⟨asked, bound, hfirst, hsecond⟩
    exact (hcreation.unique hfirst).1.trans (hsecond.unique hupdate).1
  · rwa [heq] at hcreation

/-! ### a partner named Bolt -/

/-- a partner with another name -/
def acme : Record := .ofRow (.ofList [("id", .str "p1"), ("name", .str "Acme")])

/-- a new partner with a name -/
def newFields (name : String) : Row := .ofList [("id", .str "p2"), ("name", .str name)]

/-- another name for a partner -/
def renamed (name : String) : Row := .ofList [("name", .str name)]

/-- without white space around it a name is stored by both writes as it is -/
theorem bolt_named_alike :
    ∃ asked bound,
      Naming partnersEntity (partners.create (newFields "Bolt")) scripted [flag false] asked bound ∧
      Naming partnersEntity (partners.update acme (renamed "Bolt")) scripted [flag false] asked
        bound := by
  have hother : acme.value "name" ≠ .str "Bolt" := fun heq =>
    absurd (Json.str.inj (show Json.str "Acme" = .str "Bolt" from heq)) (by decide)
  have hprepare : (partners.prepareCreate (newFields "Bolt")).runOn scripted [flag false] =
      (.ok ("p2", renamed "Bolt"), [], [flag false]) := rfl
  have hassigning : partnersEntity.assigning acme (renamed "Bolt") =
      .ok [("name", .text "Bolt")] := rfl
  have hfree : Free scripted [flag false] partnersEntity "Bolt" "p1" := rfl
  obtain ⟨_, _, hagree⟩ := namings_agree_iff hooks_partnersSchema rfl rfl rfl .empty scripted
    rfl rfl hprepare hassigning hother rfl hfree
  exact hagree.2 (by decide)

/-- with white space around it, which an update stores and a creation does not -/
theorem bolt_named_apart :
    acme.value "name" = .str "Acme" ∧ Text.trim " Bolt " = "Bolt" ∧
      Free scripted [flag false] partnersEntity "Bolt" "p2" ∧
      Free scripted [flag false] partnersEntity " Bolt " "p1" ∧
      Naming partnersEntity (partners.create (newFields " Bolt ")) scripted [flag false] "Bolt"
        "Bolt" ∧
      Naming partnersEntity (partners.update acme (renamed " Bolt ")) scripted [flag false]
        " Bolt " " Bolt " ∧
      ¬ ∃ asked bound,
        Naming partnersEntity (partners.create (newFields " Bolt ")) scripted [flag false] asked
          bound ∧
        Naming partnersEntity (partners.update acme (renamed " Bolt ")) scripted [flag false] asked
          bound := by
  have hcreation : Naming partnersEntity (partners.create (newFields " Bolt ")) scripted
      [flag false] "Bolt" "Bolt" := ⟨"p2", _, ⟨_, rfl⟩, rfl⟩
  have hupdate : Naming partnersEntity (partners.update acme (renamed " Bolt ")) scripted
      [flag false] " Bolt " " Bolt " := ⟨"p1", _, ⟨_, rfl⟩, rfl⟩
  refine ⟨rfl, by decide, rfl, rfl, hcreation, hupdate, ?_⟩
  rintro ⟨asked, bound, hfirst, hsecond⟩
  have heq := (hcreation.unique hfirst).1.trans (hsecond.unique hupdate).1
  exact absurd heq (by decide)

end EntityAccess.Partner
