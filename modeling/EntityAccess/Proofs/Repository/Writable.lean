import EntityAccess.Proofs.Partner.Rules
import EntityAccess.Proofs.Repository.Executed

/-!
# what a payload can set

A payload sets the columns that are declared for it and no others.  Two payloads that agree on these
and on the primary key are the same payload to a write, and what a write assigns are these columns.

* `Document.Writable` : a column that a payload may set;
* `Hooks.Oblivious`, `create_congr`, `update_congr` : rules that do not look at the whole payload,
  and writes under such rules;
* `Hooks.Confined`, `assignsOnly_create`, `assignsOnly_update` : rules that add no column, and the
  statements of writes under such rules;
* `no_mass_assignment` : writes without rules, or under those for partners.
-/

namespace EntityAccess

open EntityAccess.Action
open Program (Store)

/-! ### writable columns -/

/-- declared, not read-only, no search vector and not the primary key -/
def EntityDeclaration.Writable (decl : EntityDeclaration) (name : String) : Prop :=
  name ≠ primaryKey ∧
    ∃ c ∈ decl.columns, c.name = name ∧ c.readOnly = false ∧ c.type ≠ .searchVector

/-- a column of an entity that a payload may set -/
def Document.Writable (d : Document) (e : Entity) (name : String) : Prop :=
  ∃ decl ∈ d.entities, decl.toEntity d.schemaName = e ∧ decl.Writable name

/-- no column is implicitly writable -/
theorem EntityDeclaration.writable_of_column {decl : EntityDeclaration} {schemaName name : String}
    {c : Column} (h : (decl.toEntity schemaName).writableColumn? name = some c) :
    decl.Writable name := by
  obtain ⟨hmem, rfl, hreadOnly⟩ := Entity.writableColumn_mem h
  obtain ⟨_, hwrite⟩ := Option.filter_eq_some_iff.1 h
  simp only [Bool.and_eq_true, decide_eq_true_eq] at hwrite
  obtain ⟨⟨_, ht⟩, hkey⟩ := hwrite
  refine ⟨hkey, ?_⟩
  have hmem : c ∈ decl.resolvedColumns := hmem
  unfold resolvedColumns at hmem
  simp only [List.mem_append, List.mem_cons, List.mem_map] at hmem
  rcases hmem with ((rfl | ⟨declared, hdeclared, rfl⟩) | hstamp) | ⟨v, _, rfl⟩
  · cases hreadOnly
  · exact ⟨declared, hdeclared, rfl, hreadOnly, ht⟩
  · rcases mem_implicitStamps hstamp with rfl | rfl
    · cases hreadOnly
    · cases hreadOnly
  · cases hreadOnly

theorem Document.writable_of_column {d : Document} {schema : Schema} (hd : d.resolve = .ok schema)
    {e : Entity} (he : e ∈ schema.entities) {name : String} {c : Column}
    (h : e.writableColumn? name = some c) : d.Writable e name := by
  obtain ⟨_, rfl⟩ := Document.resolve_eq_ok hd
  obtain ⟨decl, hdecl, rfl⟩ := List.mem_map.1 he
  exact ⟨decl, hdecl, rfl, EntityDeclaration.writable_of_column h⟩

/-- what a statement assigns, beside the primary key of a new row, passes the test `P` -/
def Statement.AssignsOnly (P : Entity → String → Prop) : Statement → Prop
  | .insert e values => ∃ id rest, values = (primaryKey, .text id) :: rest ∧ ∀ a ∈ rest, P e a.1
  | .update e _ values => ∀ a ∈ values, P e a.1
  | _ => True

theorem Statement.assignsOnly_of_isRead {P : Entity → String → Prop} {q : Statement}
    (h : q.isRead = true) : q.AssignsOnly P := by
  cases q with
  | insert e values => cases h
  | update e id values => cases h
  | _ => trivial

namespace Entity

variable {e : Entity} {p q values input : Row} {current : Record} {P : Entity → String → Prop}

/-- every column that a payload may set passes the test `P` -/
def WritableIn (e : Entity) (P : Entity → String → Prop) : Prop :=
  ∀ name c, e.writableColumn? name = some c → P e name

/-- payloads that agree on the writable columns are projected to the same values -/
theorem projected_congr (he : e.WritableIn P) (h : ∀ name, P e name → p.get? name = q.get? name) :
    e.projected p = e.projected q := by
  refine Dict.ext_get? fun name => ?_
  have hp : (e.projected p).get? name = (p.get? name).filter (e.takes name) :=
    Dict.get?_filter p e.takes name
  have hq : (e.projected q).get? name = (q.get? name).filter (e.takes name) :=
    Dict.get?_filter q e.takes name
  rw [hp, hq]
  cases hc : e.writableColumn? name with
  | some c => rw [h name (he name c hc)]
  | none =>
    have hno : e.takes name = fun _ => false := by
      funext v
      unfold takes
      rw [hc]
    rw [hno]
    cases p.get? name <;> cases q.get? name <;> rfl

theorem of_mem_projected (he : e.WritableIn P) {name : String}
    (h : ((e.projected input).get? name).isSome = true) : P e name := by
  obtain ⟨v, hv⟩ := Option.isSome_iff_exists.1 h
  obtain ⟨_, _, c, hc⟩ := of_get?_projected hv
  exact he name c hc

/-- what is assigned are columns of the values -/
theorem of_mem_assigned {assigned : Sql.Assignments} (h : e.assignments values = .ok assigned)
    (hvalues : ∀ name, (values.get? name).isSome = true → P e name) :
    ∀ a ∈ assigned, P e a.1 := by
  intro a ha
  obtain ⟨v, _, hv, _, _⟩ := of_mem_assignments h ha
  exact hvalues a.1 (by rw [hv]; rfl)

theorem isSome_of_diff {kept : Row} {changes : Changes}
    (h : e.diff current values = .ok (kept, changes)) {name : String}
    (hname : (kept.get? name).isSome = true) : (values.get? name).isSome = true := by
  obtain ⟨v, hv⟩ := Option.isSome_iff_exists.1 hname
  rw [((get?_of_diff h).1 hv).1]
  rfl

end Entity

/-! ### rules -/

/-- rules that look at the values of a write and not at its whole payload -/
structure Hooks.Oblivious (h : Hooks) : Prop where
  preCreate : ∀ id values p q, h.preCreate id values p = h.preCreate id values q
  preUpdate : ∀ current values p q, h.preUpdate current values p = h.preUpdate current values q
  relationship : ∀ id current p q, h.relationship id p current = h.relationship id q current

/-- rules that add no column to the values of a write, and whose own statements assign only what
passes the test `P` -/
structure Hooks.Confined (P : Entity → String → Prop) (h : Hooks) : Prop where
  keeps_create : ∀ {σ : Type} {store : Store σ} {s s' : σ} {id : String} {values input hooked : Row}
    {log : List Event}, (h.preCreate id values input).runOn store s = (.ok hooked, log, s') →
    ∀ name, (hooked.get? name).isSome = true → (values.get? name).isSome = true
  keeps_update : ∀ {σ : Type} {store : Store σ} {s s' : σ} {current : Record}
    {values input hooked : Row} {log : List Event},
    (h.preUpdate current values input).runOn store s = (.ok hooked, log, s') →
    ∀ name, (hooked.get? name).isSome = true → (values.get? name).isSome = true
  preCreate : ∀ {σ : Type} {store : Store σ} {s : σ} {id : String} {values input : Row}
    {before : List Event} {q : Statement},
    (h.preCreate id values input).Executes store s before q → q.AssignsOnly P
  preUpdate : ∀ {σ : Type} {store : Store σ} {s : σ} {current : Record} {values input : Row}
    {before : List Event} {q : Statement},
    (h.preUpdate current values input).Executes store s before q → q.AssignsOnly P
  postCreate : ∀ {σ : Type} {store : Store σ} {s : σ} {record : Record} {before : List Event}
    {q : Statement}, (h.postCreate record).Executes store s before q → q.AssignsOnly P

theorem Hooks.oblivious_none : Hooks.none.Oblivious :=
  ⟨fun _ _ _ _ => rfl, fun _ _ _ _ => rfl, fun _ _ _ _ => rfl⟩

theorem Hooks.confined_none (P : Entity → String → Prop) : Hooks.none.Confined P where
  keeps_create h name hname := by
    obtain ⟨rfl, _⟩ := of_runOn_pure h
    exact hname
  keeps_update h name hname := by
    obtain ⟨rfl, _⟩ := of_runOn_pure h
    exact hname
  preCreate h := h.not_pure.elim
  preUpdate h := h.not_pure.elim
  postCreate h := h.not_pure.elim

/-! ### writes -/

namespace Repository

variable {schema : Schema} {e : Entity} {hooks : Hooks} {load : LoadPlan} {r : Repository}
  {P : Entity → String → Prop} {p q input : Row} {current : Record} {σ : Type} {store : Store σ}
  {s : σ} {stmt : Statement}

theorem prepareCreate_congr (he : r.entity.WritableIn P)
    (hid : p.get? primaryKey = q.get? primaryKey)
    (h : ∀ name, P r.entity name → p.get? name = q.get? name) :
    r.prepareCreate p = r.prepareCreate q := by
  unfold prepareCreate Entity.checkCreate Entity.suppliedId
  rw [Entity.projected_congr he h, hid]

theorem create_congr (hhooks : r.hooks.Oblivious) (he : r.entity.WritableIn P)
    (hid : p.get? primaryKey = q.get? primaryKey)
    (h : ∀ name, P r.entity name → p.get? name = q.get? name) : r.create p = r.create q := by
  have hinsert : ∀ id values, r.insertRow id values p = r.insertRow id values q := by
    intro id values
    unfold insertRow
    rw [hhooks.preCreate id values p q, hhooks.relationship id none p q]
  unfold create
  rw [prepareCreate_congr he hid h]
  congr 1
  funext ⟨id, values⟩
  dsimp only
  rw [hinsert]

theorem update_congr (hhooks : r.hooks.Oblivious) (he : r.entity.WritableIn P)
    (hp : p.isEmpty = false) (hq : q.isEmpty = false)
    (h : ∀ name, P r.entity name → p.get? name = q.get? name) :
    r.update current p = r.update current q := by
  have hprepare : r.entity.prepareUpdate current p = r.entity.prepareUpdate current q := by
    unfold Entity.prepareUpdate
    rw [hp, hq, Entity.projected_congr he h]
  have hrow : ∀ values, r.updateRow current values p = r.updateRow current values q := by
    intro values
    unfold updateRow
    rw [hhooks.preUpdate current values p q, hhooks.relationship current.id (some current) p q]
  unfold update
  rw [hprepare]
  congr 1
  funext ⟨values, changes⟩
  dsimp only
  rw [hrow]

theorem assignsOnly_create (hhooks : hooks.Preparing) (hconfined : hooks.Confined P)
    (he : e.WritableIn P)
    (h : .executed stmt ∈ ((create ⟨schema, e, hooks, load⟩ input).runOn store s).2.1) :
    stmt.AssignsOnly P := by
  obtain ⟨before, hexecutes⟩ := executes_of_mem h
  rcases executes_create hhooks.leading hexecutes with ⟨_, _, _, _, _, hrule⟩ |
    ⟨id, values, _, hooked, assigned, _, _, _, hcheck, hrule, hassigned, rfl⟩ | hread |
    ⟨_, _, _, hrule⟩
  · exact hconfined.preCreate hrule
  · obtain rfl := Entity.eq_projected_of_checkCreate hcheck
    refine ⟨id, assigned, rfl, Entity.of_mem_assigned hassigned fun name hname => ?_⟩
    exact Entity.of_mem_projected he (hconfined.keeps_create hrule name hname)
  · exact Statement.assignsOnly_of_isRead hread
  · exact hconfined.postCreate hrule

theorem assignsOnly_update (hhooks : hooks.Preparing) (hconfined : hooks.Confined P)
    (he : e.WritableIn P)
    (h : .executed stmt ∈ ((update ⟨schema, e, hooks, load⟩ current input).runOn store s).2.1) :
    stmt.AssignsOnly P := by
  obtain ⟨before, hexecutes⟩ := executes_of_mem h
  rcases executes_update hhooks.leading hexecutes with ⟨_, _, _, hrule⟩ |
    ⟨values, _, _, hooked, kept, _, assigned, _, _, hprepare, hrule, hdiff, hassigned, _, rfl⟩ |
    hread
  · exact hconfined.preUpdate hrule
  · refine Entity.of_mem_assigned hassigned fun name hname => ?_
    have hvalues := hconfined.keeps_update hrule name (Entity.isSome_of_diff hdiff hname)
    have hprojected := Entity.isSome_of_diff (Entity.diff_of_prepareUpdate hprepare) hvalues
    exact Entity.of_mem_projected he hprojected
  · exact Statement.assignsOnly_of_isRead hread

end Repository

/-! ### the rules for partners -/

namespace Partner

theorem oblivious_rules (schema : Schema) (partners members : Entity) :
    (rules schema partners members).Oblivious :=
  ⟨fun _ _ _ _ => rfl, fun _ _ _ _ => rfl, fun _ _ _ _ => rfl⟩

/-- what follows a creation are the statements of the owner's membership -/
theorem executes_postCreate {members : Repository} {record : Record} {σ : Type} {store : Store σ}
    {s : σ} {before : List Event} {q : Statement}
    (h : (postCreate members record).Executes store s before q) :
    ∃ owner, textOf record.values "owner_id" = some owner ∧
      (members.create (membership record.id owner)).Executes store s before q := by
  unfold postCreate at h
  split at h
  · exact h.not_pure.elim
  · next owner howner =>
    have hcreate : (members.create (membership record.id owner) >>= fun _ =>
        (pure () : Action Unit)).Executes store s before q := h
    rcases hcreate.of_bind with hcreate | ⟨_, _, _, _, _, _, hpure⟩
    · exact ⟨owner, howner, hcreate⟩
    · exact hpure.not_pure.elim

theorem confined_rules {P : Entity → String → Prop} (schema : Schema) (partners : Entity)
    {members : Entity} (hmembers : members.WritableIn P) :
    (rules schema partners members).Confined P where
  keeps_create {_ store s s' id values input hooked log} h name hname := by
    have h : (preCreate partners id values input).runOn store s = (.ok hooked, log, s') := h
    rcases of_runOn_preCreate h with ⟨_, rfl, _⟩ | ⟨text, htext, rfl, _⟩
    · exact hname
    · by_cases heq : "name" = name
      · subst heq
        unfold textOf at htext
        obtain ⟨v, hv, _⟩ := Option.bind_eq_some_iff.1 htext
        rw [hv]
        rfl
      · rw [Dict.get?_insert_ne _ _ heq] at hname
        exact hname
  keeps_update {_ store s s' current values input hooked log} h name hname := by
    have h : (preUpdate partners current values input).runOn store s = (.ok hooked, log, s') := h
    obtain ⟨rfl, _⟩ := of_runOn_preUpdate h
    exact hname
  preCreate {_ store s id values input before q} h := by
    have h : (preCreate partners id values input).Executes store s before q := h
    obtain ⟨_, rfl⟩ := executes_preCreate h
    trivial
  preUpdate {_ store s current values input before q} h := by
    have h : (preUpdate partners current values input).Executes store s before q := h
    obtain ⟨_, rfl⟩ := executes_preUpdate h
    trivial
  postCreate {_ store s record before q} h := by
    obtain ⟨_, _, hcreate⟩ := executes_postCreate h
    exact Repository.assignsOnly_create Hooks.preparing_none (Hooks.confined_none P) hmembers
      hcreate.mem_log

end Partner

/-- writes set the columns that payloads may set; whatever else a payload says makes no
difference -/
theorem no_mass_assignment {d : Document} {schema : Schema} (hd : d.resolve = .ok schema)
    {e : Entity} (he : e ∈ schema.entities) {hooks : Hooks}
    (hhooks : hooks = .none ∨ Partner.hooks schema = .ok hooks) (load : LoadPlan) {σ : Type}
    (store : Store σ) (s : σ) :
    (∀ p q : Row, p.get? primaryKey = q.get? primaryKey →
        (∀ name, d.Writable e name → p.get? name = q.get? name) →
        (Repository.create ⟨schema, e, hooks, load⟩ p).runOn store s =
          (Repository.create ⟨schema, e, hooks, load⟩ q).runOn store s) ∧
      (∀ (current : Record) (p q : Row), p.isEmpty = false → q.isEmpty = false →
        (∀ name, d.Writable e name → p.get? name = q.get? name) →
        (Repository.update ⟨schema, e, hooks, load⟩ current p).runOn store s =
          (Repository.update ⟨schema, e, hooks, load⟩ current q).runOn store s) ∧
      ∀ (current : Record) (input : Row) (stmt : Statement),
        .executed stmt ∈
            ((Repository.create ⟨schema, e, hooks, load⟩ input).runOn store s).2.1 ∨
          .executed stmt ∈
            ((Repository.update ⟨schema, e, hooks, load⟩ current input).runOn store s).2.1 →
        stmt.AssignsOnly d.Writable := by
  have hwritable : ∀ e ∈ schema.entities, e.WritableIn d.Writable := fun e he name c hc =>
    Document.writable_of_column hd he hc
  have hrules : hooks.Preparing ∧ hooks.Oblivious ∧ hooks.Confined d.Writable := by
    rcases hhooks with rfl | hhooks
    · exact ⟨Hooks.preparing_none, Hooks.oblivious_none, Hooks.confined_none _⟩
    · obtain ⟨partners, members, _, hmembers, rfl⟩ := Partner.hooks_eq_ok hhooks
      exact ⟨Partner.preparing_rules _ _ _, Partner.oblivious_rules _ _ _,
        Partner.confined_rules _ _ (hwritable members (List.mem_of_find?_eq_some hmembers))⟩
  obtain ⟨hpreparing, hoblivious, hconfined⟩ := hrules
  refine ⟨fun p q hid h => ?_, fun current p q hp hq h => ?_, fun current input stmt h => ?_⟩
  · rw [Repository.create_congr hoblivious (hwritable e he) hid h]
  · rw [Repository.update_congr hoblivious (hwritable e he) hp hq h]
  · rcases h with h | h
    · exact Repository.assignsOnly_create hpreparing hconfined (hwritable e he) h
    · exact Repository.assignsOnly_update hpreparing hconfined (hwritable e he) h

/-! ### a partner with fields that are not its own -/

def acmeFields : Row := Dict.ofList [("id", .str "p1"), ("name", .str " Acme ")]

/-- the same with a time stamp, a search vector, a relationship and a field that is not known -/
def acmeFieldsAndMore : Row := Dict.ofList [("colour", .str "red"),
  ("created_at", .str "2001-01-01"), ("id", .str "p1"), ("members", .arr [.str "m1"]),
  ("name", .str " Acme "), ("search_vector", .str "acme")]

theorem acmeFields_agree (name : String) (h : Partner.partnersDocument.Writable
    Partner.partnersEntity name) : acmeFields.get? name = acmeFieldsAndMore.get? name := by
  obtain ⟨decl, hdecl, heq, _, c, hc, rfl, _, _⟩ := h
  simp only [Partner.partnersDocument, List.mem_cons, List.not_mem_nil, or_false] at hdecl
  rcases hdecl with rfl | rfl | rfl
  · exact absurd heq (by decide)
  · simp only [Partner.partnersDeclaration, List.mem_cons, List.not_mem_nil, or_false] at hc
    rcases hc with rfl | rfl | rfl | rfl <;> rfl
  · exact absurd heq (by decide)

/-- the other fields do not reach the database, on a creation or on an update -/
theorem other_fields_dropped :
    (∃ plan, (Partner.partners.create acmeFieldsAndMore).runOn Partner.scripted
        [Partner.flag false] = (.error (.notFound (.record "partners")), [.marked .begin,
          .executed (.nameTaken Partner.partnersEntity "Acme" "p1"),
          .executed (.insert Partner.partnersEntity [("id", .text "p1"), ("name", .text "Acme")]),
          .marked .commit, .executed (.select Partner.partnersSchema plan)], [])) ∧
      ∃ plan, (Partner.partners.update (.ofRow .empty) acmeFieldsAndMore).runOn Partner.scripted
        [Partner.flag false] = (.error (.notFound (.record "partners")), [.marked .begin,
          .executed (.nameTaken Partner.partnersEntity " Acme " ""),
          .executed (.update Partner.partnersEntity "" [("name", .text " Acme ")]),
          .marked .commit, .executed (.select Partner.partnersSchema plan)], []) := by
  obtain ⟨hcreate, hupdate, _⟩ := no_mass_assignment Partner.resolve_partnersDocument
    (e := Partner.partnersEntity) (by simp [Partner.partnersSchema])
    (.inr Partner.hooks_partnersSchema) .empty Partner.scripted [Partner.flag false]
  have hcreated := hcreate acmeFields acmeFieldsAndMore rfl acmeFields_agree
  have hupdated := hupdate (.ofRow .empty) acmeFields acmeFieldsAndMore rfl rfl acmeFields_agree
  exact ⟨⟨_, hcreated.symm.trans rfl⟩, ⟨_, hupdated.symm.trans rfl⟩⟩

end EntityAccess
