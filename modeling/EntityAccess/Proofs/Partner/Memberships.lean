import EntityAccess.Proofs.Partner.Names
import EntityAccess.Proofs.Repository.Creation
import EntityAccess.Proofs.Repository.CurrentValues

/-!
# partners and the memberships of their owners

A partner is written in one transaction and its owner's membership in another one after it.  What
fails in the second leaves the first as it is.

* `OwnerColumns` : what the rules need of the columns;
* `runOn_membership` : the creation of a membership;
* `owner_text` : the owner of a record that has been read;
* `partner_before_membership` : how a partner and the membership of its owner are committed;
* `partner_without_owner` : a partner that stays without its owner.
-/

namespace EntityAccess.Partner

open EntityAccess.Action Outcome
open Program (Store)

/-- owners and memberships are texts -/
structure OwnerColumns (partners members : Entity) : Prop where
  owner : ∀ c ∈ partners.columns, c.name = "owner_id" → c.type = .text
  membership : ∀ name ∈ ["partner_id", "role", "user_id"],
    ∃ c, members.writableColumn? name = some c ∧ c.type = .text

/-- the row of a membership -/
def membershipValues (id partnerId owner : String) : Sql.Assignments :=
  [(primaryKey, .text id), ("partner_id", .text partnerId), ("role", .text adminRole),
    ("user_id", .text owner)]

section

variable {schema : Schema} {e members : Entity} {load : LoadPlan} {σ : Type} {store : Store σ}
  {s s' : σ} {log : List Event} {partnerId owner : String} {input : Row}

theorem entries_membership (partnerId owner : String) :
    (membership partnerId owner).entries = [("partner_id", .str partnerId),
      ("role", .str adminRole), ("user_id", .str owner)] := by
  have huser : ¬ "user_id" < "partner_id" ∧ "user_id" ≠ "partner_id" := by decide
  have hrole : ¬ "role" < "partner_id" ∧ "role" ≠ "partner_id" ∧ "role" < "user_id" := by decide
  unfold membership Dict.ofList
  simp only [List.foldl_cons, List.foldl_nil, Dict.insert, Dict.empty, insertEntry, huser.1,
    huser.2, hrole.1, hrole.2.1, hrole.2.2, if_true, if_false]

theorem projected_membership (h : OwnerColumns e members) (partnerId owner : String) :
    members.projected (membership partnerId owner) = membership partnerId owner := by
  refine Dict.ext (List.filter_eq_self.2 fun entry hentry => ?_)
  have htakes : ∀ name ∈ ["partner_id", "role", "user_id"], ∀ t, members.takes name (.str t) =
      true := by
    intro name hname t
    obtain ⟨c, hc, _⟩ := h.membership name hname
    unfold Entity.takes
    rw [hc]
    simp [Json.isNull, Json.isArr]
  rw [entries_membership] at hentry
  simp only [List.mem_cons, List.not_mem_nil, or_false] at hentry
  rcases hentry with rfl | rfl | rfl
  · exact htakes _ (by simp) _
  · exact htakes _ (by simp) _
  · exact htakes _ (by simp) _

theorem assignments_membership (h : OwnerColumns e members) (partnerId owner : String) :
    members.assignments (membership partnerId owner) = .ok [("partner_id", .text partnerId),
      ("role", .text adminRole), ("user_id", .text owner)] := by
  have hassign : ∀ name ∈ ["partner_id", "role", "user_id"], ∀ t,
      members.assignment (name, .str t) = .ok (name, .text t) := by
    intro name hname t
    obtain ⟨c, hc, ht⟩ := h.membership name hname
    unfold Entity.assignment
    dsimp only
    rw [Entity.assignableColumn?_of_writable hc]
    dsimp only
    rw [ht]
    rfl
  unfold Entity.assignments
  rw [entries_membership]
  simp only [List.mapM_cons, List.mapM_nil]
  rw [hassign "partner_id" (by simp), hassign "role" (by simp), hassign "user_id" (by simp)]
  rfl

theorem checkCreate_membership (h : OwnerColumns e members) (partnerId owner : String) :
    members.checkCreate (membership partnerId owner) = .ok (membership partnerId owner) := by
  unfold Entity.checkCreate
  rw [projected_membership h]
  dsimp only
  rw [assignments_membership h]
  rfl

/-- the transaction of a membership -/
theorem log_of_insertMembership (hcolumns : OwnerColumns e members) {id : String} {values : Row}
    {result : Except Error Unit}
    (hcheck : members.checkCreate (membership partnerId owner) = .ok values)
    (hrow : (Repository.insertRow (.plain schema members) id values
      (membership partnerId owner)).runOn store s = (result, log, s')) :
    log = [.marked .begin, .executed (.insert members (membershipValues id partnerId owner)),
      .marked (if result.isOk then .commit else .rollback)] := by
  rw [checkCreate_membership hcolumns] at hcheck
  obtain rfl := Except.ok.inj hcheck
  obtain ⟨outcome, mid, checks, hpre, hchecks, hcases⟩ :=
    Repository.runOn_insertRow_cases Hooks.preparing_none
      (.pure (P := fun _ => False) (membership partnerId owner)) hrow
  obtain rfl : .ok (membership partnerId owner) = outcome := congrArg Prod.fst hpre
  obtain rfl : checks = [] := List.eq_nil_iff_forall_not_mem.2 hchecks
  have hassigned : (Except.ok (membership partnerId owner)).bind members.assignments = .ok
      [("partner_id", .text partnerId), ("role", .text adminRole), ("user_id", .text owner)] :=
    assignments_membership hcolumns partnerId owner
  rw [hassigned] at hcases
  rcases hcases with ⟨err, herr, _⟩ | ⟨assigned, hok, hlog⟩
  · cases herr
  · obtain rfl := Except.ok.inj hok
    exact hlog

/-- a membership is inserted, and then it is committed and read again, or it is rolled back -/
theorem runOn_membership (hcolumns : OwnerColumns e members) {result : Except Error Record}
    (h : (Repository.create (.plain schema members) (membership partnerId owner)).runOn store s =
      (result, log, s')) :
    ∃ id, (result.isOk = false ∧ log = [.marked .begin,
        .executed (.insert members (membershipValues id partnerId owner)), .marked .rollback]) ∨
      ∃ reads : List Statement, (∀ q ∈ reads, q.isRead = true) ∧ log = .marked .begin ::
        .executed (.insert members (membershipValues id partnerId owner)) :: .marked .commit ::
          reads.map .executed := by
  cases Repository.creation_of_runOn h with
  | refused hcheck =>
    have hcheck : members.checkCreate (membership partnerId owner) = .error _ := hcheck
    rw [checkCreate_membership hcolumns] at hcheck
    cases hcheck
  | @unwritten id _ _ _ _ _ hcheck hrow =>
    exact ⟨id, .inl ⟨rfl, log_of_insertMembership hcolumns hcheck hrow⟩⟩
  | @unread id _ _ _ _ _ _ _ hcheck hrow hread =>
    obtain ⟨reads, rfl, hall⟩ := (Hooks.preparing_none.reading_reread id).exists_statements hread
    refine ⟨id, .inr ⟨reads, hall, ?_⟩⟩
    rw [log_of_insertMembership hcolumns hcheck hrow]
    rfl
  | @stored id _ _ _ _ _ _ _ _ _ _ hcheck hrow hread hrule =>
    obtain ⟨reads, rfl, hall⟩ := (Hooks.preparing_none.reading_reread id).exists_statements hread
    obtain rfl : [] = _ := congrArg (·.2.1) hrule
    refine ⟨id, .inr ⟨reads, hall, ?_⟩⟩
    rw [log_of_insertMembership hcolumns hcheck hrow, List.append_nil]
    rfl

/-! ### partners -/

/-- the transaction of a partner -/
theorem log_of_insertPartner {id : String} {values : Row} {result : Except Error Unit}
    (hrow : (Repository.insertRow ⟨schema, e, rules schema e members, load⟩ id values input).runOn
      store s = (result, log, s')) :
    ∃ checks : List Statement, (∀ q ∈ checks, q.isRead = true) ∧
      ((result.isOk = false ∧
          log = .marked .begin :: checks.map .executed ++ [.marked .rollback]) ∨
        ∃ assigned, log = .marked .begin :: (checks.map .executed ++
          [.executed (.insert e ((primaryKey, .text id) :: assigned))]) ++
            [.marked (if result.isOk then .commit else .rollback)]) := by
  have hreading : Reading (preCreate e id values input) := by
    unfold preCreate
    split
    · exact .pure values
    · refine .bind (.bind (.query (by rfl) _) fun taken => ?_) fun _ => .pure _
      split
      · exact .liftM (.error _)
      · exact .pure ()
  obtain ⟨_, _, checks, _, hchecks, hcases⟩ :=
    Repository.runOn_insertRow_cases (preparing_rules schema e members) hreading hrow
  refine ⟨checks, hchecks, hcases.imp ?_ ?_⟩
  · rintro ⟨_, _, rfl, hlog⟩
    exact ⟨rfl, hlog⟩
  · rintro ⟨assigned, _, hlog⟩
    exact ⟨assigned, hlog⟩

/-- a text column of a record that has been read holds text, or null -/
theorem owner_text (hcolumns : OwnerColumns e members) {id : String} {record : Record}
    (hread : (Repository.reread ⟨schema, e, rules schema e members, load⟩ id).runOn store s =
      (.ok record, log, s')) (hnull : record.value "owner_id" ≠ .null) :
    ∃ owner, record.value "owner_id" = .str owner ∧
      textOf record.values "owner_id" = some owner := by
  unfold Repository.reread at hread
  obtain ⟨found, _, _, _, hget, hrequired, _⟩ := of_runOn_bind hread
  obtain ⟨_, rs, rows, _, _, hrows, hvalues⟩ :=
    Repository.getById_eq_ok (fun _ _ => rfl) (fun _ _ => rfl) hget
  obtain ⟨hfound, _, _⟩ := of_runOn_liftM hrequired
  obtain rfl : found = some record := by
    cases found with
    | none => cases hfound
    | some record' => rw [Except.ok.inj hfound]
  obtain ⟨row, _, hrow⟩ := exists_of_mem_result hrows (List.mem_of_head? hvalues.symm)
  obtain ⟨v, hv⟩ : ∃ v, record.values.get? "owner_id" = some v := by
    cases hv : record.values.get? "owner_id" with
    | some v => exact ⟨v, rfl⟩
    | none =>
      refine absurd ?_ hnull
      unfold Record.value Record.get?
      rw [hv]
      rfl
  have hvalue : record.value "owner_id" = v := by
    unfold Record.value Record.get?
    rw [hv]
    rfl
  obtain ⟨c, hc, hname, source, hcell⟩ := of_readRow_get? hrow hv
  obtain ⟨heq, hfits⟩ := ResultSet.readCell_eq_ok hcell
  rw [hcolumns.owner c hc hname] at hfits
  rw [hvalue] at hnull
  unfold textOf
  rw [hvalue, hv, heq]
  rw [heq] at hnull
  cases hx : (Dict.get? row "owner_id").getD .null with
  | text t => exact ⟨t, rfl, rfl⟩
  | null =>
    rw [hx] at hnull
    exact absurd rfl hnull
  | _ =>
    rw [hx] at hfits
    rcases hfits with hfits | hfits
    · cases hfits
    · cases hfits

/-- nothing follows a partner without an owner; otherwise its membership does -/
theorem runOn_postCreate_cases {repository : Repository} {record : Record}
    {outcome : Except Error Unit}
    (h : (postCreate repository record).runOn store s = (outcome, log, s')) :
    (textOf record.values "owner_id" = none ∧ outcome = .ok () ∧ log = []) ∨
      ∃ owner result, textOf record.values "owner_id" = some owner ∧
        (repository.create (membership record.id owner)).runOn store s = (result, log, s') ∧
        outcome.isOk = result.isOk := by
  unfold postCreate at h
  split at h
  · next hnone =>
    rw [runOn_pure] at h
    simp only [Prod.mk.injEq] at h
    exact .inl ⟨hnone, h.1.symm, h.2.1.symm⟩
  · next owner howner =>
    have h : (repository.create (membership record.id owner) >>= fun _ =>
      (pure () : Action Unit)).runOn store s = (outcome, log, s') := h
    rcases runOn_bind_cases h with ⟨err, hcreate, rfl⟩ | ⟨_, first, mid, rest, hcreate, hpure, rfl⟩
    · exact .inr ⟨owner, _, howner, hcreate, rfl⟩
    · rw [runOn_pure] at hpure
      simp only [Prod.mk.injEq] at hpure
      obtain ⟨rfl, rfl, rfl⟩ := hpure
      rw [List.append_nil]
      exact .inr ⟨owner, _, howner, hcreate, rfl⟩

theorem insert_not_mem_reads {qs : List Statement} (h : ∀ q ∈ qs, q.isRead = true)
    (values : Sql.Assignments) : .executed (.insert members values) ∉ qs.map Event.executed := by
  intro hmem
  obtain ⟨q, hq, heq⟩ := List.mem_map.1 hmem
  obtain rfl := Event.executed.inj heq
  cases h _ hq

/-- the transaction of a partner inserts no membership -/
theorem insert_not_mem_insertPartner (hne : members ≠ e) {id : String} {values : Row}
    {result : Except Error Unit}
    (hrow : (Repository.insertRow ⟨schema, e, rules schema e members, load⟩ id values input).runOn
      store s = (result, log, s')) (other : Sql.Assignments) :
    .executed (.insert members other) ∉ log := by
  obtain ⟨checks, hchecks, hcases⟩ := log_of_insertPartner hrow
  have hno : .executed (.insert members other) ∉ checks.map Event.executed :=
    insert_not_mem_reads hchecks other
  rcases hcases with ⟨_, rfl⟩ | ⟨assigned, rfl⟩
  · simp [hno]
  · simp [hno, hne]

/-- the membership is all that follows a partner -/
theorem log_of_postCreate (hcolumns : OwnerColumns e members) {record : Record}
    {outcome : Except Error Unit} {values : Sql.Assignments}
    (hrule : (postCreate (.plain schema members) record).runOn store s = (outcome, log, s'))
    (hmem : .executed (.insert members values) ∈ log) :
    log = [.marked .begin, .executed (.insert members values), .marked .rollback] ∨
      ∃ reads : List Statement, (∀ q ∈ reads, q.isRead = true) ∧
        log = .marked .begin :: .executed (.insert members values) :: .marked .commit ::
          reads.map .executed := by
  rcases runOn_postCreate_cases hrule with ⟨_, _, rfl⟩ | ⟨owner, result, _, hcreate, _⟩
  · cases hmem
  obtain ⟨id, ⟨_, rfl⟩ | ⟨reads, hreads, rfl⟩⟩ := runOn_membership hcolumns hcreate
  · obtain rfl : values = membershipValues id record.id owner := by simpa using hmem
    exact .inl rfl
  · obtain rfl : values = membershipValues id record.id owner := by
      simpa [insert_not_mem_reads hreads values] using hmem
    exact .inr ⟨reads, hreads, rfl⟩

/-- the owner of a partner that has been read again becomes a member -/
theorem member_of_postCreate (hcolumns : OwnerColumns e members) {id : String} {record : Record}
    {reads last : List Event} {mid : σ}
    (hread : (Repository.reread ⟨schema, e, rules schema e members, load⟩ id).runOn store s =
      (.ok record, reads, mid))
    (hrule : (postCreate (.plain schema members) record).runOn store mid = (.ok (), last, s'))
    (hnull : record.value "owner_id" ≠ .null) :
    ∃ owner memberId after, record.value "owner_id" = .str owner ∧ last = .marked .begin ::
      .executed (.insert members (membershipValues memberId record.id owner)) ::
        .marked .commit :: after := by
  obtain ⟨owner, hvalue, htext⟩ := owner_text hcolumns hread hnull
  rcases runOn_postCreate_cases hrule with ⟨hnone, _⟩ | ⟨owner', result, htext', hcreate, hok⟩
  · rw [htext] at hnone
    cases hnone
  obtain rfl : owner = owner' := Option.some.inj (htext.symm.trans htext')
  obtain ⟨memberId, ⟨hno, _⟩ | ⟨reads', _, rfl⟩⟩ := runOn_membership hcolumns hcreate
  · rw [hno] at hok
    cases hok
  · exact ⟨owner, memberId, reads'.map .executed, hvalue, rfl⟩

end

/-- how a partner and the membership of its owner are committed.

If a creation fails after it has turned to the membership, the partner is committed by then, and the
insertion of the membership has been rolled back, or it has been committed and only could not be
read again.  If a creation succeeds, the owner that is read back is a member. -/
theorem partner_before_membership {schema : Schema} {h : Hooks} (hh : hooks schema = .ok h)
    {e members : Entity} (he : schema.entity? partnersName = some e)
    (hm : schema.entity? membersName = some members) (hcolumns : OwnerColumns e members)
    (load : LoadPlan) {σ : Type} {store : Store σ} {s s' : σ} {input : Row}
    {result : Except Error Record} {log : List Event}
    (hrun : (Repository.create ⟨schema, e, h, load⟩ input).runOn store s = (result, log, s')) :
    (∀ err values, result = .error err → .executed (.insert members values) ∈ log →
        ∃ (id : String) (assigned : Sql.Assignments) (checks reads : List Statement)
          (rest : List Event), (∀ q ∈ checks ++ reads, q.isRead = true) ∧
          log = .marked .begin :: (checks.map .executed ++
            [.executed (.insert e ((primaryKey, .text id) :: assigned)), .marked .commit]) ++
              (reads.map .executed ++ rest) ∧
          (rest = [.marked .begin, .executed (.insert members values), .marked .rollback] ∨
            ∃ reads' : List Statement, (∀ q ∈ reads', q.isRead = true) ∧
              rest = .marked .begin :: .executed (.insert members values) :: .marked .commit ::
                reads'.map .executed)) ∧
      ∀ record, result = .ok record → record.value "owner_id" ≠ .null →
        ∃ (owner id : String) (before after : List Event),
          record.value "owner_id" = .str owner ∧
          log = before ++ .marked .begin ::
            .executed (.insert members (membershipValues id record.id owner)) ::
              .marked .commit :: after := by
  obtain ⟨partners, members', hpartners, hmembers, rfl⟩ := hooks_eq_ok hh
  obtain rfl : partners = e := Option.some.inj (hpartners.symm.trans he)
  obtain rfl : members' = members := Option.some.inj (hmembers.symm.trans hm)
  have hne := members_ne he hm
  have hreading : ∀ {id result log s s'},
      (Repository.reread ⟨schema, partners, rules schema partners members', load⟩ id).runOn store
        s = (result, log, s') → ∃ reads : List Statement, log = reads.map .executed ∧
          ∀ q ∈ reads, q.isRead = true := fun hread =>
    ((preparing_rules schema partners members').reading_reread _).exists_statements hread
  cases Repository.creation_of_runOn hrun with
  | refused hcheck =>
    refine ⟨fun err values _ hmem => absurd hmem List.not_mem_nil, fun record hok => ?_⟩
    cases hok
  | unwritten hcheck hrow =>
    refine ⟨fun err values _ hmem => ?_, fun record hok => ?_⟩
    · exact absurd hmem (insert_not_mem_insertPartner hne hrow values)
    · cases hok
  | unread hcheck hrow hread =>
    refine ⟨fun err values _ hmem => ?_, fun record hok => ?_⟩
    · obtain ⟨reads, rfl, hreads⟩ := hreading hread
      rcases List.mem_append.1 hmem with hmem | hmem
      · exact absurd hmem (insert_not_mem_insertPartner hne hrow values)
      · exact absurd hmem (insert_not_mem_reads hreads values)
    · cases hok
  | @stored id _ record outcome first _ last _ _ _ _ hcheck hrow hread hrule =>
    have hrule : (postCreate (.plain schema members') record).runOn store _ =
      (outcome, last, s') := hrule
    refine ⟨fun err values herr hmem => ?_, fun record' hok hnull => ?_⟩
    · obtain ⟨reads, rfl, hreads⟩ := hreading hread
      -- neither the partner's transaction nor the read after it inserts a membership
      have hlast : .executed (.insert members' values) ∈ last := by
        rcases List.mem_append.1 hmem with hmem | hmem
        · exact absurd hmem (insert_not_mem_insertPartner hne hrow values)
        · exact (List.mem_append.1 hmem).resolve_left (insert_not_mem_reads hreads values)
      obtain ⟨checks, hchecks, ⟨hno, _⟩ | ⟨assigned, rfl⟩⟩ := log_of_insertPartner hrow
      · cases hno
      refine ⟨id, assigned, checks, reads, last, fun q hq => ?_, ?_,
        log_of_postCreate hcolumns hrule hlast⟩
      · exact (List.mem_append.1 hq).elim (hchecks q) (hreads q)
      · simp [Except.isOk, Except.toBool]
    · cases outcome with
      | error err => cases hok
      | ok _ =>
        obtain rfl : record = record' := Except.ok.inj hok
        obtain ⟨owner, memberId, after, hvalue, rfl⟩ :=
          member_of_postCreate hcolumns hread hrule hnull
        exact ⟨owner, memberId, first ++ _, after, hvalue, (List.append_assoc _ _ _).symm⟩

/-! ### a partner with an owner -/

def ownedFields : Row :=
  Dict.ofList [("id", .str "p1"), ("name", .str "Acme"), ("owner_id", .str "u1")]

/-- the answers up to the partner's record -/
def ownedAnswers : List Reply := [flag false, .ok .empty,
  oneRow partnersEntity [("id", .text "p1"), ("name", .text "Acme"), ("owner_id", .text "u1")]]

theorem ownerColumns_partners : OwnerColumns partnersEntity membersEntity := by
  refine ⟨by decide, fun name hname => ?_⟩
  simp only [List.mem_cons, List.not_mem_nil, or_false] at hname
  rcases hname with rfl | rfl | rfl
  · exact ⟨_, rfl, rfl⟩
  · exact ⟨_, rfl, rfl⟩
  · exact ⟨_, rfl, rfl⟩

/-- the owner becomes a member -/
theorem owner_is_member :
    ∃ record log, (partners.create ownedFields).runOn scripted
        (ownedAnswers ++ [.ok .empty, oneRow membersEntity [("id", .text "fresh")]]) =
          (.ok record, log, []) ∧
      ∃ id before after, log = before ++ .marked .begin ::
        .executed (.insert membersEntity (membershipValues id "p1" "u1")) ::
          .marked .commit :: after := by
  obtain ⟨_, hmember⟩ := partner_before_membership hooks_partnersSchema rfl rfl
    ownerColumns_partners .empty
    (rfl : (partners.create ownedFields).runOn scripted
      (ownedAnswers ++ [.ok .empty, oneRow membersEntity [("id", .text "fresh")]]) = (_, _, _))
  have howned : Json.str "u1" ≠ .null := nofun
  obtain ⟨owner, id, before, after, howner, hlog⟩ := hmember _ rfl howned
  obtain rfl : "u1" = owner := Json.str.inj howner
  exact ⟨_, _, rfl, id, before, after, hlog⟩

/-- the owner is no user: the partner stays, without a member -/
theorem partner_without_owner :
    ∃ plan, (partners.create ownedFields).runOn scripted
        (ownedAnswers ++ [.error (.rejected "23503" "no such user")]) =
      (.error (.database (.rejected "23503" "no such user")), [.marked .begin,
        .executed (.nameTaken partnersEntity "Acme" "p1"),
        .executed (.insert partnersEntity
          [("id", .text "p1"), ("name", .text "Acme"), ("owner_id", .text "u1")]),
        .marked .commit, .executed (.select partnersSchema plan), .marked .begin,
        .executed (.insert membersEntity (membershipValues "fresh" "p1" "u1")),
        .marked .rollback], []) :=
  ⟨_, rfl⟩

end EntityAccess.Partner
