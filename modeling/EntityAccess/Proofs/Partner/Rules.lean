import EntityAccess.Proofs.Occurrences
import EntityAccess.Proofs.Transitions.Runs

/-!
# the rules for partners at work

What the rules do to the values of a write and what they execute: at most the question whether a
name is taken, and that only if the values have a text for the name.

* `rules`, `hooks_eq_ok` : the rules of a schema;
* `of_runOn_preCreate`, `of_runOn_preUpdate` : the values that are left, and what has been asked;
* `executes_preCreate`, `executes_preUpdate` : the question and nothing else;
* `preparing_rules`, `preparing_hooks` : the rules act on an update only before it.
-/

namespace EntityAccess.Partner

open EntityAccess.Action
open Program (Store)

/-- the rules for the tables of partners and of their members -/
def rules (schema : Schema) (partners members : Entity) : Hooks := { Hooks.none with
  preCreate := preCreate partners
  preUpdate := preUpdate partners
  postCreate := postCreate (.plain schema members) }

theorem hooks_eq_ok {schema : Schema} {h : Hooks} (hh : hooks schema = .ok h) :
    ∃ partners members, schema.entity? partnersName = some partners ∧
      schema.entity? membersName = some members ∧ h = rules schema partners members := by
  unfold hooks at hh
  split at hh
  · cases hh
  · cases hh
  · next partners members hpartners hmembers =>
    exact ⟨partners, members, hpartners, hmembers, (Except.ok.inj hh).symm⟩

/-! ### the question for a name -/

section

variable {σ : Type} {store : Store σ} {s s' : σ} {partners : Entity} {current : Record}
  {name id : String} {values input hooked : Row} {log before : List Event} {q : Statement}

/-- the question is asked, whatever comes of it -/
theorem runOn_ensureUniqueName (partners : Entity) (name id : String) (store : Store σ) (s : σ) :
    ∃ result, (ensureUniqueName partners name id).runOn store s =
      (result, [.executed (.nameTaken partners name id)],
        (store.reply (.nameTaken partners name id) s).2) := by
  unfold ensureUniqueName
  rcases hask : ofReply ResultSet.readFirstFlag (store.reply (.nameTaken partners name id) s).1
    with e | taken
  · exact ⟨.error e, runOn_bind_error _ (by rw [runOn_query, hask])⟩
  · have hrun : (query (.nameTaken partners name id) ResultSet.readFirstFlag).runOn store s =
        (.ok taken, [.executed (.nameTaken partners name id)],
          (store.reply (.nameTaken partners name id) s).2) := by
      rw [runOn_query, hask]
    rw [runOn_bind_ok _ hrun]
    cases taken with
    | true => exact ⟨_, rfl⟩
    | false => exact ⟨_, rfl⟩

theorem of_runOn_preCreate
    (h : (preCreate partners id values input).runOn store s = (.ok hooked, log, s')) :
    (textOf values "name" = none ∧ hooked = values ∧ log = []) ∨
      ∃ name, textOf values "name" = some name ∧
        hooked = values.insert "name" (.str (Text.trim name)) ∧
        log = [.executed (.nameTaken partners (Text.trim name) id)] := by
  unfold preCreate at h
  split at h
  · next hname =>
    rw [runOn_pure] at h
    simp only [Prod.mk.injEq, Except.ok.injEq] at h
    exact .inl ⟨hname, h.1.symm, h.2.1.symm⟩
  · next name hname =>
    obtain ⟨_, asked, mid, rest, hask, hrest, rfl⟩ := of_runOn_bind h
    obtain ⟨_, hrun⟩ := runOn_ensureUniqueName partners (Text.trim name) id store s
    rw [hrun] at hask
    rw [runOn_pure] at hrest
    simp only [Prod.mk.injEq, Except.ok.injEq] at hask hrest
    obtain ⟨_, rfl, _⟩ := hask
    obtain ⟨rfl, rfl, _⟩ := hrest
    exact .inr ⟨name, hname, rfl, rfl⟩

theorem of_runOn_preUpdate
    (h : (preUpdate partners current values input).runOn store s = (.ok hooked, log, s')) :
    hooked = values ∧ ((textOf values "name" = none ∧ log = []) ∨
      ∃ name, textOf values "name" = some name ∧
        log = [.executed (.nameTaken partners name current.id)]) := by
  unfold preUpdate at h
  split at h
  · next hname =>
    rw [runOn_pure] at h
    simp only [Prod.mk.injEq, Except.ok.injEq] at h
    exact ⟨h.1.symm, .inl ⟨hname, h.2.1.symm⟩⟩
  · next name hname =>
    obtain ⟨_, asked, mid, rest, hask, hrest, rfl⟩ := of_runOn_bind h
    obtain ⟨_, hrun⟩ := runOn_ensureUniqueName partners name current.id store s
    rw [hrun] at hask
    rw [runOn_pure] at hrest
    simp only [Prod.mk.injEq, Except.ok.injEq] at hask hrest
    obtain ⟨_, rfl, _⟩ := hask
    obtain ⟨rfl, rfl, _⟩ := hrest
    exact ⟨rfl, .inr ⟨name, hname, rfl⟩⟩

theorem executes_ensureUniqueName
    (h : (ensureUniqueName partners name id).Executes store s before q) :
    q = .nameTaken partners name id := by
  obtain ⟨_, hrun⟩ := runOn_ensureUniqueName partners name id store s
  have hlog := h.mem_log
  rw [hrun] at hlog
  simpa using hlog

theorem executes_preCreate (h : (preCreate partners id values input).Executes store s before q) :
    ∃ name, q = .nameTaken partners name id := by
  unfold preCreate at h
  split at h
  · exact h.not_pure.elim
  · rcases h.of_bind with h | ⟨_, _, _, _, _, _, h⟩
    · exact ⟨_, executes_ensureUniqueName h⟩
    · exact h.not_pure.elim

theorem executes_preUpdate
    (h : (preUpdate partners current values input).Executes store s before q) :
    ∃ name, q = .nameTaken partners name current.id := by
  unfold preUpdate at h
  split at h
  · exact h.not_pure.elim
  · rcases h.of_bind with h | ⟨_, _, _, _, _, _, h⟩
    · exact ⟨_, executes_ensureUniqueName h⟩
    · exact h.not_pure.elim

end

theorem preparing_rules (schema : Schema) (partners members : Entity) :
    (rules schema partners members).Preparing where
  preUpdate current values input σ store s e id assigned hmem := by
    have hmem : .executed (.update e id assigned) ∈
        ((preUpdate partners current values input).runOn store s).2.1 := hmem
    obtain ⟨before, hexecutes⟩ := executes_of_mem hmem
    obtain ⟨_, hq⟩ := executes_preUpdate hexecutes
    cases hq
  relationship _ _ _ := rfl
  postUpdate _ _ := rfl
  customizeQuery _ _ := rfl
  modifyLoadPlan _ _ := rfl

/-- the rules for partners act on an update only before it -/
theorem preparing_hooks {schema : Schema} {h : Hooks} (hh : hooks schema = .ok h) :
    h.Preparing := by
  obtain ⟨partners, members, _, _, rfl⟩ := hooks_eq_ok hh
  exact preparing_rules schema partners members

/-! ### a schema of partners -/

/-- a column without a value of its own -/
def plainColumn (name : String) (type : ColumnType) : ColumnDeclaration :=
  ⟨name, type, true, false, none, false⟩

def usersDeclaration : EntityDeclaration where
  name := "users"
  table := none
  columns := [plainColumn "name" .text, plainColumn "age" .integer]
  relationships := [⟨"memberships", .oneToMany, membersName, some "user_id", none⟩]
  searchVectors := []
  unique := []
  trackUpdatedAt := true
  transitions := none

def partnersDeclaration : EntityDeclaration where
  name := partnersName
  table := none
  columns := [⟨"name", .text, false, true, none, false⟩, plainColumn "address" .text,
    plainColumn "owner_id" .text, plainColumn "rating" .float]
  relationships := [⟨"owner", .manyToOne, "users", some "owner_id", none⟩,
    ⟨"members", .oneToMany, membersName, some "partner_id", none⟩]
  searchVectors := [⟨"search_vector", ["name", "address"], none⟩]
  unique := []
  trackUpdatedAt := true
  transitions := none

def membersDeclaration : EntityDeclaration where
  name := membersName
  table := some "partnermembers"
  columns := [⟨"partner_id", .text, false, false, none, false⟩,
    ⟨"user_id", .text, false, false, none, false⟩, ⟨"role", .text, false, false, none, false⟩]
  relationships := [⟨"partner", .manyToOne, partnersName, none, some "CASCADE"⟩,
    ⟨"user", .manyToOne, "users", none, none⟩]
  searchVectors := []
  unique := [["partner_id", "user_id"]]
  trackUpdatedAt := true
  transitions := none

def partnersDocument : Document :=
  ⟨"public", [usersDeclaration, partnersDeclaration, membersDeclaration]⟩

def usersEntity : Entity := usersDeclaration.toEntity "public"

def partnersEntity : Entity := partnersDeclaration.toEntity "public"

def membersEntity : Entity := membersDeclaration.toEntity "public"

def partnersSchema : Schema := ⟨[usersEntity, partnersEntity, membersEntity]⟩

theorem resolve_partnersDocument : partnersDocument.resolve = .ok partnersSchema := by rfl

theorem hooks_partnersSchema :
    hooks partnersSchema = .ok (rules partnersSchema partnersEntity membersEntity) := by rfl

/-- partners under their rules -/
def partners : Repository :=
  ⟨partnersSchema, partnersEntity, rules partnersSchema partnersEntity membersEntity, .empty⟩

/-- the answers of a list, one after the other, and then empty ones -/
def scripted : Store (List Reply) where
  reply _ answers := (answers.headD (.ok .empty), answers.tail)
  fresh answers := ("fresh", answers)

/-- the answer to the question for a name -/
def flag (taken : Bool) : Reply :=
  .ok ⟨Dict.ofList [("exists", "boolean")], [Dict.ofList [("exists", .bool taken)]]⟩

/-- an answer of one row -/
def oneRow (e : Entity) (cells : List (String × SqlValue)) : Reply :=
  .ok ⟨Dict.ofList (e.selectable.map fun c => (c.name, c.type.sqlName)), [Dict.ofList cells]⟩

end EntityAccess.Partner
