import EntityAccess.Proofs.Filter.Literals
import EntityAccess.Proofs.Repository.Revisions
import EntityAccess.Proofs.Repository.Writable

/-!
# columns that are assigned once

The columns of a write are keys of a dictionary, and the primary key is never among them, so that
they do not repeat.  An update adds the time stamp to them without a look at what is there already:
it is assigned twice when a rule, or a payload where the column is declared and writable, sets it
as well.

* `Hooks.before` : rules before the writes;
* `nodup_columns_insert`, `nodup_columns_update` : the columns of both statements;
* `writes_assign_once` : the columns that creations and updates assign.
-/

namespace EntityAccess

open EntityAccess.Action Outcome
open Program (Store)

/-- any rules before a creation and an update, and no others -/
def Hooks.before (preCreate : String → Row → Row → Action Row)
    (preUpdate : Record → Row → Row → Action Row) : Hooks :=
  { Hooks.none with preCreate, preUpdate }

theorem Hooks.leading_before {preCreate : String → Row → Row → Action Row}
    {preUpdate : Record → Row → Row → Action Row} : (Hooks.before preCreate preUpdate).Leading :=
  ⟨fun _ _ _ => rfl, fun _ _ => rfl, fun _ _ => rfl, fun _ _ => rfl⟩

namespace Entity

variable {e : Entity} {values : Row} {assigned : Sql.Assignments}

theorem nodup_names (h : e.assignments values = .ok assigned) : (assigned.map (·.1)).Nodup := by
  rw [names_of_assignments h]
  exact values.nodup_keys

theorem nodup_columns_insert (h : e.assignments values = .ok assigned) (id : String) :
    (Statement.insert e ((primaryKey, .text id) :: assigned)).columns.Nodup ∧
      (Statement.insert e ((primaryKey, .text id) :: assigned)).columns.count primaryKey = 1 := by
  have hno := primaryKey_not_mem h
  rw [Statement.columns_insert, List.map_cons, List.count_cons_self,
    List.count_eq_zero_of_not_mem hno]
  exact ⟨List.nodup_cons.2 ⟨hno, nodup_names h⟩, rfl⟩

/-- the time stamp is the only column that an update can repeat -/
theorem nodup_columns_update (h : e.assignments values = .ok assigned) (id : String) :
    (Statement.update e id assigned).columns.Nodup ↔
      ¬ (e.tracksUpdatedAt = true ∧ updatedAt ∈ assigned.map (·.1)) := by
  have hnames := nodup_names h
  rw [Statement.columns_update]
  unfold stampColumns
  by_cases htracks : e.tracksUpdatedAt = true
  · rw [if_pos htracks, List.nodup_append', List.disjoint_singleton]
    simp only [hnames, List.nodup_singleton, htracks, true_and]
  · rw [if_neg htracks, List.append_nil]
    simp only [hnames, htracks, Bool.false_eq_true, false_and, not_false_iff]

theorem columns_ne_nil (h : e.assignments values = .ok assigned) (hsome : values.isEmpty = false)
    (id : String) : (Statement.update e id assigned).columns ≠ [] := by
  intro hnone
  have hnames := (List.append_eq_nil_iff.1 hnone).1
  rw [names_of_assignments h] at hnames
  have hentries : values.entries = [] := List.map_eq_nil_iff.1 hnames
  rw [Dict.isEmpty, hentries] at hsome
  cases hsome

theorem primaryKey_not_mem_columns (h : e.assignments values = .ok assigned) (id : String) :
    primaryKey ∉ (Statement.update e id assigned).columns := by
  have hstamp : primaryKey ∉ e.stampColumns := by
    unfold stampColumns
    split <;> decide
  intro hmem
  rcases List.mem_append.1 hmem with hmem | hmem
  · exact primaryKey_not_mem h hmem
  · exact hstamp hmem

end Entity

/-- under any rules before the writes, an insertion of a creation has no column twice and the
primary key once; an update sets some columns, never the primary key, and has a column twice exactly
if it has the time stamp among those that it assigns; without rules that takes a time stamp which is
declared to be writable -/
theorem writes_assign_once {d : Document} {schema : Schema} (hd : d.resolve = .ok schema)
    {e : Entity} (he : e ∈ schema.entities) (load : LoadPlan) {σ : Type} (store : Store σ) (s : σ) :
    (∀ preCreate preUpdate input before q,
      (Repository.create ⟨schema, e, .before preCreate preUpdate, load⟩ input).Executes store s
        before q →
      (∃ id values inner mid, before = .marked .begin :: inner ∧
          (preCreate id values input).Executes store mid inner q) ∨
        (∃ id assigned, q = .insert e ((primaryKey, .text id) :: assigned) ∧
          q.columns.Nodup ∧ q.columns.count primaryKey = 1) ∨
        q.isRead = true) ∧
    (∀ preCreate preUpdate current input before q,
      (Repository.update ⟨schema, e, .before preCreate preUpdate, load⟩ current input).Executes
        store s before q →
      (∃ values inner, before = .marked .begin :: inner ∧
          (preUpdate current values input).Executes store s inner q) ∨
        (∃ assigned, q = .update e current.id assigned ∧ q.columns ≠ [] ∧
          primaryKey ∉ q.columns ∧ (q.columns.Nodup ↔
            ¬ (e.tracksUpdatedAt = true ∧ updatedAt ∈ assigned.map (·.1)))) ∨
        q.isRead = true) ∧
    ∀ current input before id assigned,
      (Repository.update ⟨schema, e, .none, load⟩ current input).Executes store s before
        (.update e id assigned) →
      ¬ (Statement.update e id assigned).columns.Nodup → d.Writable e updatedAt := by
  refine ⟨fun preCreate preUpdate input before q h => ?_,
    fun preCreate preUpdate current input before q h => ?_,
    fun current input before id assigned h hrepeated => ?_⟩
  · rcases Repository.executes_create Hooks.leading_before h with hrule |
      ⟨id, _, _, _, assigned, _, _, _, _, _, hassigned, rfl⟩ | hread | ⟨_, _, _, hpure⟩
    · exact .inl hrule
    · exact .inr (.inl ⟨id, assigned, rfl, Entity.nodup_columns_insert hassigned id⟩)
    · exact .inr (.inr hread)
    · exact hpure.not_pure.elim
  · rcases Repository.executes_update Hooks.leading_before h with hrule |
      ⟨_, _, _, _, _, _, assigned, _, _, _, _, _, hassigned, hsome, rfl⟩ | hread
    · exact .inl hrule
    · exact .inr (.inl ⟨assigned, rfl, Entity.columns_ne_nil hassigned hsome _,
        Entity.primaryKey_not_mem_columns hassigned _, Entity.nodup_columns_update hassigned _⟩)
    · exact .inr (.inr hread)
  · -- without rules the values are those of the payload
    rcases Repository.executes_update Hooks.preparing_none.leading h with ⟨_, _, _, hpure⟩ |
      ⟨values, _, _, hooked, _, _, assigned', _, _, hprepare, hrule, hdiff, hassigned, _, heq⟩ |
      hread
    · exact hpure.not_pure.elim
    · obtain ⟨-, -, rfl⟩ := Statement.update.inj heq
      obtain ⟨rfl, _⟩ : values = hooked ∧ _ := of_runOn_pure hrule
      have hstamp : e.tracksUpdatedAt = true ∧ updatedAt ∈ assigned.map (·.1) :=
        not_not.1 fun hno => hrepeated ((Entity.nodup_columns_update hassigned id).2 hno)
      obtain ⟨⟨_, x⟩, hx, rfl⟩ := List.mem_map.1 hstamp.2
      obtain ⟨v, _, hv, _, _⟩ := Entity.of_mem_assignments hassigned hx
      have hvalue := ((Entity.get?_of_diff hdiff).1 hv).1
      have hprojected :=
        ((Entity.get?_of_diff (Entity.diff_of_prepareUpdate hprepare)).1 hvalue).1
      obtain ⟨_, _, c, hc⟩ := Entity.of_get?_projected hprojected
      exact Document.writable_of_column hd he hc
    · cases hread

/-! ### memos -/

/-- memos declare their time stamp, and a payload may set it -/
def memosDeclaration : EntityDeclaration where
  name := "memos"
  table := none
  columns := [⟨"title", .text, true, false, none, false⟩,
    ⟨updatedAt, .dateTime, true, false, none, false⟩]
  relationships := []
  searchVectors := []
  unique := []
  trackUpdatedAt := true
  transitions := none

def memosEntity : Entity := memosDeclaration.toEntity "public"

def memosSchema : Schema := ⟨[memosEntity]⟩

theorem resolve_memosDocument :
    (Document.mk "public" [memosDeclaration]).resolve = .ok memosSchema := by rfl

def memo : Record := .ofRow (.ofList [("id", .str "5"), ("title", .null),
  (updatedAt, .null)])

/-- a memo with a new title, and the memo that it becomes -/
theorem memo_titled_once :
    (∃ before assigned, (Repository.update ⟨memosSchema, memosEntity, .none, .empty⟩ memo
        (.ofList [("title", .str "a")])).Executes refusing () before
          (.update memosEntity "5" assigned) ∧
      (Statement.update memosEntity "5" assigned).columns = ["title", updatedAt] ∧
      primaryKey ∉ (Statement.update memosEntity "5" assigned).columns) ∧
    ∃ before assigned, (Repository.create ⟨memosSchema, memosEntity, .none, .empty⟩
        (.ofList [("title", .str "a")])).Executes refusing () before
          (.insert memosEntity ((primaryKey, .text "5") :: assigned)) ∧
      (Statement.insert memosEntity ((primaryKey, .text "5") :: assigned)).columns =
        [primaryKey, "title"] ∧
      (Statement.insert memosEntity ((primaryKey, .text "5") :: assigned)).columns.Nodup := by
  obtain ⟨hcreate, hupdate, _⟩ := writes_assign_once resolve_memosDocument
    (List.mem_singleton_self _) .empty refusing ()
  have hset : (Repository.update ⟨memosSchema, memosEntity, .none, .empty⟩ memo
      (.ofList [("title", .str "a")])).Executes refusing () [.marked .begin]
        (.update memosEntity "5" [("title", .text "a")]) := ⟨_, by rfl⟩
  have hadded : (Repository.create ⟨memosSchema, memosEntity, .none, .empty⟩
      (.ofList [("title", .str "a")])).Executes refusing () [.marked .begin]
        (.insert memosEntity [(primaryKey, .text "5"), ("title", .text "a")]) := ⟨_, by rfl⟩
  refine ⟨⟨_, _, hset, rfl, ?_⟩, _, _, hadded, rfl, ?_⟩
  · rcases hupdate (fun _ values _ => pure values) (fun _ values _ => pure values) _ _ _ _ hset with
      ⟨_, _, _, hpure⟩ | ⟨_, _, _, hno, _⟩ | hread
    · exact hpure.not_pure.elim
    · exact hno
    · cases hread
  · rcases hcreate (fun _ values _ => pure values) (fun _ values _ => pure values) _ _ _ hadded with
      ⟨_, _, _, _, _, hpure⟩ | ⟨_, _, _, hnodup, _⟩ | hread
    · exact hpure.not_pure.elim
    · exact hnodup
    · cases hread

/-- the time stamp of a payload -/
def memoStamp : DateTime :=
  ⟨(Date.ofParts? 2024 5 7).get rfl, (TimeOfDay.ofParts? 8 30 0 0).get rfl⟩

/-- a memo whose payload has a time stamp sets it, and sets it again -/
theorem memo_stamped_twice :
    (Document.mk "public" [memosDeclaration]).resolve = .ok memosSchema ∧
      memosEntity ∈ memosSchema.entities ∧
      (Repository.update ⟨memosSchema, memosEntity, .none, .empty⟩ memo
          (.ofList [(updatedAt, .str "2024-05-07 08:30")])).Executes refusing () [.marked .begin]
            (.update memosEntity "5" [(updatedAt, .dateTime memoStamp)]) ∧
        (Statement.update memosEntity "5" [(updatedAt, .dateTime memoStamp)]).columns =
          [updatedAt, updatedAt] ∧
        (Statement.update memosEntity "5" [(updatedAt, .dateTime memoStamp)]).fragment.text =
          Text.concat ["UPDATE \"public\".\"memos\" SET \"updated_at\" = $1::timestamp, ",
            "\"updated_at\" = NOW() WHERE \"id\" = $2::text"] := by
  have hread : readWriteDateTime "2024-05-07 08:30" = some memoStamp := by decide +kernel
  have hcast : memosEntity.cast updatedAt (.str "2024-05-07 08:30") =
      .ok (.dateTime memoStamp) := castWrite_dateTime hread
  have hassigning : memosEntity.assigning memo (.ofList [(updatedAt, .str "2024-05-07 08:30")]) =
      .ok [(updatedAt, .dateTime memoStamp)] :=
    Entity.assigning_single rfl (by rfl) hcast rfl
  exact ⟨resolve_memosDocument, List.mem_singleton_self _,
    Repository.executes_of_assigning hassigning (List.cons_ne_nil _ _), rfl, by rfl⟩

end EntityAccess
