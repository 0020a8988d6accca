import EntityAccess.Migration
import EntityAccess.Proofs.Schema.Accepted
import EntityAccess.Proofs.Transactions.Course

/-!
# the steps of a migration

A migration is a list of steps that the schema alone determines: definitions, each on its own, and
then for every search vector a transaction of definitions.  Whatever the database answers, the steps
are taken in their order, all of them or those before the first definition that is refused; that
definition is the last that is asked for, and its error is returned.

* `Step`, `Schema.steps` : the steps of a schema;
* `Step.done`, `Step.Broken` : what happens in a step;
* `Goes` : what happens in a migration;
* `Takes.bind`, `takes_forM`, `takes_transaction` : actions that take steps;
* `takes_migrate` : the migration of an accepted schema takes its steps;
* `Goes.definitions_prefix`, `Goes.definitions_eq` : what is defined are the first definitions of
  the steps, or all of them.
-/

namespace EntityAccess

open Program (Store)

/-! ### steps -/

/-- a definition on its own, or the definitions of a transaction -/
inductive Step where
  | alone (d : Definition)
  | together (ds : List Definition)

namespace Step

def definitions : Step → List Definition
  | .alone d => [d]
  | .together ds => ds

/-- a definition that is not refused -/
def accepted (d : Definition) : Moment := .asked (.define d) none

/-- a step in which no definition is refused -/
def done : Step → Entry
  | .alone d => .moment (accepted d)
  | .together ds => .segment (ds.map accepted) true

/-- a step that ends with a definition that is refused; a transaction is rolled back -/
inductive Broken : Step → DatabaseError → Entry → Prop where
  | alone (d : Definition) (e : DatabaseError) :
    Broken (.alone d) e (.moment (.asked (.define d) (some e)))
  | together (before : List Definition) (d : Definition) (after : List Definition)
    (e : DatabaseError) :
    Broken (.together (before ++ d :: after)) e
      (.segment (before.map accepted ++ [.asked (.define d) (some e)]) false)

end Step

/-- how steps go: all of them, or those before the first that breaks, with its error -/
inductive Goes (steps : List Step) : List Entry → Except Error Unit → Prop where
  | completed : Goes steps (steps.map Step.done) (.ok ())
  | broken {before after : List Step} {step : Step} {entry : Entry} {e : DatabaseError}
    (split : steps = before ++ step :: after) (last : step.Broken e entry) :
    Goes steps (before.map Step.done ++ [entry]) (.error (.database e))

theorem Goes.single {step : Step} {entry : Entry} {e : DatabaseError} (h : step.Broken e entry) :
    Goes [step] [entry] (.error (.database e)) :=
  have hsplit : [step] = [] ++ step :: [] := rfl
  .broken hsplit h

/-- an action that takes steps, whatever the database answers -/
def Takes (x : Action Unit) (steps : List Step) : Prop :=
  ∀ (σ : Type) (store : Store σ) (s : σ), ∃ entries result s',
    Course store x s entries result s' ∧ Goes steps entries result

/-! ### actions that take steps -/

theorem takes_pure : Takes (pure ()) [] := fun _ _ s => ⟨[], .ok (), s, .value () s, .completed⟩

theorem takes_execute (d : Definition) : Takes (Action.execute (.define d)) [.alone d] := by
  intro σ store s
  cases h : (store.reply (.define d) s).1.bind fun _ => (.ok () : Except DatabaseError Unit) with
  | ok _ => exact ⟨_, _, _, .answered h, .completed⟩
  | error e => exact ⟨_, _, _, .failed h, .single (.alone d e)⟩

/-- the steps of one action and then those of another -/
theorem Takes.bind {x y : Action Unit} {steps more : List Step} (hx : Takes x steps)
    (hy : Takes y more) : Takes (x >>= fun _ => y) (steps ++ more) := by
  intro σ store s
  obtain ⟨first, result, s', hx, hgoes⟩ := hx σ store s
  cases hgoes with
  | broken hsplit hlast =>
    exact ⟨_, _, s', .bindError hx, .broken (by rw [hsplit, List.append_assoc]; rfl) hlast⟩
  | completed =>
    obtain ⟨rest, result, s'', hy, hgoes⟩ := hy σ store s'
    refine ⟨_, result, s'', .bindOk hx hy, ?_⟩
    cases hgoes with
    | completed =>
      rw [← List.map_append]
      exact .completed
    | broken hsplit hlast =>
      rw [← List.append_assoc, ← List.map_append]
      exact .broken (by rw [hsplit, List.append_assoc]) hlast

/-- actions one after the other -/
theorem takes_forM {α : Type} {l : List α} {f : α → Action Unit} {steps : α → List Step}
    (h : ∀ a ∈ l, Takes (f a) (steps a)) : Takes (l.forM f) (l.flatMap steps) := by
  induction l with
  | nil => exact takes_pure
  | cons a l ih =>
    obtain ⟨ha, hl⟩ := List.forall_mem_cons.1 h
    rw [List.flatMap_cons]
    exact ha.bind (ih hl)

theorem takes_defineAll (ds : List Definition) : Takes (defineAll ds) (ds.map .alone) := by
  rw [List.map_eq_flatMap]
  exact takes_forM fun d _ => takes_execute d

/-- definitions in a transaction are one step -/
theorem takes_transaction (ds : List Definition) :
    Takes (Action.transaction (defineAll ds)) [.together ds] := by
  intro σ store s
  obtain ⟨entries, result, s', hcourse, hgoes⟩ := takes_defineAll ds σ store s
  have hdone : ∀ ds : List Definition,
      (ds.map Step.alone).map Step.done = (ds.map Step.accepted).map .moment := fun ds => by
    rw [List.map_map, List.map_map]
    rfl
  cases hgoes with
  | completed =>
    rw [hdone] at hcourse
    exact ⟨_, _, s', .transaction hcourse, .completed⟩
  | broken hsplit hlast =>
    obtain ⟨before, rest, rfl, rfl, hrest⟩ := List.map_eq_append_iff.1 hsplit
    obtain ⟨d, after, rfl, rfl, rfl⟩ := List.map_eq_cons_iff.1 hrest
    cases hlast with
    | alone =>
      rw [hdone, ← List.map_singleton, ← List.map_append] at hcourse
      exact ⟨_, _, s', .transaction hcourse, .single (.together before d after _)⟩

/-! ### the steps of a schema -/

namespace Entity

/-- the relationships that an entity refers by -/
def referring (e : Entity) : List Relationship := e.relationships.filter (·.kind = .manyToOne)

/-- the constraints of these relationships -/
def references (s : Schema) (e : Entity) : List Definition :=
  e.referring.filterMap fun r => (s.entity? r.target).map (.foreignKey e r)

end Entity

namespace Schema

/-- what is defined outside of transactions -/
def plainDefinitions (s : Schema) : List Definition :=
  s.namespaces.map .namespaceNamed ++ s.entities.map .table ++
    s.entities.flatMap fun e => e.references s ++ e.searchIndexes

/-- the definitions on their own, and then a transaction for every search vector -/
def steps (s : Schema) : List Step :=
  s.plainDefinitions.map .alone ++
    s.entities.flatMap fun e => e.searchVectors.map fun v => .together (e.searchTrigger v)

/-- everything that is defined, in its order -/
def definitions (s : Schema) : List Definition := s.steps.flatMap Step.definitions

theorem definitions_eq (s : Schema) :
    s.definitions = (s.namespaces.map .namespaceNamed ++ s.entities.map .table) ++
      ((s.entities.flatMap fun e => e.references s ++ e.searchIndexes) ++
        s.entities.flatMap fun e => e.searchVectors.flatMap e.searchTrigger) := by
  unfold definitions steps plainDefinitions
  rw [List.flatMap_append, List.flatMap_map, List.flatMap_assoc]
  simp only [Step.definitions, List.flatMap_map, List.flatMap_singleton', List.append_assoc]

end Schema

section

variable {s : Schema} {e : Entity}

/-- every relationship of an accepted entity has its constraint -/
theorem foreignKeys_eq (hs : s.WellFormed) (he : e ∈ s.entities) :
    e.foreignKeys s = .ok (e.references s) := by
  have htarget : ∀ r ∈ e.referring, ∃ t, s.entity? r.target = some t := fun r hr => by
    obtain ⟨t, _, hfound⟩ := Schema.exists_target hs he (List.mem_of_mem_filter hr)
    exact ⟨t, hfound⟩
  change e.referring.mapM (e.foreignKey s) = .ok (e.references s)
  unfold Entity.references
  generalize e.referring = rs at htarget
  induction rs with
  | nil => rfl
  | cons r rs ih =>
    obtain ⟨⟨t, ht⟩, hrest⟩ := List.forall_mem_cons.1 htarget
    rw [List.mapM_cons, Entity.foreignKey_of_found ht, ih hrest, List.filterMap_cons, ht]
    rfl

theorem takes_defineKeys (hs : s.WellFormed) (he : e ∈ s.entities) :
    Takes (s.defineKeys e) ((e.references s ++ e.searchIndexes).map .alone) := by
  unfold Schema.defineKeys
  rw [foreignKeys_eq hs he]
  exact takes_defineAll _

/-- the vectors of an accepted entity have different names -/
theorem nodup_vectorNames {d : Document} (hd : d.resolve = .ok s) (he : e ∈ s.entities) :
    (e.searchVectors.map (·.name)).Nodup := by
  have hcolumns := ((Document.wellFormed_of_resolve hd).entity e he).columns_nodup
  obtain ⟨_, rfl⟩ := Document.resolve_eq_ok hd
  obtain ⟨declaration, _, rfl⟩ := List.mem_map.1 he
  refine hcolumns.sublist ?_
  have hsame : (declaration.toEntity d.schemaName).searchVectors.map (·.name) =
      (declaration.searchVectors.map VectorDeclaration.toColumn).map (·.name) := by
    simp [EntityDeclaration.toEntity, VectorDeclaration.toVector, VectorDeclaration.toColumn]
  rw [hsame]
  exact (List.sublist_append_right _ _).map _

theorem takes_syncTrigger (hnodup : (e.searchVectors.map (·.name)).Nodup) {v : SearchVector}
    (hv : v ∈ e.searchVectors) :
    Takes (e.syncTrigger v.name) [.together (e.searchTrigger v)] := by
  have hfound : e.resolveVector (some v.name) = .ok v := by
    have hname : e.searchVector? v.name = some v := find?_of_mem _ hnodup hv
    unfold Entity.resolveVector
    dsimp only
    rw [hname]
  unfold Entity.syncTrigger
  rw [hfound]
  exact takes_transaction _

/-- the migration of an accepted schema takes the steps of the schema -/
theorem takes_migrate {d : Document} (hd : d.resolve = .ok s) : Takes s.migrate s.steps := by
  have hs := Document.wellFormed_of_resolve hd
  have hnamespaces := takes_defineAll (s.namespaces.map .namespaceNamed)
  have htables := takes_defineAll (s.entities.map .table)
  have hkeys : Takes (s.entities.forM s.defineKeys) _ :=
    takes_forM fun e he => takes_defineKeys hs he
  have hvectors : Takes (s.entities.forM fun e => e.searchVectors.forM fun v =>
      e.syncTrigger v.name) _ :=
    takes_forM fun e he => takes_forM fun v hv => takes_syncTrigger (nodup_vectorNames hd he) hv
  have hall := hnamespaces.bind (htables.bind (hkeys.bind hvectors))
  unfold Schema.steps Schema.plainDefinitions
  simp only [List.map_append, List.map_flatMap, List.append_assoc,
    List.map_eq_flatMap (l := Entity.searchVectors _)] at hall ⊢
  exact hall

end

/-! ### what has been defined -/

/-- the definition that an event asks for -/
def Event.definition? : Event → Option Definition
  | .executed (.define d) => some d
  | _ => none

/-- the definitions of a log -/
def definitionsOf (log : List Event) : List Definition := log.filterMap Event.definition?

theorem definitionsOf_append (log log' : List Event) :
    definitionsOf (log ++ log') = definitionsOf log ++ definitionsOf log' :=
  List.filterMap_append

theorem definitionsOf_asked (ds : List Definition) (failure : Option DatabaseError) :
    definitionsOf ((ds.map fun d => Moment.asked (.define d) failure).flatMap Moment.events) =
      ds := by
  induction ds with
  | nil => rfl
  | cons d ds ih =>
    rw [List.map_cons, List.flatMap_cons, definitionsOf_append, ih]
    rfl

/-- a transaction defines what is asked for in it -/
theorem definitionsOf_segment (ms : List Moment) (committed : Bool) :
    definitionsOf (Entry.segment ms committed).events =
      definitionsOf (ms.flatMap Moment.events) := by
  have hmarks : ∀ m : Mark, definitionsOf [.marked m] = [] := fun m => rfl
  have hevents : (Entry.segment ms committed).events = [.marked .begin] ++
      ms.flatMap Moment.events ++ [.marked (if committed then .commit else .rollback)] := rfl
  rw [hevents, definitionsOf_append, definitionsOf_append, hmarks, hmarks, List.nil_append,
    List.append_nil]

theorem Step.definitionsOf_done (step : Step) :
    definitionsOf step.done.events = step.definitions := by
  cases step with
  | alone d => rfl
  | together ds => exact (definitionsOf_segment _ true).trans (definitionsOf_asked ds none)

theorem Step.Broken.definitions_prefix {step : Step} {e : DatabaseError} {entry : Entry}
    (h : step.Broken e entry) : definitionsOf entry.events <+: step.definitions := by
  cases h with
  | alone d => exact List.prefix_rfl
  | together before d after =>
    have hlast : definitionsOf ([Moment.asked (.define d) (some e)].flatMap Moment.events) = [d] :=
      rfl
    rw [definitionsOf_segment, List.flatMap_append, definitionsOf_append, hlast]
    refine ⟨after, ?_⟩
    rw [List.append_assoc, List.singleton_append]
    exact congrArg (· ++ d :: after) (definitionsOf_asked before none)

/-- steps in which nothing is refused define everything -/
theorem definitionsOf_steps (steps : List Step) :
    definitionsOf ((steps.map Step.done).flatMap Entry.events) =
      steps.flatMap Step.definitions := by
  induction steps with
  | nil => rfl
  | cons step steps ih =>
    rw [List.map_cons, List.flatMap_cons, definitionsOf_append, ih, step.definitionsOf_done,
      List.flatMap_cons]

namespace Goes

variable {steps : List Step} {entries : List Entry} {result : Except Error Unit}

/-- what is defined are the first definitions of the steps -/
theorem definitions_prefix (h : Goes steps entries result) :
    definitionsOf (entries.flatMap Entry.events) <+: steps.flatMap Step.definitions := by
  cases h with
  | completed => exact definitionsOf_steps steps ▸ List.prefix_rfl
  | @broken before after step entry e hsplit hlast =>
    have hentry := hlast.definitions_prefix.trans
      (List.prefix_append step.definitions (after.flatMap Step.definitions))
    rw [hsplit, List.flatMap_append, definitionsOf_append, definitionsOf_steps,
      List.flatMap_append, List.flatMap_cons, List.flatMap_cons, List.flatMap_nil,
      List.append_nil]
    exact (List.prefix_append_right_inj _).2 hentry

/-- and all of them, if nothing is refused -/
theorem definitions_eq (h : Goes steps entries result) (hok : result = .ok ()) :
    definitionsOf (entries.flatMap Entry.events) = steps.flatMap Step.definitions := by
  cases h with
  | completed => exact definitionsOf_steps steps
  | broken _ _ => cases hok

end Goes
end EntityAccess
