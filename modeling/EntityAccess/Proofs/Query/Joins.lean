import EntityAccess.Proofs.Outcome
import EntityAccess.Proofs.Query.Walks
import EntityAccess.Sql.Read

/-!
# the joins of several paths

Whatever paths are joined, and whatever is merged, a join comes with all joins of a walk that it is
on: the table that it starts from is joined before it, and no other join has its alias.

* `Path.splitBy_text`, `Path.text_injective` : paths and their texts;
* `Joins.Walked` : this promise;
* `mem_of_resolveJoins` : the joins of a read;
* `mem_merge`, `walked_merge`, `walked_of_resolveJoins` : joins of paths keep it, alone and merged;
* `Walked.eq_of_tableAlias` : an alias belongs to one join;
* `Walked.parent` : what a join starts from;
* `Sql.InScope`, `Walked.inScope` : the same for the text of the joined tables.
-/

namespace EntityAccess

open Outcome

variable {schema : Schema} {root e last : Entity} {rs : List Relationship}

/-! ### paths as texts -/

/-- a path is read back from its text -/
theorem Path.splitBy_text {p : Path} (hne : p ≠ []) (hp : ∀ name ∈ p, isIdentifier name = true) :
    Text.splitBy relationSeparator p.text = p :=
  Text.splitBy_joinWith relationSeparator_toList hne fun s hs => apart_of_isIdentifier (hp s hs)

/-- the text of a path is that of no other path -/
theorem Path.text_injective {p q : Path} (hp : ∀ name ∈ p, isIdentifier name = true)
    (hq : ∀ name ∈ q, isIdentifier name = true) (hpn : p ≠ []) (hqn : q ≠ [])
    (h : p.text = q.text) : p = q := by
  rw [← Path.splitBy_text hpn hp, h, Path.splitBy_text hqn hq]

/-! ### the joins of a walk -/

/-- whoever follows the names of a path goes along a walk -/
theorem exists_walk_of_walk {parent : String} {p path : Path} {js : List (String × Join)}
    (hparent : parent = p.rowAlias) (h : walk schema e parent p path = .ok js) :
    ∃ rs last, Walk schema e rs last ∧ pathOf rs = path ∧ js = joinsFrom p rs := by
  induction path generalizing e parent p js with
  | nil =>
    obtain rfl : [] = js := Except.ok.inj h
    exact ⟨[], e, .here e, rfl, rfl⟩
  | cons name rest ih =>
    unfold walk at h
    dsimp only at h
    split at h
    · simp at h
    · next r hr =>
      split at h
      · simp at h
      · next target ht =>
        obtain ⟨js', hrest, rfl⟩ := map_eq_ok.1 h
        have halias : Path.tableAlias (p ++ [name]) = Path.rowAlias (p ++ [name]) := by
          simp [Path.rowAlias]
        obtain ⟨rs, last, hw, rfl, rfl⟩ := ih halias hrest
        have hname : r.name = name := by simpa using List.find?_some hr
        have htarget : target.name = r.target := by simpa using List.find?_some ht
        refine ⟨r :: rs, last, .step (List.mem_of_find?_eq_some hr)
          (List.mem_of_find?_eq_some ht) htarget hw, by rw [← hname]; rfl, ?_⟩
        rw [joinsFrom_cons, hname]
        simp [joinAt, hname, htarget, hparent]

theorem joinAt_key (rs : List Relationship) (r : Relationship) :
    (joinAt (pathOf rs) r).1 = Path.text (pathOf (rs ++ [r])) := by
  simp [joinAt, pathOf]

theorem joinAt_tableAlias (rs : List Relationship) (r : Relationship) :
    (joinAt (pathOf rs) r).2.tableAlias = Path.tableAlias (pathOf (rs ++ [r])) := by
  simp [joinAt, pathOf]

theorem pathOf_concat_ne_nil (rs : List Relationship) (r : Relationship) :
    pathOf (rs ++ [r]) ≠ [] := by
  simp [pathOf]

/-- a join of a walk is that of a relationship at the end of a part of the walk -/
theorem Walk.exists_part (h : Walk schema e rs last) (done : List Relationship)
    {entry : String × Join} (hentry : entry ∈ joinsFrom (pathOf done) rs) :
    ∃ qs r next, Walk schema e (qs ++ [r]) next ∧ next.name = r.target ∧
      next ∈ schema.entities ∧ entry = joinAt (pathOf (done ++ qs)) r := by
  induction h generalizing done with
  | here e => simp [joinsFrom] at hentry
  | @step e next last r rs hr hmem htarget _ ih =>
    have hdone : pathOf done ++ [r.name] = pathOf (done ++ [r]) := by simp [pathOf]
    rw [joinsFrom_cons, List.mem_cons, hdone] at hentry
    rcases hentry with rfl | hentry
    · exact ⟨[], r, next, .step hr hmem htarget (.here next), htarget, hmem, by simp⟩
    · obtain ⟨qs, q, after, hw, hname, hafter, rfl⟩ := ih (done ++ [r]) hentry
      exact ⟨r :: qs, q, after, .step hr hmem htarget hw, hname, hafter, by simp⟩

/-- the joined table is that of an entity -/
theorem Walk.entity?_isSome (h : Walk schema e rs last) {entry : String × Join}
    (hentry : entry ∈ joinsFrom [] rs) : ∃ e, schema.entity? entry.2.entity = some e := by
  obtain ⟨_, r, next, _, hname, hnext, rfl⟩ := h.exists_part [] hentry
  refine Option.isSome_iff_exists.1 (List.find?_isSome.2 ⟨next, hnext, ?_⟩)
  exact decide_eq_true hname

/-- a join starts from the row that the walk starts from, or from a join before it -/
theorem parent_of_mem_joinsFrom {p : Path} {entry : String × Join}
    (h : entry ∈ joinsFrom p rs) :
    entry.2.parentAlias = p.rowAlias ∨
      ∃ parent ∈ joinsFrom p rs, parent.1 < entry.1 ∧
        parent.2.tableAlias = entry.2.parentAlias := by
  induction rs generalizing p with
  | nil => simp [joinsFrom] at h
  | cons r rs ih =>
    rw [joinsFrom_cons] at h ⊢
    rcases List.mem_cons.1 h with rfl | h
    · exact .inl rfl
    · rcases ih h with hfirst | ⟨parent, hmem, hlt, halias⟩
      · refine .inr ⟨joinAt p r, List.mem_cons_self, ?_, ?_⟩
        · exact text_lt_of_mem_joinsFrom (List.append_ne_nil_of_right_ne_nil p (by simp)) h
        · rw [hfirst]
          simp [joinAt, Path.rowAlias]
      · exact .inr ⟨parent, List.mem_cons_of_mem _ hmem, hlt, halias⟩

/-- whatever the schema, a join of paths leads to an entity that there is -/
theorem entity?_isSome_of_resolveJoins {paths : List Path} {js : Joins}
    (h : resolveJoins schema root paths = .ok js) {entry : String × Join}
    (hentry : entry ∈ js.entries) : ∃ e, schema.entity? entry.2.entity = some e := by
  obtain ⟨_, l, rfl, hl⟩ := resolveJoins_eq_ok h
  have hentry := (Dict.of_mem_foldl_insertNew hentry).resolve_left List.not_mem_nil
  obtain ⟨p, _, part, hwalk, hin⟩ := (hl entry).1 hentry
  obtain ⟨rs, last, hw, _, rfl⟩ := exists_walk_of_walk (p := []) rfl hwalk
  exact hw.entity?_isSome hin

/-! ### joins that come with their walks -/

/-- every join is on a walk from the root all of whose joins are there -/
def Joins.Walked (schema : Schema) (root : Entity) (js : Joins) : Prop :=
  ∀ entry ∈ js.entries, ∃ rs last, Walk schema root rs last ∧ entry ∈ joinsFrom [] rs ∧
    ∀ other ∈ joinsFrom [] rs, other ∈ js.entries

section

variable (hs : schema.WellFormed) (hroot : root ∈ schema.entities)

include hs hroot

/-- the joins at the end of one path are one join -/
theorem joinAt_eq_of_pathOf {qs : List Relationship} {r q : Relationship} {last' : Entity}
    (h : Walk schema root (rs ++ [r]) last) (h' : Walk schema root (qs ++ [q]) last')
    (hpath : pathOf (rs ++ [r]) = pathOf (qs ++ [q])) :
    joinAt (pathOf rs) r = joinAt (pathOf qs) q := by
  have heq := (h'.eq_of_pathOf hs hroot h hpath).1
  obtain ⟨rfl, hlast⟩ := List.append_inj' heq rfl
  rw [List.singleton_inj.1 hlast]

/-- joins of walks under one text are one join -/
theorem entry_eq_of_key {qs : List Relationship} {last' : Entity} (h : Walk schema root rs last)
    (h' : Walk schema root qs last') {entry other : String × Join}
    (hentry : entry ∈ joinsFrom [] rs) (hother : other ∈ joinsFrom [] qs)
    (hkey : entry.1 = other.1) : entry = other := by
  obtain ⟨as, a, _, hwa, _, _, rfl⟩ := h.exists_part [] hentry
  obtain ⟨bs, b, _, hwb, _, _, rfl⟩ := h'.exists_part [] hother
  rw [List.nil_append, List.nil_append, joinAt_key, joinAt_key] at hkey
  refine joinAt_eq_of_pathOf hs hroot hwa hwb ?_
  exact Path.text_injective (hwa.names_identifiers hs hroot) (hwb.names_identifiers hs hroot)
    (pathOf_concat_ne_nil as a) (pathOf_concat_ne_nil bs b) hkey

/-- entries that are on walks agree -/
theorem agree_of_walks {l : List (String × Join)}
    (h : ∀ entry ∈ l, ∃ rs last, Walk schema root rs last ∧ entry ∈ joinsFrom [] rs) :
    Dict.Agree l := by
  intro a ha b hb hkey
  obtain ⟨rs, _, hw, hars⟩ := h a ha
  obtain ⟨qs, _, hw', hbqs⟩ := h b hb
  exact entry_eq_of_key hs hroot hw hw' hars hbqs hkey

/-- the joins of both are merged, whatever they have in common -/
theorem mem_merge {js more : Joins} (hjs : js.Walked schema root) (hmore : more.Walked schema root)
    (entry : String × Join) :
    entry ∈ (js.merge more).entries ↔ entry ∈ js.entries ∨ entry ∈ more.entries := by
  have hagree : Dict.Agree (js.entries ++ more.entries) := by
    refine agree_of_walks hs hroot fun entry hentry => ?_
    rcases List.mem_append.1 hentry with h | h
    · obtain ⟨rs, last, hw, hrs, _⟩ := hjs entry h
      exact ⟨rs, last, hw, hrs⟩
    · obtain ⟨rs, last, hw, hrs, _⟩ := hmore entry h
      exact ⟨rs, last, hw, hrs⟩
  exact Dict.mem_foldl_insertNew hagree entry

theorem walked_merge {js more : Joins} (hjs : js.Walked schema root)
    (hmore : more.Walked schema root) : (js.merge more).Walked schema root := by
  have hmem := mem_merge hs hroot hjs hmore
  intro entry hentry
  rcases (hmem entry).1 hentry with h | h
  · obtain ⟨rs, last, hw, hrs, hall⟩ := hjs entry h
    exact ⟨rs, last, hw, hrs, fun other ho => (hmem other).2 (.inl (hall other ho))⟩
  · obtain ⟨rs, last, hw, hrs, hall⟩ := hmore entry h
    exact ⟨rs, last, hw, hrs, fun other ho => (hmem other).2 (.inr (hall other ho))⟩

/-- the joins of a read are those of its paths -/
theorem mem_of_resolveJoins {paths : List Path} {js : Joins}
    (h : resolveJoins schema root paths = .ok js) (entry : String × Join) :
    entry ∈ js.entries ↔
      ∃ p ∈ paths, ∃ part, walk schema root rootAlias [] p = .ok part ∧ entry ∈ part := by
  obtain ⟨_, l, rfl, hpart⟩ := resolveJoins_eq_ok h
  have hagree : Dict.Agree l := by
    refine agree_of_walks hs hroot fun entry hentry => ?_
    obtain ⟨p, _, part, hp, hin⟩ := (hpart entry).1 hentry
    obtain ⟨rs, last, hw, _, rfl⟩ := exists_walk_of_walk (p := []) rfl hp
    exact ⟨rs, last, hw, hin⟩
  rw [Dict.mem_foldl_insertNew (d := .empty) hagree, hpart]
  exact or_iff_right List.not_mem_nil

/-- they come with their walks -/
theorem walked_of_resolveJoins {paths : List Path} {js : Joins}
    (h : resolveJoins schema root paths = .ok js) : js.Walked schema root := by
  have hmem := mem_of_resolveJoins hs hroot h
  intro entry hentry
  obtain ⟨p, hp, part, hwalked, hin⟩ := (hmem entry).1 hentry
  obtain ⟨rs, last, hw, _, rfl⟩ := exists_walk_of_walk (p := []) rfl hwalked
  exact ⟨rs, last, hw, hin, fun other hother => (hmem other).2 ⟨p, hp, _, hwalked, hother⟩⟩

namespace Joins.Walked

variable {js : Joins}

/-- an alias belongs to one join -/
theorem eq_of_tableAlias (h : js.Walked schema root) {entry other : String × Join}
    (hentry : entry ∈ js.entries) (hother : other ∈ js.entries)
    (halias : entry.2.tableAlias = other.2.tableAlias) : entry = other := by
  obtain ⟨rs, _, hw, hrs, _⟩ := h entry hentry
  obtain ⟨qs, _, hw', hqs, _⟩ := h other hother
  obtain ⟨as, a, _, hwa, _, _, rfl⟩ := hw.exists_part [] hrs
  obtain ⟨bs, b, _, hwb, _, _, rfl⟩ := hw'.exists_part [] hqs
  rw [List.nil_append, List.nil_append, joinAt_tableAlias, joinAt_tableAlias] at halias
  refine joinAt_eq_of_pathOf hs hroot hwa hwb ?_
  exact Path.tableAlias_injective (hwa.names_identifiers hs hroot)
    (hwb.names_identifiers hs hroot) (pathOf_concat_ne_nil as a) (pathOf_concat_ne_nil bs b) halias

omit hs hroot

/-- no join is under the alias of the root -/
theorem tableAlias_ne_root (h : js.Walked schema root) {entry : String × Join}
    (hentry : entry ∈ js.entries) : entry.2.tableAlias ≠ rootAlias := by
  obtain ⟨rs, _, hw, hrs, _⟩ := h entry hentry
  obtain ⟨as, a, _, _, _, _, rfl⟩ := hw.exists_part [] hrs
  exact Path.tableAlias_ne_root _

/-- the joined table is that of an entity -/
theorem entity?_isSome (h : js.Walked schema root) {entry : String × Join}
    (hentry : entry ∈ js.entries) : ∃ e, schema.entity? entry.2.entity = some e := by
  obtain ⟨rs, _, hw, hrs, _⟩ := h entry hentry
  exact hw.entity?_isSome hrs

/-- what a join starts from: the root, or a join before it -/
theorem parent (h : js.Walked schema root) {entry : String × Join} (hentry : entry ∈ js.entries) :
    entry.2.parentAlias = rootAlias ∨
      ∃ parent ∈ js.entries, parent.1 < entry.1 ∧
        parent.2.tableAlias = entry.2.parentAlias := by
  obtain ⟨rs, _, _, hrs, hall⟩ := h entry hentry
  rcases parent_of_mem_joinsFrom hrs with hfirst | ⟨parent, hmem, hlt, halias⟩
  · exact .inl hfirst
  · exact .inr ⟨parent, hall parent hmem, hlt, halias⟩

end Joins.Walked

end

/-! ### joined tables as text -/

namespace Sql

/-- one joined table as text: its table, its alias, and the columns of the two sides -/
def joinText (table tableAlias remote parent localColumn : String) : String :=
  Text.concat [" LEFT OUTER JOIN ", table, " AS ", quoted tableAlias, " ON ",
    qualified tableAlias remote, " = ", qualified parent localColumn]

/-- joined tables of a schema, each under an alias that is not yet in scope, joined to an alias
that is -/
inductive InScope (schema : Schema) : (scope texts : List String) → Prop where
  | nil (scope : List String) : InScope schema scope []
  | cons {scope texts : List String} {e : Entity} {tableAlias parent : String}
      (remote localColumn : String) (declared : e ∈ schema.entities) (new : tableAlias ∉ scope)
      (known : parent ∈ scope) (rest : InScope schema (scope ++ [tableAlias]) texts) :
      InScope schema scope
        (joinText (tableOf e) tableAlias remote parent localColumn :: texts)

end Sql

/-- joins in the order of their keys are in scope one after the other -/
theorem Joins.Walked.inScope (hs : schema.WellFormed) (hroot : root ∈ schema.entities) {js : Joins}
    (h : js.Walked schema root) :
    Sql.InScope schema [rootAlias] (js.values.map (Sql.joinClause schema)) := by
  -- by the joins that are left, after those that are done
  have hrest : ∀ done left : List (String × Join), js.entries = done ++ left →
      Sql.InScope schema (rootAlias :: done.map (·.2.tableAlias))
        ((left.map (·.2)).map (Sql.joinClause schema)) := by
    intro done left hsplit
    induction left generalizing done with
    | nil => exact .nil _
    | cons entry left ih =>
      have hentry : entry ∈ js.entries := by rw [hsplit]; simp
      have hsorted : SortedKeys (done ++ entry :: left) := hsplit ▸ js.sorted
      obtain ⟨e, he⟩ := h.entity?_isSome hentry
      have htext : Sql.joinClause schema entry.2 = Sql.joinText (Sql.tableOf e)
          entry.2.tableAlias entry.2.relationship.remoteColumn entry.2.parentAlias
          entry.2.relationship.localColumn := by
        simp [Sql.joinClause, Sql.joinText, he]
      have hnew : entry.2.tableAlias ∉ rootAlias :: done.map (·.2.tableAlias) := by
        rw [List.mem_cons, not_or]
        refine ⟨h.tableAlias_ne_root hentry, fun hin => ?_⟩
        obtain ⟨other, hother, halias⟩ := List.mem_map.1 hin
        have hlt : other.1 < entry.1 :=
          (List.pairwise_append.1 hsorted).2.2 other hother entry List.mem_cons_self
        have hsame := h.eq_of_tableAlias hs hroot (by rw [hsplit]; simp [hother]) hentry halias
        exact String.lt_irrefl entry.1 (hsame ▸ hlt)
      have hknown : entry.2.parentAlias ∈ rootAlias :: done.map (·.2.tableAlias) := by
        rcases h.parent hentry with hfirst | ⟨parent, hparent, hlt, halias⟩
        · rw [hfirst]
          exact List.mem_cons_self
        · refine List.mem_cons_of_mem _ (List.mem_map.2 ⟨parent, ?_, halias⟩)
          -- what is not done yet comes after the join
          rw [hsplit, List.mem_append, List.mem_cons] at hparent
          rcases hparent with hdone | rfl | hleft
          · exact hdone
          · exact absurd hlt (String.lt_irrefl _)
          · have hlater := (List.pairwise_append.1 hsorted).2.1
            have hafter := (List.pairwise_cons.1 hlater).1 parent hleft
            exact absurd hlt (String.lt_asymm hafter)
      have hscope := ih (done ++ [entry]) (by rw [hsplit]; simp)
      rw [List.map_append, List.map_singleton, ← List.cons_append] at hscope
      rw [List.map_cons, List.map_cons, htext]
      exact .cons _ _ (List.mem_of_find?_eq_some he) hnew hknown hscope
  exact hrest [] js.entries rfl

end EntityAccess
