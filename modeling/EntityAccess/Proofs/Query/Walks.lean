import EntityAccess.Proofs.Filter.Keys
import EntityAccess.Proofs.Query.Branches
import EntityAccess.Proofs.Schema.Accepted

/-!
# walks along relationships

A walk follows declared relationships from one entity to the next, in cycles too.  The joins of its
path are those of the paths it begins with, each under an alias of its own.

* `walk_of_walk` : following the names of a walk gives its joins;
* `eq_of_pathOf` : the names of a walk tell which walk it is;
* `sortedKeys_joinsFrom` : these joins are in the order of their paths;
* `resolveJoins_of_walk` : the joins of one path;
* `tableAlias_injective` : different paths have different aliases.
-/

namespace EntityAccess

/-- declared relationships from one entity to another, one after the other -/
inductive Walk (schema : Schema) : Entity → List Relationship → Entity → Prop where
  | here (e : Entity) : Walk schema e [] e
  | step {e next last : Entity} {r : Relationship} {rs : List Relationship}
      (declared : r ∈ e.relationships) (mem : next ∈ schema.entities)
      (target : next.name = r.target) (rest : Walk schema next rs last) :
      Walk schema e (r :: rs) last

/-- the names of relationships -/
def pathOf (rs : List Relationship) : Path := rs.map (·.name)

/-- the alias of the rows at the end of a path -/
def Path.rowAlias (p : Path) : String := if p = [] then rootAlias else p.tableAlias

/-- the join of a relationship at the end of a path, under the text of the longer path -/
def joinAt (p : Path) (r : Relationship) : String × Join :=
  (Path.text (p ++ [r.name]),
    { tableAlias := Path.tableAlias (p ++ [r.name])
      entity := r.target
      relationship := r
      parentAlias := p.rowAlias })

/-- the joins of relationships that go on from a path, one for each prefix -/
def joinsFrom (p : Path) (rs : List Relationship) : List (String × Join) :=
  rs.mapIdx fun i r => joinAt (p ++ pathOf (rs.take i)) r

theorem joinsFrom_cons (p : Path) (r : Relationship) (rs : List Relationship) :
    joinsFrom p (r :: rs) = joinAt p r :: joinsFrom (p ++ [r.name]) rs := by
  unfold joinsFrom
  rw [List.mapIdx_cons]
  simp [pathOf]

theorem length_joinsFrom (p : Path) (rs : List Relationship) :
    (joinsFrom p rs).length = rs.length := by
  simp [joinsFrom]

namespace Walk

variable {schema : Schema} {e last : Entity} {rs : List Relationship}

theorem mem (h : Walk schema e rs last) (he : e ∈ schema.entities) : last ∈ schema.entities := by
  induction h with
  | here e => exact he
  | step _ hmem _ _ ih => exact ih hmem

theorem names_identifiers (h : Walk schema e rs last) (hs : schema.WellFormed)
    (he : e ∈ schema.entities) : ∀ name ∈ pathOf rs, isIdentifier name = true := by
  induction h with
  | here e => simp [pathOf]
  | step hr hmem _ _ ih =>
    refine List.forall_mem_cons.2 ⟨?_, ih hmem⟩
    exact (hs.entity _ he).relationships_identifier _ hr

/-- following the names of a walk that goes on from the path `p` -/
theorem walk_of_walk (h : Walk schema e rs last) (hs : schema.WellFormed)
    (he : e ∈ schema.entities) (p : Path) :
    walk schema e p.rowAlias p (pathOf rs) = .ok (joinsFrom p rs) := by
  induction h generalizing p with
  | here e => rfl
  | @step e next last r rs hr hmem htarget _ ih =>
    have hname : e.relationship? r.name = some r :=
      Entity.relationship?_of_mem (hs.entity e he) hr
    have hnext : schema.entity? r.target = some next := htarget ▸ Schema.entity?_of_mem hs hmem
    have hrest := ih hmem (p ++ [r.name])
    have halias : Path.rowAlias (p ++ [r.name]) = Path.tableAlias (p ++ [r.name]) := by
      simp [Path.rowAlias]
    rw [halias] at hrest
    change walk schema e p.rowAlias p (r.name :: pathOf rs) = _
    rw [walk_cons_eq_ok hname hnext hrest, joinsFrom_cons, joinOf, htarget]
    rfl

/-- the last join of a walk is that of its whole path and leads to its last entity -/
theorem last_join (h : Walk schema e rs last) (hne : rs ≠ []) (p : Path) :
    ∃ j : Join, (Path.text (p ++ pathOf rs), j) ∈ joinsFrom p rs ∧
      j.tableAlias = Path.tableAlias (p ++ pathOf rs) ∧ j.entity = last.name := by
  induction h generalizing p with
  | here e => exact absurd rfl hne
  | @step e next last r rs hr hmem htarget hrest ih =>
    have hpath : p ++ pathOf (r :: rs) = p ++ [r.name] ++ pathOf rs := by simp [pathOf]
    rw [joinsFrom_cons, hpath]
    by_cases hnil : rs = []
    · subst hnil
      cases hrest
      refine ⟨(joinAt p r).2, ?_, ?_, htarget.symm⟩
      · simp [joinAt, pathOf, joinsFrom]
      · simp [joinAt, pathOf]
    · obtain ⟨j, hj, halias, hentity⟩ := ih hnil (p ++ [r.name])
      exact ⟨j, List.mem_cons_of_mem _ hj, halias, hentity⟩

/-- the names of a walk tell its relationships and where it ends -/
theorem eq_of_pathOf (h : Walk schema e rs last) (hs : schema.WellFormed)
    (he : e ∈ schema.entities) {qs : List Relationship} {last' : Entity}
    (h' : Walk schema e qs last') (hpath : pathOf qs = pathOf rs) : qs = rs ∧ last' = last := by
  induction h generalizing qs with
  | here e =>
    obtain rfl : qs = [] := by simpa [pathOf] using hpath
    cases h'
    exact ⟨rfl, rfl⟩
  | @step e next last r rs hr hmem htarget _ ih =>
    cases h' with
    | here => simp [pathOf] at hpath
    | @step _ next' _ q qs hq hmem' htarget' hrest' =>
      obtain ⟨hname, hnames⟩ : q.name = r.name ∧ pathOf qs = pathOf rs := by
        simpa [pathOf] using hpath
      have hqr : q = r := by
        have hwf := hs.entity e he
        have hfound := Entity.relationship?_of_mem hwf hq
        rw [hname, Entity.relationship?_of_mem hwf hr] at hfound
        exact (Option.some.inj hfound).symm
      subst hqr
      have hnext : next' = next := by
        have hfound := Schema.entity?_of_mem hs hmem'
        rw [htarget', ← htarget, Schema.entity?_of_mem hs hmem] at hfound
        exact (Option.some.inj hfound).symm
      subst hnext
      obtain ⟨rfl, rfl⟩ := ih hmem' hrest' hnames
      exact ⟨rfl, rfl⟩

end Walk

/-! ### the order of paths -/

theorem lt_append_of_ne_empty (s : String) {t : String} (h : t ≠ "") : s < s ++ t := by
  rw [String.lt_iff, String.toList_append]
  have hne : t.toList ≠ [] := fun hnil => h (String.toList_inj.1 (by simpa using hnil))
  induction s.toList with
  | nil =>
    cases ht : t.toList with
    | nil => exact absurd ht hne
    | cons c cs => exact List.nil_lt_cons c cs
  | cons c cs ih => exact List.cons_lt_cons_self.2 ih

/-- a path comes after those it begins with -/
theorem Path.text_lt_append {p q : Path} (hp : p ≠ []) (hq : q ≠ []) :
    p.text < Path.text (p ++ q) := by
  unfold text Text.joinWith
  rw [String.intercalate_append_of_ne_nil hp hq, String.append_assoc]
  refine lt_append_of_ne_empty _ fun hnil => ?_
  have hlen := congrArg String.length hnil
  simp [relationSeparator] at hlen

theorem text_lt_of_mem_joinsFrom {p : Path} (hp : p ≠ []) {rs : List Relationship}
    {entry : String × Join} (h : entry ∈ joinsFrom p rs) : p.text < entry.1 := by
  induction rs generalizing p with
  | nil => simp [joinsFrom] at h
  | cons r rs ih =>
    rw [joinsFrom_cons, List.mem_cons] at h
    have hlt : p.text < Path.text (p ++ [r.name]) := p.text_lt_append hp (List.cons_ne_nil _ _)
    rcases h with rfl | h
    · exact hlt
    · exact String.lt_trans hlt (ih (by simp) h)

theorem sortedKeys_joinsFrom (p : Path) (rs : List Relationship) :
    SortedKeys (joinsFrom p rs) := by
  induction rs generalizing p with
  | nil => exact .nil
  | cons r rs ih =>
    rw [joinsFrom_cons]
    exact List.pairwise_cons.2 ⟨fun entry h => text_lt_of_mem_joinsFrom (by simp) h, ih _⟩

/-- the joins of the path of one walk -/
theorem resolveJoins_of_walk {schema : Schema} {root last : Entity} {rs : List Relationship}
    (h : Walk schema root rs last) (hs : schema.WellFormed) (hroot : root ∈ schema.entities) :
    ∃ joins, resolveJoins schema root [pathOf rs] = .ok joins ∧
      joins.entries = joinsFrom [] rs := by
  have hwalk := h.walk_of_walk hs hroot []
  change walk schema root rootAlias [] (pathOf rs) = _ at hwalk
  obtain ⟨js, hjs⟩ : ∃ js, resolveJoins schema root [pathOf rs] = .ok js :=
    resolves_iff.2 (List.forall_mem_singleton.2 ⟨_, hwalk⟩)
  refine ⟨js, hjs, ?_⟩
  obtain ⟨_, l, rfl, hl⟩ := resolveJoins_eq_ok hjs
  have hmem : ∀ entry, entry ∈ l ↔ entry ∈ joinsFrom [] rs := fun entry => by
    rw [hl]
    simp [hwalk]
  have hsorted := sortedKeys_joinsFrom [] rs
  have hagree : Dict.Agree l := (Dict.agree_of_sorted hsorted).mono fun a ha => (hmem a).1 ha
  have hsame : l.foldl (fun js entry => js.insertNew entry.1 entry.2) .empty =
      Dict.ofList (joinsFrom [] rs) := Dict.ext_mem fun entry => by
    rw [Dict.mem_foldl_insertNew (d := .empty) hagree, Dict.entries_ofList hsorted, ← hmem]
    exact or_iff_right List.not_mem_nil
  rw [hsame, Dict.entries_ofList hsorted]

theorem Joins.merge_empty (js : Joins) : Joins.merge .empty js = js :=
  Dict.ext (Dict.entries_foldl_insertNew js.sorted)

/-! ### aliases -/

/-- the alias of a path is that of no other path -/
theorem Path.tableAlias_injective {p q : Path} (hp : ∀ name ∈ p, isIdentifier name = true)
    (hq : ∀ name ∈ q, isIdentifier name = true) (hpn : p ≠ []) (hqn : q ≠ [])
    (h : p.tableAlias = q.tableAlias) : p = q := by
  unfold tableAlias at h
  simp only [Text.concat_cons, Text.concat_nil, String.append_empty] at h
  have hlist := congrArg String.toList h
  rw [String.toList_append, String.toList_append] at hlist
  have hjoin : Text.joinWith "__" p = Text.joinWith "__" q :=
    String.toList_inj.1 (List.append_cancel_left hlist)
  rw [← Text.splitBy_joinWith operatorSeparator_toList hpn
      fun s hs => apart_of_isIdentifier (hp s hs),
    ← Text.splitBy_joinWith operatorSeparator_toList hqn
      fun s hs => apart_of_isIdentifier (hq s hs)]
  exact congrArg _ hjoin

/-- a joined table is not under the alias of the root -/
theorem Path.tableAlias_ne_root (p : Path) : p.tableAlias ≠ rootAlias := by
  intro h
  have hhead := congrArg (fun s : String => s.toList.head?) h
  unfold tableAlias rootAlias at hhead
  rw [Text.toList_concat] at hhead
  simp at hhead

/-- the alias of the rows at the end of a path is that of no other path -/
theorem Path.rowAlias_injective {p q : Path} (hp : ∀ name ∈ p, isIdentifier name = true)
    (hq : ∀ name ∈ q, isIdentifier name = true) (h : p.rowAlias = q.rowAlias) : p = q := by
  unfold rowAlias at h
  split at h <;> split at h
  · next hpn hqn => rw [hpn, hqn]
  · exact absurd h.symm q.tableAlias_ne_root
  · exact absurd h p.tableAlias_ne_root
  · next hpn hqn => exact p.tableAlias_injective hp hq hpn hqn h

end EntityAccess
