import EntityAccess.Proofs.Query.Conditions

/-!
# joins and the paths they are for

Whatever paths are joined, in whatever order and however often, the joins are those of the paths
that they begin with: one for each, under its text, and before the joins of longer paths.

* `mem_joinsFrom_iff` : the joins of a walk are those of its beginnings;
* `mem_entries_iff` : the joins of several paths are those of their beginnings;
* `resolveJoins_congr` : the same paths have the same joins;
* `Joins.paths`, `mem_paths_iff`, `pairwise_paths` : the paths of joins, the shorter ones first;
* `Joins.PrefixesOf` : what the joins of paths are;
* `joinsApart`, `resolveJoins_eq_joinsApart` : following paths together and one by one;
* `joins_of_prefixes` : which paths can be joined, and their joins.
-/

namespace EntityAccess

open Outcome

variable {schema : Schema} {root e last : Entity} {rs : List Relationship}

/-! ### beginnings of walks -/

/-- a walk along one list of relationships and then along another -/
theorem Walk.of_append {qs : List Relationship} (h : Walk schema e (qs ++ rs) last) :
    ∃ mid, Walk schema e qs mid ∧ Walk schema mid rs last := by
  induction qs generalizing e with
  | nil => exact ⟨e, .here e, h⟩
  | cons q qs ih =>
    cases h with
    | step hq hmem htarget hrest =>
      obtain ⟨mid, hw, hw'⟩ := ih hrest
      exact ⟨mid, .step hq hmem htarget hw, hw'⟩

theorem Walk.append {mid : Entity} {qs : List Relationship} (h : Walk schema e qs mid)
    (hrest : Walk schema mid rs last) : Walk schema e (qs ++ rs) last := by
  induction h with
  | here e => exact hrest
  | step hq hmem htarget _ ih => exact .step hq hmem htarget (ih hrest)

/-- the joins of a walk are those of its beginnings -/
theorem mem_joinsFrom_iff {p : Path} {entry : String × Join} :
    entry ∈ joinsFrom p rs ↔ ∃ qs r, qs ++ [r] <+: rs ∧ entry = joinAt (p ++ pathOf qs) r := by
  induction rs generalizing p with
  | nil => simp [joinsFrom]
  | cons first rs ih =>
    rw [joinsFrom_cons, List.mem_cons, ih]
    constructor
    · rintro (rfl | ⟨qs, r, hpre, rfl⟩)
      · exact ⟨[], first, by simp, by simp [pathOf]⟩
      · exact ⟨first :: qs, r, by simpa using hpre, by simp [pathOf]⟩
    · rintro ⟨qs, r, hpre, rfl⟩
      cases qs with
      | nil =>
        obtain rfl : r = first := by simpa using hpre
        exact .inl (by simp [pathOf])
      | cons q qs =>
        obtain ⟨rfl, hrest⟩ := List.cons_prefix_cons.1 hpre
        exact .inr ⟨qs, r, hrest, by simp [pathOf]⟩

/-- what a path begins with is the path of a beginning -/
theorem exists_prefix_of_pathOf {q : Path} (h : q <+: pathOf rs) :
    ∃ qs, qs <+: rs ∧ pathOf qs = q := by
  obtain ⟨rest, hrest⟩ := h
  obtain ⟨qs, ts, rfl, hqs, _⟩ := List.map_eq_append_iff.1 hrest.symm
  exact ⟨qs, List.prefix_append qs ts, hqs⟩

/-! ### paths that can be joined -/

/-- a path along declared relationships -/
def Path.Leads (schema : Schema) (root : Entity) (p : Path) : Prop :=
  ∃ rs last, Walk schema root rs last ∧ pathOf rs = p

section

variable (hs : schema.WellFormed) (hroot : root ∈ schema.entities)

include hs hroot

theorem leads_iff {p : Path} :
    p.Leads schema root ↔ ∃ part, walk schema root rootAlias [] p = .ok part := by
  constructor
  · rintro ⟨rs, last, hw, rfl⟩
    exact ⟨_, hw.walk_of_walk hs hroot []⟩
  · rintro ⟨part, hpart⟩
    obtain ⟨rs, last, hw, hpath, _⟩ := exists_walk_of_walk (p := []) rfl hpart
    exact ⟨rs, last, hw, hpath⟩

theorem resolves_iff_leads {paths : List Path} :
    (∃ js, resolveJoins schema root paths = .ok js) ↔ ∀ p ∈ paths, p.Leads schema root := by
  rw [resolves_iff]
  exact forall₂_congr fun p _ => (leads_iff hs hroot).symm

/-- the joins of several paths are those of their beginnings -/
theorem mem_entries_iff {paths : List Path} {js : Joins}
    (h : resolveJoins schema root paths = .ok js) {entry : String × Join} :
    entry ∈ js.entries ↔ ∃ qs r next, Walk schema root (qs ++ [r]) next ∧
      (∃ p ∈ paths, pathOf (qs ++ [r]) <+: p) ∧ entry = joinAt (pathOf qs) r := by
  rw [mem_of_resolveJoins hs hroot h]
  constructor
  · rintro ⟨p, hp, part, hpart, hentry⟩
    obtain ⟨rs, last, hw, rfl, rfl⟩ := exists_walk_of_walk (p := []) rfl hpart
    obtain ⟨qs, r, ⟨rest, rfl⟩, rfl⟩ := mem_joinsFrom_iff.1 hentry
    obtain ⟨next, hnext, _⟩ := hw.of_append
    refine ⟨qs, r, next, hnext, ⟨_, hp, ?_⟩, by rw [List.nil_append]⟩
    exact (List.prefix_append _ rest).map _
  · rintro ⟨qs, r, next, hnext, ⟨p, hp, hpre⟩, rfl⟩
    obtain ⟨part, hpart⟩ := resolves_iff.1 ⟨js, h⟩ p hp
    refine ⟨p, hp, part, hpart, ?_⟩
    obtain ⟨rs, last, hw, rfl, rfl⟩ := exists_walk_of_walk (p := []) rfl hpart
    -- the beginning of the path is the walk that it belongs to
    obtain ⟨front, ⟨rest, rfl⟩, hfront⟩ := exists_prefix_of_pathOf hpre
    obtain ⟨mid, hmid, _⟩ := hw.of_append
    obtain ⟨rfl, _⟩ := hnext.eq_of_pathOf hs hroot hmid hfront
    exact mem_joinsFrom_iff.2 ⟨qs, r, List.prefix_append _ rest, by rw [List.nil_append]⟩

/-- paths in another order, or named again, have the same joins -/
theorem resolveJoins_congr {paths paths' : List Path} (h : ∀ p, p ∈ paths' ↔ p ∈ paths)
    {js : Joins} (hjs : resolveJoins schema root paths = .ok js) :
    resolveJoins schema root paths' = .ok js := by
  obtain ⟨js', hjs'⟩ : ∃ js', resolveJoins schema root paths' = .ok js' :=
    resolves_iff.2 fun p hp => resolves_iff.1 ⟨js, hjs⟩ p ((h p).1 hp)
  have hsame : js' = js := Dict.ext_mem fun entry => by
    rw [mem_of_resolveJoins hs hroot hjs', mem_of_resolveJoins hs hroot hjs]
    exact exists_congr fun p => and_congr_left' (h p)
  rw [hjs', hsame]

end

/-! ### what the joins of paths are -/

/-- the paths that are joined, in the order of their joins -/
def Joins.paths (js : Joins) : List Path := js.keys.map (Text.splitBy relationSeparator)

/-- the join at the end of a path: it goes on from the entity that the path before its last name
leads to, along the relationship of that name, and from the alias of that path -/
structure Join.EndsPath (schema : Schema) (root : Entity) (js : Joins) (before : Path)
    (name : String) (j : Join) : Prop where
  relationship : ∃ rs last, Walk schema root rs last ∧ pathOf rs = before ∧
    last.relationship? name = some j.relationship
  entity : j.entity = j.relationship.target
  first : before = [] → j.parentAlias = rootAlias
  later : before ≠ [] → ∃ parent, js.at? before = some parent ∧ j.parentAlias = parent.tableAlias

/-- the joins of all paths that some paths begin with -/
structure Joins.PrefixesOf (schema : Schema) (root : Entity) (paths : List Path) (js : Joins) :
    Prop where
  mem_iff : ∀ q, q ∈ js.paths ↔ q ≠ [] ∧ ∃ p ∈ paths, q <+: p
  nodup : js.paths.Nodup
  /-- each has one join, under its text -/
  keys : js.keys = js.paths.map Path.text
  join : ∀ before name, before ++ [name] ∈ js.paths →
    ∃ j, js.at? (before ++ [name]) = some j ∧ j.EndsPath schema root js before name
  aliases : (rootAlias :: js.values.map (·.tableAlias)).Nodup
  /-- no path comes after one that begins with it -/
  order : js.paths.Pairwise fun earlier later => ¬ later <+: earlier

/-- the path of a join is read back from its key -/
theorem splitBy_joinAt (hs : schema.WellFormed) (hroot : root ∈ schema.entities)
    {qs : List Relationship} {r : Relationship} {next : Entity}
    (hw : Walk schema root (qs ++ [r]) next) :
    Text.splitBy relationSeparator (joinAt (pathOf qs) r).1 = pathOf (qs ++ [r]) := by
  rw [joinAt_key]
  exact Path.splitBy_text (pathOf_concat_ne_nil qs r) (hw.names_identifiers hs hroot)

section

variable (hs : schema.WellFormed) (hroot : root ∈ schema.entities) {paths : List Path} {js : Joins}
  (h : resolveJoins schema root paths = .ok js)

include hs hroot h

theorem keys_eq_map_paths : js.keys = js.paths.map Path.text := by
  unfold Joins.paths
  rw [List.map_map]
  refine ((List.map_congr_left fun key hkey => ?_).trans (List.map_id _)).symm
  obtain ⟨entry, hentry, rfl⟩ := List.mem_map.1 hkey
  obtain ⟨qs, r, next, hw, _, rfl⟩ := (mem_entries_iff hs hroot h).1 hentry
  rw [Function.comp_apply, splitBy_joinAt hs hroot hw, joinAt_key, id]

/-- the paths that are joined are those of walks -/
theorem mem_paths_iff_walk {q : Path} :
    q ∈ js.paths ↔ ∃ qs r next, Walk schema root (qs ++ [r]) next ∧
      (∃ p ∈ paths, pathOf (qs ++ [r]) <+: p) ∧ q = pathOf (qs ++ [r]) := by
  unfold Joins.paths Dict.keys
  rw [List.map_map, List.mem_map]
  constructor
  · rintro ⟨entry, hentry, rfl⟩
    obtain ⟨qs, r, next, hw, hpre, rfl⟩ := (mem_entries_iff hs hroot h).1 hentry
    exact ⟨qs, r, next, hw, hpre, splitBy_joinAt hs hroot hw⟩
  · rintro ⟨qs, r, next, hw, hpre, rfl⟩
    exact ⟨_, (mem_entries_iff hs hroot h).2 ⟨qs, r, next, hw, hpre, rfl⟩,
      splitBy_joinAt hs hroot hw⟩

/-- the paths that are joined are those that some path begins with -/
theorem mem_paths_iff {q : Path} : q ∈ js.paths ↔ q ≠ [] ∧ ∃ p ∈ paths, q <+: p := by
  rw [mem_paths_iff_walk hs hroot h]
  constructor
  · rintro ⟨qs, r, _, _, hpre, rfl⟩
    exact ⟨pathOf_concat_ne_nil qs r, hpre⟩
  · rintro ⟨hne, p, hp, hpre⟩
    obtain ⟨rs, last, hw, rfl⟩ := (resolves_iff_leads hs hroot).1 ⟨js, h⟩ p hp
    obtain ⟨front, ⟨rest, rfl⟩, rfl⟩ := exists_prefix_of_pathOf hpre
    obtain ⟨mid, hmid, _⟩ := hw.of_append
    obtain rfl | ⟨qs, r, rfl⟩ := List.eq_nil_or_concat' front
    · exact absurd rfl hne
    · exact ⟨qs, r, mid, hmid, ⟨_, hp, hpre⟩, rfl⟩

/-- no path comes after one that begins with it -/
theorem pairwise_paths : js.paths.Pairwise fun earlier later => ¬ later <+: earlier := by
  have hsorted : js.paths.Pairwise fun a b => Path.text a < Path.text b := by
    rw [← List.pairwise_map (f := Path.text), ← keys_eq_map_paths hs hroot h]
    exact List.pairwise_map.2 js.sorted
  refine hsorted.imp_of_mem fun {a b} _ hb hlt => ?_
  rintro ⟨rest, rfl⟩
  have hne : b ≠ [] := ((mem_paths_iff hs hroot h).1 hb).1
  by_cases hrest : rest = []
  · rw [hrest, List.append_nil] at hlt
    exact String.lt_irrefl _ hlt
  · exact String.lt_asymm hlt (Path.text_lt_append hne hrest)

/-- a beginning of a path has its join -/
theorem at?_of_prefix {qs : List Relationship} {r : Relationship} {next : Entity}
    (hw : Walk schema root (qs ++ [r]) next) {p : Path} (hp : p ∈ paths)
    (hpre : pathOf (qs ++ [r]) <+: p) :
    js.at? (pathOf (qs ++ [r])) = some (joinAt (pathOf qs) r).2 := by
  refine Dict.get?_eq_some_iff.2 ?_
  rw [← joinAt_key]
  exact (mem_entries_iff hs hroot h).2 ⟨qs, r, next, hw, ⟨p, hp, hpre⟩, rfl⟩

/-- and goes on from the join of the beginning before it -/
theorem endsPath_joinAt {qs : List Relationship} {r : Relationship} {next : Entity}
    (hw : Walk schema root (qs ++ [r]) next) {p : Path} (hp : p ∈ paths)
    (hpre : pathOf (qs ++ [r]) <+: p) :
    (joinAt (pathOf qs) r).2.EndsPath schema root js (pathOf qs) r.name := by
  obtain ⟨mid, hmid, hlast⟩ := hw.of_append
  have hdeclared : r ∈ mid.relationships := by
    cases hlast with
    | step hr _ _ _ => exact hr
  refine ⟨⟨qs, mid, hmid, rfl, ?_⟩, rfl, fun hnil => if_pos hnil, fun hne => ?_⟩
  · exact Entity.relationship?_of_mem (hs.entity mid (hmid.mem hroot)) hdeclared
  · obtain rfl | ⟨front, last, rfl⟩ := List.eq_nil_or_concat' qs
    · exact absurd rfl hne
    · have hfront : pathOf (front ++ [last]) <+: p :=
        ((List.prefix_append _ [r]).map _).trans hpre
      refine ⟨_, at?_of_prefix hs hroot h hmid hp hfront, ?_⟩
      rw [joinAt_tableAlias]
      exact if_neg hne

/-- no alias stands for two joins, or for a join and the root -/
theorem nodup_aliases : (rootAlias :: js.values.map (·.tableAlias)).Nodup := by
  have hwalked := walked_of_resolveJoins hs hroot h
  refine List.nodup_cons.2 ⟨fun hin => ?_, ?_⟩
  · obtain ⟨j, hj, halias⟩ := List.mem_map.1 hin
    obtain ⟨entry, hentry, rfl⟩ := List.mem_map.1 hj
    exact hwalked.tableAlias_ne_root hentry halias
  · unfold Dict.values
    rw [List.map_map]
    exact js.nodup_entries.map_on fun a ha b hb halias =>
      hwalked.eq_of_tableAlias hs hroot ha hb halias

theorem prefixesOf_resolveJoins : js.PrefixesOf schema root paths := by
  have hkeys := keys_eq_map_paths hs hroot h
  refine ⟨fun q => mem_paths_iff hs hroot h, ?_, hkeys, fun before name hin => ?_,
    nodup_aliases hs hroot h, pairwise_paths hs hroot h⟩
  · have hnodup := js.nodup_keys
    rw [hkeys] at hnodup
    exact hnodup.of_map
  · obtain ⟨qs, r, next, hw, ⟨p, hp, hpre⟩, hpath⟩ := (mem_paths_iff_walk hs hroot h).1 hin
    obtain ⟨rfl, hname⟩ : before = pathOf qs ∧ name = r.name := by
      rw [show pathOf (qs ++ [r]) = pathOf qs ++ [r.name] by simp [pathOf]] at hpath
      obtain ⟨hbefore, hlast⟩ := List.append_inj' hpath rfl
      exact ⟨hbefore, List.singleton_inj.1 hlast⟩
    rw [hpath, hname]
    exact ⟨_, at?_of_prefix hs hroot h hw hp hpre, endsPath_joinAt hs hroot h hw hp hpre⟩

end

/-! ### paths that are followed one by one -/

/-- the fault that stops first in path order, of several the first; with its whole path -/
def firstFault : Option (WalkFault × Path) → List (WalkFault × Path) → Option (WalkFault × Path)
  | best, [] => best
  | none, f :: fs => firstFault (some f) fs
  | some best, f :: fs =>
    if f.1.stop < best.1.stop then firstFault (some f) fs else firstFault (some best) fs

/-- where a path from the root stops, with the path -/
def faultOf? (schema : Schema) (root : Entity) (p : Path) : Option (WalkFault × Path) :=
  match walk schema root rootAlias [] p with
  | .error f => some (f, p)
  | .ok _ => none

/-- the joins of a path from the root -/
def partOf (schema : Schema) (root : Entity) (p : Path) : List (String × Join) :=
  match walk schema root rootAlias [] p with
  | .error _ => []
  | .ok part => part

/-- the joins along all paths from the root, each of which is followed alone -/
def joinsApart (schema : Schema) (root : Entity) (paths : List Path) : Except Error Joins :=
  match firstFault none (paths.filterMap (faultOf? schema root)) with
  | some (f, p) => .error (f.error p)
  | none => .ok (Dict.ofList (paths.flatMap (partOf schema root)))

theorem firstFault_of_le {x : WalkFault × Path} {fs : List (WalkFault × Path)}
    (h : ∀ f ∈ fs, ¬ f.1.stop < x.1.stop) : firstFault (some x) fs = some x := by
  induction fs with
  | nil => rfl
  | cons f fs ih =>
    obtain ⟨hf, hfs⟩ := List.forall_mem_cons.1 h
    rw [firstFault, if_neg hf, ih hfs]

/-- what stops before all that have come, and not after any that comes, is the fault -/
theorem firstFault_append_cons {best : Option (WalkFault × Path)} {x : WalkFault × Path}
    {before after : List (WalkFault × Path)} (hbest : ∀ b ∈ best, x.1.stop < b.1.stop)
    (hbefore : ∀ f ∈ before, x.1.stop < f.1.stop) (hafter : ∀ f ∈ after, ¬ f.1.stop < x.1.stop) :
    firstFault best (before ++ x :: after) = some x := by
  induction before generalizing best with
  | nil =>
    cases best with
    | none => exact firstFault_of_le hafter
    | some b =>
      rw [List.nil_append, firstFault, if_pos (hbest b rfl)]
      exact firstFault_of_le hafter
  | cons f before ih =>
    obtain ⟨hf, hrest⟩ := List.forall_mem_cons.1 hbefore
    have hsome : ∀ b ∈ some f, x.1.stop < b.1.stop := fun b hb => Option.some.inj hb ▸ hf
    cases best with
    | none => exact ih hsome hrest
    | some b =>
      rw [List.cons_append, firstFault]
      split
      · exact ih hsome hrest
      · exact ih hbest hrest

theorem faultOf?_eq_some_iff {p : Path} {x : WalkFault × Path} :
    faultOf? schema root p = some x ↔ walk schema root rootAlias [] p = .error x.1 ∧ x.2 = p := by
  unfold faultOf?
  split <;> simp [*, Prod.ext_iff, eq_comm]

/-- the path that is to blame for all is that of the first fault -/
theorem StopsFirst.joinsApart_eq {paths : List Path} {f : WalkFault} {p : Path}
    (h : StopsFirst schema root rootAlias [] paths f p) :
    joinsApart schema root paths = .error (f.error p) := by
  obtain ⟨hstops, before, after, rfl, hbefore, hafter⟩ := h
  have hfault : firstFault none ((before ++ p :: after).filterMap (faultOf? schema root)) =
      some (f, p) := by
    rw [List.filterMap_append,
      List.filterMap_cons_some (faultOf?_eq_some_iff (x := (f, p)).2 ⟨hstops, rfl⟩)]
    refine firstFault_append_cons (fun b hb => nomatch hb) ?_ ?_
    · intro x hx
      obtain ⟨q, hq, hx⟩ := List.mem_filterMap.1 hx
      exact hbefore q hq x.1 (faultOf?_eq_some_iff.1 hx).1
    · intro x hx
      obtain ⟨q, hq, hx⟩ := List.mem_filterMap.1 hx
      exact hafter q hq x.1 (faultOf?_eq_some_iff.1 hx).1
  unfold joinsApart
  rw [hfault]

/-- following paths together or one by one makes no difference, in the joins or in the error -/
theorem resolveJoins_eq_joinsApart (hs : schema.WellFormed) (hroot : root ∈ schema.entities)
    (paths : List Path) : resolveJoins schema root paths = joinsApart schema root paths := by
  cases hjs : resolveJoins schema root paths with
  | error e =>
    obtain ⟨f, p, hfirst, rfl⟩ := resolveJoins_eq_error hjs
    exact hfirst.joinsApart_eq.symm
  | ok js =>
    have hwalks := (resolveJoins_eq_ok hjs).1
    have hnone : paths.filterMap (faultOf? schema root) = [] := by
      refine List.filterMap_eq_nil_iff.2 fun p hp => ?_
      obtain ⟨part, hpart⟩ := hwalks p hp
      unfold faultOf?
      rw [hpart]
    unfold joinsApart
    rw [hnone]
    have hpart : ∀ entry, entry ∈ paths.flatMap (partOf schema root) ↔ entry ∈ js.entries := by
      intro entry
      rw [mem_of_resolveJoins hs hroot hjs, List.mem_flatMap]
      refine exists_congr fun p => and_congr_right fun hp => ?_
      obtain ⟨part, hpart⟩ := hwalks p hp
      simp [partOf, hpart]
    have hagree : Dict.Agree (paths.flatMap (partOf schema root)) :=
      (Dict.agree_of_sorted js.sorted).mono fun entry hentry => (hpart entry).1 hentry
    refine congrArg Except.ok (Dict.ext_mem fun entry => ?_)
    rw [Dict.mem_ofList hagree, hpart]

/-- paths can be joined if they go along declared relationships; then there is one join for each
path that they begin with, and none other, whatever order they are in and however often they are
there.  They can be followed together or one by one -/
theorem joins_of_prefixes {d : Document} (hd : d.resolve = .ok schema)
    (hroot : root ∈ schema.entities) (paths : List Path) :
    ((∃ js, resolveJoins schema root paths = .ok js) ↔ ∀ p ∈ paths, p.Leads schema root) ∧
    (∀ js, resolveJoins schema root paths = .ok js → js.PrefixesOf schema root paths) ∧
    (∀ paths' : List Path, (∀ p, p ∈ paths' ↔ p ∈ paths) →
      ∀ js, resolveJoins schema root paths' = .ok js ↔ resolveJoins schema root paths = .ok js) ∧
    resolveJoins schema root paths = joinsApart schema root paths := by
  have hs := Document.wellFormed_of_resolve hd
  refine ⟨resolves_iff_leads hs hroot, fun js hjs => prefixesOf_resolveJoins hs hroot hjs,
    fun paths' hsame js => ⟨?_, ?_⟩, resolveJoins_eq_joinsApart hs hroot paths⟩
  · exact resolveJoins_congr hs hroot fun p => (hsame p).symm
  · exact resolveJoins_congr hs hroot hsame

/-- notes by the replies to what they reply to, the longer path first and then once more -/
theorem notes_prefixes :
    ∃ js, resolveJoins notesSchema notesEntity
        [["parent", "replies", "parent"], ["replies"], ["parent", "replies", "parent"], []] =
          .ok js ∧
      js.paths = [["parent"], ["parent", "replies"], ["parent", "replies", "parent"],
        ["replies"]] ∧
      js.PrefixesOf notesSchema notesEntity
        [["parent", "replies", "parent"], ["replies"], ["parent", "replies", "parent"], []] ∧
      resolveJoins notesSchema notesEntity [["replies"], [], ["parent", "replies", "parent"]] =
        .ok js ∧
      ¬ Path.Leads notesSchema notesEntity ["parent", "title"] := by
  have hnotes : notesEntity ∈ notesSchema.entities := List.mem_singleton_self _
  obtain ⟨_, hprefixes, hsame, _⟩ := joins_of_prefixes resolve_notesDocument hnotes
    [["parent", "replies", "parent"], ["replies"], ["parent", "replies", "parent"], []]
  refine ⟨_, rfl, by rfl, hprefixes _ rfl, (hsame _ fun p => ?_) _ |>.2 rfl, fun htitle => ?_⟩
  · simp only [List.mem_cons, List.not_mem_nil, or_false]
    tauto
  · have hjoined := (joins_of_prefixes resolve_notesDocument hnotes [["parent", "title"]]).1.2
      (List.forall_mem_singleton.2 htitle)
    obtain ⟨js, hjs⟩ := hjoined
    cases hjs

end EntityAccess
