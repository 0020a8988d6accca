import EntityAccess.Proofs.Dict
import EntityAccess.Proofs.Outcome
import EntityAccess.Query.Join
import Mathlib.Data.List.MinMax
import Mathlib.Order.Nat

/-!
# branches and the paths on them

Paths that are followed together are joined as each of them is when it is followed alone.  The proof
is by the depth, and at each depth by the branches that are left, for every entity, every path that
has led to it and all the joins that there may be by then.

* `walk`, `WalkFault` : following one path, whatever the others are;
* `map_cons_eq_filter`, `mem_spread_branches` : a branch is the paths that begin with its name, in
  their order;
* `AllFollowed`, `joinBranches_eq_ok` : whoever comes to an end has followed all paths, has come
  back, and has put in the joins of each;
* `StopsFirst`, `joinBranches_eq_error` : whoever does not has stopped where the first path in order
  stops;
* `joinBranches_of_le`, `joinBranches_eq` : a depth that no path exceeds is as good as any greater
  one, and as none;
* `resolveJoins_eq_ok`, `resolveJoins_eq_error`, `resolves_iff` : the same from the root.
-/

namespace EntityAccess

open Outcome

variable {schema : Schema} {entity target : Entity} {parent name : String} {r : Relationship}
  {done p : Path} {rests paths qs : List Path} {e : Error}

/-! ### one path alone -/

/-- why a path cannot be followed: where it stops, and the error for the whole path -/
structure WalkFault where
  stop : Path
  error : (whole : Path) → Error

/-- the joins along a path that begins at `entity`, which is joined as `parent` after `done` -/
def walk (schema : Schema) (entity : Entity) (parent : String) (done : Path) :
    Path → Except WalkFault (List (String × Join))
  | [] => .ok []
  | name :: rest =>
    let here := done ++ [name]
    match entity.relationship? name with
    | none => .error ⟨here, fun whole => .noSuchRelationship whole.text entity.name⟩
    | some r =>
      match schema.entity? r.target with
      | none => .error ⟨here, fun _ => .config (.missingReference .entity r.target)⟩
      | some target =>
        (walk schema target (Path.tableAlias here) here rest).map
          ((Path.text here, ⟨Path.tableAlias here, target.name, r, parent⟩) :: ·)

/-- the join of a name after `done` -/
def joinOf (done : Path) (name : String) (target : Entity) (r : Relationship) (parent : String) :
    String × Join :=
  (Path.text (done ++ [name]), ⟨Path.tableAlias (done ++ [name]), target.name, r, parent⟩)

theorem walk_cons (parent : String) (done : Path) (rest : Path)
    (hr : entity.relationship? name = some r) (ht : schema.entity? r.target = some target) :
    walk schema entity parent done (name :: rest) =
      (walk schema target (Path.tableAlias (done ++ [name])) (done ++ [name]) rest).map
        (joinOf done name target r parent :: ·) := by
  simp [walk, hr, ht, joinOf]

theorem walk_cons_eq_ok {rest : Path} {part : List (String × Join)}
    (hr : entity.relationship? name = some r) (ht : schema.entity? r.target = some target)
    (h : walk schema target (Path.tableAlias (done ++ [name])) (done ++ [name]) rest = .ok part) :
    walk schema entity parent done (name :: rest) =
      .ok (joinOf done name target r parent :: part) := by
  rw [walk_cons parent done rest hr ht, h]
  rfl

/-- a path stops at its first name, or later -/
theorem walk_cons_eq_error {f : WalkFault} {rest : Path}
    (h : walk schema entity parent done (name :: rest) = .error f) :
    f.stop = done ++ [name] ∨ ∃ r target, entity.relationship? name = some r ∧
      schema.entity? r.target = some target ∧
      walk schema target (Path.tableAlias (done ++ [name])) (done ++ [name]) rest = .error f := by
  unfold walk at h
  dsimp only at h
  split at h
  · exact .inl (congrArg WalkFault.stop (Except.error.inj h).symm)
  · next r hr =>
    split at h
    · exact .inl (congrArg WalkFault.stop (Except.error.inj h).symm)
    · next target ht => exact .inr ⟨r, target, hr, ht, map_eq_error.1 h⟩

/-- it stops after its first name at the earliest -/
theorem stop_of_walk {f : WalkFault} {rest : Path}
    (h : walk schema entity parent done (name :: rest) = .error f) :
    ∃ more, f.stop = done ++ name :: more := by
  induction rest generalizing entity parent done name with
  | nil =>
    rcases walk_cons_eq_error h with hstop | ⟨_, _, _, _, h⟩
    · exact ⟨[], hstop⟩
    · cases h
  | cons next rest ih =>
    rcases walk_cons_eq_error h with hstop | ⟨_, _, _, _, h⟩
    · exact ⟨[], hstop⟩
    · obtain ⟨more, hmore⟩ := ih h
      exact ⟨next :: more, by rw [hmore, List.append_assoc]; rfl⟩

/-! ### branches -/

theorem branches_concat (paths : List Path) (p : Path) :
    branches (paths ++ [p]) = addToBranch (branches paths) p := by
  simp [branches]

/-- the branch of a name holds the paths that begin with it, in their order -/
theorem get?_branches (paths : List Path) (name : String) :
    (((branches paths).get? name).getD []).map (name :: ·) =
      paths.filter (·.head? = some name) := by
  induction paths using List.reverseRecOn with
  | nil => rfl
  | append_singleton paths p ih =>
    rw [branches_concat, List.filter_append, ← ih]
    cases p with
    | nil => simp [addToBranch]
    | cons first rest =>
      unfold addToBranch
      by_cases h : first = name
      · subst h
        simp [Dict.get?_insert_self]
      · rw [Dict.get?_insert_ne _ _ h]
        simp [h]

theorem map_cons_eq_filter (h : (name, rests) ∈ (branches paths).entries) :
    rests.map (name :: ·) = paths.filter (·.head? = some name) := by
  rw [← get?_branches, Dict.get?_eq_some_iff.2 h]
  rfl

/-- no branch is empty -/
theorem ne_nil_of_mem_branches (h : (name, rests) ∈ (branches paths).entries) : rests ≠ [] := by
  induction paths using List.reverseRecOn with
  | nil => cases h
  | append_singleton paths p ih =>
    rw [branches_concat] at h
    cases p with
    | nil => exact ih h
    | cons first rest =>
      rcases Dict.mem_insert.1 h with heq | ⟨_, h⟩
      · rw [(Prod.mk.inj heq).2]
        simp
      · exact ih h

/-- the paths on branches -/
def spread (groups : List (String × List Path)) : List Path :=
  groups.flatMap fun b => b.2.map (b.1 :: ·)

theorem mem_spread {groups : List (String × List Path)} {b : String × List Path} (hb : b ∈ groups)
    {rest : Path} (hrest : rest ∈ b.2) : b.1 :: rest ∈ spread groups :=
  List.mem_flatMap.2 ⟨b, hb, List.mem_map_of_mem hrest⟩

theorem mem_spread_branches : p ∈ spread (branches paths).entries ↔ p ∈ paths ∧ p ≠ [] := by
  unfold spread
  rw [List.mem_flatMap]
  constructor
  · rintro ⟨⟨name, rests⟩, hb, hp⟩
    have hmem := hp
    rw [map_cons_eq_filter hb, List.mem_filter] at hmem
    obtain ⟨rest, _, rfl⟩ := List.mem_map.1 hp
    exact ⟨hmem.1, List.cons_ne_nil _ _⟩
  · rintro ⟨hp, hne⟩
    obtain ⟨name, rest, rfl⟩ := List.exists_cons_of_ne_nil hne
    have hin : name :: rest ∈ (((branches paths).get? name).getD []).map (name :: ·) := by
      rw [get?_branches]
      simp [hp]
    cases hb : (branches paths).get? name with
    | none => simp [hb] at hin
    | some rests => exact ⟨(name, rests), Dict.get?_eq_some_iff.1 hb, by simpa [hb] using hin⟩

/-- what is left of a path on a branch is shorter -/
theorem length_le_of_mem_branches {depth : Nat} (hlen : ∀ p ∈ paths, p.length ≤ depth + 1)
    (h : (name, rests) ∈ (branches paths).entries) : ∀ rest ∈ rests, rest.length ≤ depth :=
  fun _ hrest => Nat.le_of_succ_le_succ (hlen _ (mem_spread_branches.1 (mem_spread h hrest)).1)

/-! ### one branch -/

section

variable {goOn : Entity → String → List Path → Traversal → Except Error Traversal}
  {t t' t₁ : Traversal}

theorem followBranch_eq_ok
    (h : followBranch schema entity parent goOn t name rests = .ok t') :
    ∃ r target t₁, entity.relationship? name = some r ∧ schema.entity? r.target = some target ∧
      goOn target (Path.tableAlias (t.path ++ [name])) (rests.filter (· ≠ []))
        ((t.push name).join target r parent) = .ok t₁ ∧ t' = t₁.pop := by
  unfold followBranch at h
  dsimp only at h
  split at h
  · cases h
  · next r hr =>
    split at h
    · cases h
    · next target ht =>
      obtain ⟨t₁, hgo, h⟩ := bind_eq_ok.1 h
      exact ⟨r, target, t₁, hr, ht, hgo, (Except.ok.inj h).symm⟩

/-- a branch fails where its name leads nowhere, for all its paths, or where its paths go on -/
theorem followBranch_eq_error
    (h : followBranch schema entity parent goOn t name rests = .error e) :
    (∃ f : WalkFault, (∀ rest, walk schema entity parent t.path (name :: rest) = .error f) ∧
      e = f.error (t.path ++ name :: rests.headD [])) ∨
    ∃ r target, entity.relationship? name = some r ∧ schema.entity? r.target = some target ∧
      goOn target (Path.tableAlias (t.path ++ [name])) (rests.filter (· ≠ []))
        ((t.push name).join target r parent) = .error e := by
  unfold followBranch at h
  dsimp only at h
  split at h
  · next hr =>
    refine .inl ⟨⟨t.path ++ [name], fun whole => .noSuchRelationship whole.text entity.name⟩,
      fun rest => by simp only [walk, hr], ?_⟩
    simpa [Traversal.push] using (Except.error.inj h).symm
  · next r hr =>
    split at h
    · next ht =>
      refine .inl ⟨⟨t.path ++ [name], fun _ => .config (.missingReference .entity r.target)⟩,
        fun rest => by simp only [walk, hr, ht], (Except.error.inj h).symm⟩
    · next target ht =>
      rcases bind_eq_error.1 h with hgo | ⟨_, _, h⟩
      · exact .inr ⟨r, target, hr, ht, hgo⟩
      · cases h

/-! ### paths that are all followed -/

/-- all paths have been followed, up to their ends and back, and the joins of each have been put
in -/
structure AllFollowed (schema : Schema) (entity : Entity) (parent : String) (paths : List Path)
    (t t' : Traversal) : Prop where
  path : t'.path = t.path
  walks : ∀ p ∈ paths, ∃ part, walk schema entity parent t.path p = .ok part
  joins : ∃ l : List (String × Join),
    t'.joins = l.foldl (fun js entry => js.insertNew entry.1 entry.2) t.joins ∧
    ∀ entry, entry ∈ l ↔
      ∃ p ∈ paths, ∃ part, walk schema entity parent t.path p = .ok part ∧ entry ∈ part

namespace AllFollowed

protected theorem nil : AllFollowed schema entity parent [] t t :=
  ⟨rfl, by simp, [], rfl, by simp⟩

protected theorem append (h : AllFollowed schema entity parent paths t t₁)
    (h' : AllFollowed schema entity parent qs t₁ t') :
    AllFollowed schema entity parent (paths ++ qs) t t' := by
  obtain ⟨hpath, hwalks, l, hl, hmem⟩ := h
  obtain ⟨hpath', hwalks', l', hl', hmem'⟩ := h'
  rw [hpath] at hpath' hwalks' hmem'
  refine ⟨hpath', List.forall_mem_append.2 ⟨hwalks, hwalks'⟩, l ++ l', ?_, fun entry => ?_⟩
  · rw [hl', hl, List.foldl_append]
  · rw [List.mem_append, hmem, hmem', ← exists_or]
    refine exists_congr fun p => ?_
    rw [← or_and_right, List.mem_append]

/-- the order of the paths makes no difference, nor how often they are there, nor empty ones -/
theorem congr (h : AllFollowed schema entity parent qs t t')
    (hsame : ∀ p, p ∈ qs ↔ p ∈ paths ∧ p ≠ []) : AllFollowed schema entity parent paths t t' := by
  obtain ⟨hpath, hwalks, l, hl, hmem⟩ := h
  refine ⟨hpath, fun p hp => ?_, l, hl, fun entry => ?_⟩
  · by_cases hne : p = []
    · exact ⟨[], by rw [hne]; rfl⟩
    · exact hwalks p ((hsame p).2 ⟨hp, hne⟩)
  · rw [hmem]
    refine exists_congr fun p => ?_
    rw [hsame]
    constructor
    · rintro ⟨⟨hp, _⟩, hpart⟩
      exact ⟨hp, hpart⟩
    · rintro ⟨hp, part, hwalk, hentry⟩
      refine ⟨⟨hp, ?_⟩, part, hwalk, hentry⟩
      rintro rfl
      obtain rfl : [] = part := Except.ok.inj hwalk
      cases hentry

/-- a branch is followed by joining what its name leads to and going on from there -/
theorem branch (hr : entity.relationship? name = some r)
    (ht : schema.entity? r.target = some target) (hne : rests ≠ [])
    (h : AllFollowed schema target (Path.tableAlias (t.path ++ [name])) rests
      ((t.push name).join target r parent) t₁) :
    AllFollowed schema entity parent (rests.map (name :: ·)) t t₁.pop := by
  obtain ⟨hpath, hwalks, l, hl, hmem⟩ := h
  change t₁.path = t.path ++ [name] at hpath
  change ∀ p ∈ rests, ∃ part, walk schema target _ (t.path ++ [name]) p = .ok part at hwalks
  change ∀ entry, entry ∈ l ↔ ∃ p ∈ rests, ∃ part,
    walk schema target _ (t.path ++ [name]) p = .ok part ∧ entry ∈ part at hmem
  refine ⟨?_, ?_, joinOf t.path name target r parent :: l, hl, fun entry => ?_⟩
  · change t₁.path.dropLast = t.path
    rw [hpath, List.dropLast_concat]
  · rw [List.forall_mem_map]
    intro rest hrest
    obtain ⟨part, hpart⟩ := hwalks rest hrest
    exact ⟨_, walk_cons_eq_ok hr ht hpart⟩
  · rw [List.mem_cons, hmem]
    constructor
    · rintro (rfl | ⟨rest, hrest, part, hpart, hentry⟩)
      · -- the branch has a path, whichever, and the join is the first of its walk
        obtain ⟨rest, hrest⟩ := List.exists_mem_of_ne_nil _ hne
        obtain ⟨part, hpart⟩ := hwalks rest hrest
        exact ⟨_, List.mem_map_of_mem hrest, _, walk_cons_eq_ok hr ht hpart, List.mem_cons_self⟩
      · exact ⟨_, List.mem_map_of_mem hrest, _, walk_cons_eq_ok hr ht hpart,
          List.mem_cons_of_mem _ hentry⟩
    · rintro ⟨p, hp, part, hpart, hentry⟩
      obtain ⟨rest, hrest, rfl⟩ := List.mem_map.1 hp
      rw [walk_cons _ _ _ hr ht] at hpart
      obtain ⟨later, hlater, rfl⟩ := map_eq_ok.1 hpart
      exact (List.mem_cons.1 hentry).imp_right fun hin => ⟨rest, hrest, later, hlater, hin⟩

end AllFollowed

/-- branches that are followed one after the other -/
theorem foldlM_followBranch_eq_ok {depth : Nat}
    (hgo : ∀ {target parent rests t t'}, (∀ rest ∈ rests, rest.length ≤ depth) →
      goOn target parent rests t = .ok t' → AllFollowed schema target parent rests t t')
    {groups : List (String × List Path)} (hne : ∀ b ∈ groups, b.2 ≠ [])
    (hlen : ∀ p ∈ spread groups, p.length ≤ depth + 1)
    (h : groups.foldlM (fun t b => followBranch schema entity parent goOn t b.1 b.2) t = .ok t') :
    AllFollowed schema entity parent (spread groups) t t' := by
  induction groups generalizing t with
  | nil =>
    obtain rfl : t = t' := Except.ok.inj h
    exact .nil
  | cons b groups ih =>
    rw [List.foldlM_cons] at h
    obtain ⟨t₁, hb, h⟩ := bind_eq_ok.1 h
    obtain ⟨r, target, t₂, hr, ht, hgo', rfl⟩ := followBranch_eq_ok hb
    obtain ⟨hfirst, hrest⟩ := List.forall_mem_cons.1 hne
    have hdepth : ∀ rest ∈ b.2, rest.length ≤ depth := fun rest hrest =>
      Nat.le_of_succ_le_succ (hlen _ (mem_spread List.mem_cons_self hrest))
    have hdeeper := hgo (fun rest hrest => hdepth rest (List.mem_filter.1 hrest).1) hgo'
    refine (AllFollowed.branch hr ht hfirst (hdeeper.congr fun p => by simp)).append ?_
    exact ih hrest (fun p hp => hlen p (List.mem_append_right _ hp)) h

/-- whoever comes to an end has followed all paths -/
theorem joinBranches_eq_ok {depth : Nat} (hlen : ∀ p ∈ paths, p.length ≤ depth)
    (h : joinBranches schema depth entity parent paths t = .ok t') :
    AllFollowed schema entity parent paths t t' := by
  induction depth generalizing entity parent paths t t' with
  | zero =>
    obtain rfl : t = t' := Except.ok.inj h
    refine AllFollowed.congr .nil fun p => iff_of_false List.not_mem_nil ?_
    rintro ⟨hp, hne⟩
    exact hne (List.length_eq_zero_iff.1 (Nat.le_zero.1 (hlen p hp)))
  | succ depth ih =>
    refine AllFollowed.congr (foldlM_followBranch_eq_ok ih (fun b hb => ne_nil_of_mem_branches hb)
      (fun p hp => hlen p (mem_spread_branches.1 hp).1) h) fun p => mem_spread_branches

/-! ### a path that stops -/

/-- `p` is the first of the paths that stop first in the order of paths -/
structure StopsFirst (schema : Schema) (entity : Entity) (parent : String) (done : Path)
    (paths : List Path) (f : WalkFault) (p : Path) : Prop where
  stops : walk schema entity parent done p = .error f
  first : ∃ before after, paths = before ++ p :: after ∧
    (∀ q ∈ before, ∀ g, walk schema entity parent done q = .error g → f.stop < g.stop) ∧
    ∀ q ∈ after, ∀ g, walk schema entity parent done q = .error g → ¬ g.stop < f.stop

namespace StopsFirst

variable {f : WalkFault}

theorem mem (h : StopsFirst schema entity parent done paths f p) : p ∈ paths := by
  obtain ⟨-, before, after, rfl, -, -⟩ := h
  exact List.mem_append_right _ List.mem_cons_self

/-- among more paths, all others of which stop later if they stop -/
theorem of_filter {keep : Path → Bool}
    (h : StopsFirst schema entity parent done (paths.filter keep) f p)
    (hlater : ∀ q ∈ paths, keep q = false → ∀ g,
      walk schema entity parent done q = .error g → f.stop < g.stop) :
    StopsFirst schema entity parent done paths f p := by
  obtain ⟨hstops, before, after, hsplit, hbefore, hafter⟩ := h
  obtain ⟨front, back, rfl, rfl, hback⟩ := List.filter_eq_append_iff.1 hsplit
  obtain ⟨skipped, rest, rfl, hskipped, -, rfl⟩ := List.filter_eq_cons_iff.1 hback
  refine ⟨hstops, front ++ skipped, rest, by rw [List.append_assoc], ?_, ?_⟩
  · intro q hq g hg
    by_cases hkeep : keep q = true
    · rcases List.mem_append.1 hq with hq | hq
      · exact hbefore q (List.mem_filter.2 ⟨hq, hkeep⟩) g hg
      · exact absurd hkeep (hskipped q hq)
    · refine hlater q ?_ (Bool.eq_false_iff.2 hkeep) g hg
      rw [← List.append_assoc]
      exact List.mem_append_left _ hq
  · intro q hq g hg
    by_cases hkeep : keep q = true
    · exact hafter q (List.mem_filter.2 ⟨hq, hkeep⟩) g hg
    · refine List.lt_asymm (hlater q ?_ (Bool.eq_false_iff.2 hkeep) g hg)
      exact List.mem_append_right _ (List.mem_append_right _ (List.mem_cons_of_mem _ hq))

/-- on a branch whose name leads nowhere the first path is the one -/
theorem headD (hne : rests ≠ [])
    (hall : ∀ rest, walk schema entity parent done (name :: rest) = .error f) :
    StopsFirst schema entity parent done (rests.map (name :: ·)) f (name :: rests.headD []) := by
  obtain ⟨rest, others, rfl⟩ := List.exists_cons_of_ne_nil hne
  refine ⟨hall _, [], others.map (name :: ·), rfl, by simp, ?_⟩
  rw [List.forall_mem_map]
  intro q _ g hg
  obtain rfl : f = g := Except.error.inj ((hall q).symm.trans hg)
  exact List.lt_irrefl f.stop

/-- on another branch it is the one that stops first further on -/
theorem cons (hr : entity.relationship? name = some r)
    (ht : schema.entity? r.target = some target)
    (h : StopsFirst schema target (Path.tableAlias (done ++ [name])) (done ++ [name])
      (rests.filter (· ≠ [])) f p) :
    StopsFirst schema entity parent done (rests.map (name :: ·)) f (name :: p) := by
  have hrests : StopsFirst schema target (Path.tableAlias (done ++ [name])) (done ++ [name]) rests
      f p := by
    refine h.of_filter fun q _ hq g hg => ?_
    obtain rfl : q = [] := by simpa using hq
    cases hg
  have hwalk : ∀ q g, walk schema entity parent done (name :: q) = .error g ↔
      walk schema target (Path.tableAlias (done ++ [name])) (done ++ [name]) q = .error g :=
    fun q g => by rw [walk_cons parent done q hr ht, map_eq_error]
  obtain ⟨hstops, before, after, rfl, hbefore, hafter⟩ := hrests
  refine ⟨(hwalk p f).2 hstops, before.map (name :: ·), after.map (name :: ·), by simp, ?_, ?_⟩
  · rw [List.forall_mem_map]
    exact fun q hq g hg => hbefore q hq g ((hwalk q g).1 hg)
  · rw [List.forall_mem_map]
    exact fun q hq g hg => hafter q hq g ((hwalk q g).1 hg)

end StopsFirst

/-- once all branches before one have been followed, only paths of that branch stop in it, and all
others that stop do so later -/
theorem stop_lt_of_split {before after : List (String × List Path)}
    (hsplit : (branches paths).entries = before ++ (name, rests) :: after)
    (hdone : ∀ q ∈ spread before, ∃ part, walk schema entity parent done q = .ok part)
    {f g : WalkFault} {more q : Path} (hf : f.stop = done ++ name :: more) (hq : q ∈ paths)
    (hother : q.head? ≠ some name) (hg : walk schema entity parent done q = .error g) :
    f.stop < g.stop := by
  cases q with
  | nil => cases hg
  | cons other others =>
    obtain ⟨⟨n, rs⟩, hn, hin⟩ := List.mem_flatMap.1
      (mem_spread_branches.2 ⟨hq, List.cons_ne_nil other others⟩)
    obtain ⟨_, _, heq⟩ := List.mem_map.1 hin
    obtain ⟨rfl, -⟩ := List.cons.inj heq
    rw [hsplit, List.mem_append, List.mem_cons] at hn
    rcases hn with hbefore | heq | hafter
    · obtain ⟨part, hpart⟩ := hdone _ (List.mem_flatMap.2 ⟨_, hbefore, hin⟩)
      rw [hpart] at hg
      cases hg
    · exact absurd (congrArg some (Prod.mk.inj heq).1) hother
    · have hsorted := (branches paths).sorted
      rw [hsplit] at hsorted
      have hlt : name < n :=
        (List.pairwise_cons.1 (List.pairwise_append.1 hsorted).2.1).1 _ hafter
      obtain ⟨more', hstop⟩ := stop_of_walk hg
      rw [hf, hstop]
      exact List.append_left_lt (List.cons_lt_cons_iff.2 (.inl hlt))

/-- whoever cannot follow all paths has stopped where the first path in order stops -/
theorem joinBranches_eq_error {depth : Nat} (hlen : ∀ p ∈ paths, p.length ≤ depth)
    (h : joinBranches schema depth entity parent paths t = .error e) :
    ∃ f p, StopsFirst schema entity parent t.path paths f p ∧ e = f.error (t.path ++ p) := by
  induction depth generalizing entity parent paths t with
  | zero => cases h
  | succ depth ih =>
    obtain ⟨before, ⟨name, rests⟩, after, t₁, hsplit, hbefore, hstep⟩ := foldlM_eq_error h
    have hb : (name, rests) ∈ (branches paths).entries := by simp [hsplit]
    have hmem : ∀ b ∈ before, b ∈ (branches paths).entries := fun b hb => by simp [hsplit, hb]
    have hspread : ∀ p ∈ spread before, p ∈ paths := fun p hp => by
      obtain ⟨b, hb, hin⟩ := List.mem_flatMap.1 hp
      exact (mem_spread_branches.1 (List.mem_flatMap.2 ⟨b, hmem b hb, hin⟩)).1
    have hdone : AllFollowed schema entity parent (spread before) t t₁ :=
      foldlM_followBranch_eq_ok (fun hlen h => joinBranches_eq_ok hlen h)
        (fun b hb => ne_nil_of_mem_branches (hmem b hb))
        (fun p hp => hlen p (hspread p hp)) hbefore
    -- the paths of this branch, of which one is to blame
    obtain ⟨f, p, hfirst, rfl⟩ : ∃ f p,
        StopsFirst schema entity parent t.path (rests.map (name :: ·)) f p ∧
          e = f.error (t.path ++ p) := by
      rw [← hdone.path]
      rcases followBranch_eq_error hstep with ⟨f, hall, he⟩ | ⟨r, target, hr, ht, hgo⟩
      · exact ⟨f, _, .headD (ne_nil_of_mem_branches hb) hall, he⟩
      · have hdepth := length_le_of_mem_branches hlen hb
        obtain ⟨f, p, hp, rfl⟩ := ih (fun p hp => hdepth p (List.mem_filter.1 hp).1) hgo
        refine ⟨f, name :: p, .cons hr ht hp, ?_⟩
        simp [Traversal.join, Traversal.push]
    obtain ⟨rest, _, rfl⟩ := List.mem_map.1 hfirst.mem
    obtain ⟨more, hstop⟩ := stop_of_walk hfirst.stops
    rw [map_cons_eq_filter hb] at hfirst
    refine ⟨f, name :: rest, hfirst.of_filter fun q hq hother g hg => ?_, rfl⟩
    exact stop_lt_of_split hsplit hdone.walks hstop hq (by simpa using hother) hg

/-! ### the depth -/

/-- a depth that no path exceeds is as good as any greater one -/
theorem joinBranches_of_le {depth depth' : Nat} (hlen : ∀ p ∈ paths, p.length ≤ depth)
    (hle : depth ≤ depth') :
    joinBranches schema depth' entity parent paths t =
      joinBranches schema depth entity parent paths t := by
  induction depth generalizing depth' entity parent paths t with
  | zero =>
    have hnone : (branches paths).entries = [] := by
      refine List.eq_nil_iff_forall_not_mem.2 fun b hb => ?_
      obtain ⟨rest, hrest⟩ := List.exists_mem_of_ne_nil _ (ne_nil_of_mem_branches hb)
      have hlen := hlen _ (mem_spread_branches.1 (mem_spread hb hrest)).1
      simp at hlen
    cases depth' with
    | zero => rfl
    | succ depth' =>
      unfold joinBranches
      rw [hnone]
      rfl
  | succ depth ih =>
    obtain ⟨depth', rfl⟩ := Nat.exists_eq_succ_of_ne_zero (by omega : depth' ≠ 0)
    refine foldlM_congr fun b hb t => ?_
    have hdepth := length_le_of_mem_branches hlen hb
    unfold followBranch
    dsimp only
    split
    · rfl
    · split
      · rfl
      · rw [ih (fun p hp => hdepth p (List.mem_filter.1 hp).1) (by omega)]

/-- within its depth the recursion goes on as if it had none -/
theorem joinBranches_eq {depth : Nat} (hlen : ∀ p ∈ paths, p.length ≤ depth) :
    joinBranches schema depth entity parent paths t =
      (branches paths).entries.foldlM (fun t b =>
        followBranch schema entity parent (joinBranches schema depth) t b.1 b.2) t :=
  (joinBranches_of_le hlen (Nat.le_succ depth)).symm

end

/-! ### from the root -/

variable {root : Entity} {js : Joins}

theorem length_le_longest (hp : p ∈ paths) : p.length ≤ longest paths :=
  List.le_max_of_le (List.mem_map_of_mem (f := List.length) hp) le_rfl

/-- the joins of all paths are put together -/
theorem resolveJoins_eq_ok (h : resolveJoins schema root paths = .ok js) :
    (∀ p ∈ paths, ∃ part, walk schema root rootAlias [] p = .ok part) ∧
    ∃ l : List (String × Join),
      js = l.foldl (fun js entry => js.insertNew entry.1 entry.2) .empty ∧
      ∀ entry, entry ∈ l ↔
        ∃ p ∈ paths, ∃ part, walk schema root rootAlias [] p = .ok part ∧ entry ∈ part := by
  obtain ⟨t', ht', rfl⟩ := map_eq_ok.1 h
  have hfollows := joinBranches_eq_ok
    (fun p hp => length_le_longest (List.mem_filter.1 hp).1) ht'
  have hall : AllFollowed schema root rootAlias paths ⟨[], .empty⟩ t' :=
    hfollows.congr fun p => by simp
  exact ⟨hall.walks, hall.joins⟩

/-- the path that is to blame, and its error -/
theorem resolveJoins_eq_error (h : resolveJoins schema root paths = .error e) :
    ∃ f p, StopsFirst schema root rootAlias [] paths f p ∧ e = f.error p := by
  obtain ⟨f, p, hfirst, he⟩ := joinBranches_eq_error
    (fun p hp => length_le_longest (List.mem_filter.1 hp).1) (map_eq_error.1 h)
  refine ⟨f, p, hfirst.of_filter fun q _ hq g hg => ?_, he⟩
  obtain rfl : q = [] := by simpa using hq
  cases hg

/-- paths can be joined if each of them can be followed -/
theorem resolves_iff : (∃ js, resolveJoins schema root paths = .ok js) ↔
    ∀ p ∈ paths, ∃ part, walk schema root rootAlias [] p = .ok part := by
  constructor
  · rintro ⟨js, hjs⟩
    exact (resolveJoins_eq_ok hjs).1
  · intro hall
    cases hjs : resolveJoins schema root paths with
    | ok js => exact ⟨js, rfl⟩
    | error e =>
      obtain ⟨f, p, hfirst, _⟩ := resolveJoins_eq_error hjs
      obtain ⟨part, hpart⟩ := hall p hfirst.mem
      rw [hfirst.stops] at hpart
      cases hpart

end EntityAccess
