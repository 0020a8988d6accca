import EntityAccess.Proofs.Query.Prefixes

/-!
# aliases as the database keeps them

The database keeps the first 63 octets of a name.  An identifier has no more, but the alias of a
path has, once the path is long enough, and then another path may have the same alias.  Paths that
are short enough never do; along a cycle of relationships there are always paths that do.

* `Text.clip`, `keptName` : what is kept of a name;
* `Path.octets`, `length_tableAlias` : the length of the alias of a path;
* `Path.Clash`, `clash_append` : paths whose aliases become one;
* `tableAliases_eq` : the aliases of joins are those of their paths;
* `keptName_eq_iff` : two paths have the same alias in the database;
* `aliases_kept_apart_iff` : when all aliases are kept apart.
-/

namespace EntityAccess

open Text

/-! ### what is kept of a name -/

namespace Text

/-- the characters at the start of a text that have at most `n` octets in all -/
def clip : (n : Nat) → List Char → List Char
  | _, [] => []
  | n, c :: cs => if c.utf8Size ≤ n then c :: clip (n - c.utf8Size) cs else []

/-- of characters with one octet there are as many as octets -/
theorem clip_eq_take {cs : List Char} (h : ∀ c ∈ cs, c.utf8Size = 1) (n : Nat) :
    clip n cs = cs.take n := by
  induction cs generalizing n with
  | nil => simp [clip]
  | cons c cs ih =>
    obtain ⟨hc, hcs⟩ := List.forall_mem_cons.1 h
    unfold clip
    rw [hc]
    cases n with
    | zero => simp
    | succ n => simp [ih hcs]

end Text

/-- how many octets of a name the database keeps -/
def keptOctets : Nat := 63

/-- a name as the database keeps it -/
def keptName (name : String) : String := String.ofList (clip keptOctets name.toList)

/-- the aliases of the root and of all joins, as the database keeps them -/
def Joins.keptAliases (js : Joins) : List String :=
  (rootAlias :: js.values.map (·.tableAlias)).map keptName

theorem utf8Size_of_isIdentifierChar {c : Char} (h : isIdentifierChar c = true) :
    c.utf8Size = 1 := by
  have hrange := range_of_isIdentifierChar h
  rw [Char.utf8Size_eq_one_iff, UInt32.le_iff_toNat_le]
  change c.toNat ≤ 127
  omega

/-! ### the alias of a path -/

namespace Path

/-- the octets of the alias of a path: those of each name, and two in front of it -/
def octets : Path → Nat
  | [] => 0
  | name :: rest => name.length + 2 + octets rest

theorem octets_cons (name : String) (rest : Path) :
    octets (name :: rest) = name.length + 2 + octets rest := rfl

theorem octets_append (p q : Path) : octets (p ++ q) = octets p + octets q := by
  induction p with
  | nil => exact (Nat.zero_add _).symm
  | cons name p ih =>
    rw [List.cons_append, octets_cons, octets_cons, ih]
    omega

theorem length_joinWith {p : Path} (hne : p ≠ []) : (joinWith "__" p).length + 2 = p.octets := by
  unfold joinWith
  induction p with
  | nil => exact absurd rfl hne
  | cons name p ih =>
    cases p with
    | nil => simp [octets]
    | cons next p =>
      have hrest := ih (List.cons_ne_nil _ _)
      rw [String.intercalate_cons_cons, String.length_append, String.length_append, octets_cons,
        ← hrest, show "__".length = 2 from rfl]
      omega

theorem length_tableAlias {p : Path} (hne : p ≠ []) : p.tableAlias.toList.length = p.octets := by
  unfold tableAlias
  rw [toList_concat, ← length_joinWith hne]
  simp [String.length_toList]

/-- the alias of a path begins the aliases of the paths that go on from it -/
theorem tableAlias_append {p rest : Path} (hp : p ≠ []) :
    p.tableAlias.toList <+: (tableAlias (p ++ rest)).toList := by
  by_cases hrest : rest = []
  · exact ⟨[], by rw [hrest, List.append_nil, List.append_nil]⟩
  · unfold tableAlias joinWith
    rw [String.intercalate_append_of_ne_nil hp hrest, toList_concat, toList_concat]
    simp

/-- the aliases of two paths are one in the database: they are too long to be kept, and differ only
in what is not kept -/
def Clash (p q : Path) : Prop :=
  keptOctets ≤ p.octets ∧ keptOctets ≤ q.octets ∧
    p.tableAlias.toList.take keptOctets = q.tableAlias.toList.take keptOctets

/-- a path whose alias is cut off clashes with every path that goes on from it -/
theorem clash_append {p : Path} (hp : p ≠ []) (hlong : keptOctets ≤ p.octets) (rest : Path) :
    p.Clash (p ++ rest) := by
  refine ⟨hlong, ?_, ?_⟩
  · rw [octets_append]
    omega
  · obtain ⟨more, hmore⟩ : p.tableAlias.toList <+: (tableAlias (p ++ rest)).toList :=
      tableAlias_append hp
    rw [← hmore, List.take_append_of_le_length]
    rwa [length_tableAlias hp]

section

variable {p q : Path} (hp : ∀ name ∈ p, isIdentifier name = true)
  (hq : ∀ name ∈ q, isIdentifier name = true) (hpn : p ≠ []) (hqn : q ≠ [])

include hp

theorem isIdentifierChar_of_mem_tableAlias {c : Char} (hc : c ∈ p.tableAlias.toList) :
    isIdentifierChar c = true := by
  have hmarks : ("j_".toList ++ "__".toList).all isIdentifierChar = true := by decide
  rw [List.all_eq_true] at hmarks
  unfold tableAlias at hc
  rw [toList_concat] at hc
  simp only [List.flatMap_cons, List.flatMap_nil, List.append_nil, List.mem_append] at hc
  rcases hc with hmark | hjoin
  · exact hmarks c (List.mem_append_left _ hmark)
  · rcases mem_joinWith hjoin with hunder | ⟨name, hname, hin⟩
    · exact hmarks c (List.mem_append_right _ hunder)
    · obtain ⟨d, ds, hds, _, hall, _⟩ := isIdentifier_cases (hp name hname)
      exact hall c (hds ▸ hin)

/-- an alias has one octet for each of its characters -/
theorem toList_keptName :
    (keptName p.tableAlias).toList = p.tableAlias.toList.take keptOctets := by
  unfold keptName
  rw [String.toList_ofList]
  exact clip_eq_take (fun c hc =>
    utf8Size_of_isIdentifierChar (isIdentifierChar_of_mem_tableAlias hp hc)) _

theorem keptName_ne_root : keptName p.tableAlias ≠ keptName rootAlias := by
  intro h
  have hroot : (keptName rootAlias).toList.head? = some 'r' := by decide +kernel
  rw [← h, toList_keptName hp] at hroot
  unfold tableAlias at hroot
  rw [toList_concat] at hroot
  simp [keptOctets] at hroot

include hq hpn hqn

theorem keptName_eq_iff (hne : p ≠ q) :
    keptName p.tableAlias = keptName q.tableAlias ↔ p.Clash q := by
  rw [← String.toList_inj, toList_keptName hp, toList_keptName hq]
  constructor
  · intro h
    have hlength := congrArg List.length h
    rw [List.length_take, List.length_take, length_tableAlias hpn, length_tableAlias hqn] at hlength
    by_cases hlong : keptOctets ≤ p.octets ∧ keptOctets ≤ q.octets
    · exact ⟨hlong.1, hlong.2, h⟩
    · -- one of them is kept whole, so both are, and they are the same
      have hshort : p.octets ≤ keptOctets ∧ q.octets ≤ keptOctets := by omega
      rw [List.take_of_length_le (length_tableAlias hpn ▸ hshort.1),
        List.take_of_length_le (length_tableAlias hqn ▸ hshort.2)] at h
      exact absurd (tableAlias_injective hp hq hpn hqn (String.toList_inj.1 h)) hne
  · exact fun h => h.2.2

end

end Path

/-! ### the aliases of joins -/

variable {schema : Schema} {root e : Entity} {rs : List Relationship}

/-- a cycle can be gone around any number of times -/
theorem Walk.cycle (h : Walk schema e rs e) (n : Nat) :
    Walk schema e (List.replicate n rs).flatten e := by
  induction n with
  | zero => exact .here e
  | succ n ih => exact h.append ih

/-- a path around a cycle has three octets or more for each time -/
theorem Path.le_octets_cycle (hs : schema.WellFormed) (he : e ∈ schema.entities)
    (h : Walk schema e rs e) (hne : rs ≠ []) (n : Nat) :
    3 * n ≤ Path.octets (pathOf (List.replicate n rs).flatten) := by
  have honce : 3 ≤ Path.octets (pathOf rs) := by
    obtain ⟨r, rs, rfl⟩ := List.exists_cons_of_ne_nil hne
    have hname := ne_empty_of_isIdentifier
      (h.names_identifiers hs he r.name (List.mem_map_of_mem List.mem_cons_self))
    have hlength : 0 < r.name.length := Nat.pos_of_ne_zero fun hzero =>
      hname (String.length_eq_zero_iff.1 hzero)
    rw [pathOf, List.map_cons, Path.octets_cons]
    omega
  induction n with
  | zero => exact Nat.zero_le _
  | succ n ih =>
    have hsucc : pathOf (List.replicate (n + 1) rs).flatten =
        pathOf rs ++ pathOf (List.replicate n rs).flatten := by
      simp [pathOf, List.replicate_succ]
    rw [hsucc, Path.octets_append]
    omega

section

variable (hs : schema.WellFormed) (hroot : root ∈ schema.entities) {paths : List Path} {js : Joins}
  (h : resolveJoins schema root paths = .ok js)

include hs hroot h

theorem names_of_mem_paths {p : Path} (hp : p ∈ js.paths) :
    p ≠ [] ∧ ∀ name ∈ p, isIdentifier name = true := by
  obtain ⟨qs, r, next, hw, _, rfl⟩ := (mem_paths_iff_walk hs hroot h).1 hp
  exact ⟨pathOf_concat_ne_nil qs r, hw.names_identifiers hs hroot⟩

/-- the aliases of joins are those of their paths -/
theorem tableAliases_eq : js.values.map (·.tableAlias) = js.paths.map Path.tableAlias := by
  unfold Joins.paths Dict.keys Dict.values
  rw [List.map_map, List.map_map, List.map_map]
  refine List.map_congr_left fun entry hentry => ?_
  obtain ⟨qs, r, next, hw, _, rfl⟩ := (mem_entries_iff hs hroot h).1 hentry
  simp only [Function.comp_apply]
  rw [splitBy_joinAt hs hroot hw, joinAt_tableAlias]

/-- the aliases are kept apart unless two paths clash -/
theorem nodup_keptAliases_iff :
    js.keptAliases.Nodup ↔ ∀ p ∈ js.paths, ∀ q ∈ js.paths, p ≠ q → ¬ p.Clash q := by
  have hnames := fun {p} (hp : p ∈ js.paths) => names_of_mem_paths hs hroot h hp
  have hnodup := (prefixesOf_resolveJoins hs hroot h).nodup
  unfold Joins.keptAliases
  rw [tableAliases_eq hs hroot h, List.map_cons, List.map_map, List.nodup_cons,
    List.nodup_map_iff_inj_on hnodup]
  have hapart : keptName rootAlias ∉ js.paths.map (keptName ∘ Path.tableAlias) := by
    intro hin
    obtain ⟨p, hp, hsame⟩ := List.mem_map.1 hin
    exact Path.keptName_ne_root (hnames hp).2 hsame
  rw [and_iff_right hapart]
  refine forall₄_congr fun p hp q hq => ?_
  by_cases hne : p = q
  · simp [hne]
  · have hclash := Path.keptName_eq_iff (hnames hp).2 (hnames hq).2 (hnames hp).1 (hnames hq).1 hne
    rw [Function.comp_apply, Function.comp_apply, hclash]
    simp [hne]

/-- paths whose aliases are kept whole do not clash -/
theorem nodup_keptAliases_of_short (hshort : ∀ p ∈ paths, p.octets ≤ keptOctets) :
    js.keptAliases.Nodup := by
  have hall : ∀ q ∈ js.paths, q.tableAlias.toList.length ≤ keptOctets := by
    intro q hq
    obtain ⟨hne, p, hp, rest, rfl⟩ := (mem_paths_iff hs hroot h).1 hq
    have hlong := hshort _ hp
    rw [Path.octets_append] at hlong
    rw [Path.length_tableAlias hne]
    omega
  refine (nodup_keptAliases_iff hs hroot h).2 fun p hp q hq hne hclash => hne ?_
  obtain ⟨hpn, hpi⟩ := names_of_mem_paths hs hroot h hp
  obtain ⟨hqn, hqi⟩ := names_of_mem_paths hs hroot h hq
  have hsame := hclash.2.2
  rw [List.take_of_length_le (hall p hp), List.take_of_length_le (hall q hq)] at hsame
  exact Path.tableAlias_injective hpi hqi hpn hqn (String.toList_inj.1 hsame)

/-- a path that goes on where no more is kept clashes with the path that it goes on from -/
theorem octets_lt_of_nodup (hnodup : js.keptAliases.Nodup) {p rest : Path} (hrest : rest ≠ [])
    (hp : p ++ rest ∈ js.paths) : p.octets < keptOctets := by
  by_contra hlong
  have hpn : p ≠ [] := by
    rintro rfl
    exact hlong (by decide)
  have hbefore : p ∈ js.paths := by
    obtain ⟨_, whole, hwhole, hpre⟩ := (mem_paths_iff hs hroot h).1 hp
    exact (mem_paths_iff hs hroot h).2 ⟨hpn, whole, hwhole, (List.prefix_append p rest).trans hpre⟩
  refine (nodup_keptAliases_iff hs hroot h).1 hnodup p hbefore (p ++ rest) hp ?_
    (Path.clash_append hpn (Nat.le_of_not_lt hlong) rest)
  exact fun hsame => hrest (List.self_eq_append_right.1 hsame)

end

/-- the paths around a cycle that some path leads to: after twenty-two times, aliases clash -/
theorem not_nodup_keptAliases_of_cycle (hs : schema.WellFormed) (hroot : root ∈ schema.entities)
    {qs : List Relationship} (hlead : Walk schema root qs e) (hcycle : Walk schema e rs e)
    (hne : rs ≠ []) {n : Nat} (hn : 22 ≤ n) :
    ∃ js, resolveJoins schema root [pathOf (qs ++ (List.replicate n rs).flatten)] = .ok js ∧
      ¬ js.keptAliases.Nodup := by
  have hwalk := hlead.append (hcycle.cycle n)
  obtain ⟨js, hjs, _⟩ := resolveJoins_of_walk hwalk hs hroot
  refine ⟨js, hjs, fun hnodup => ?_⟩
  -- twenty-one times around are enough to fill what is kept, and the path goes on from there
  have hsplit : pathOf (qs ++ (List.replicate n rs).flatten) =
      (pathOf qs ++ pathOf (List.replicate 21 rs).flatten) ++
        pathOf (List.replicate (n - 21) rs).flatten := by
    rw [show n = 21 + (n - 21) by omega, List.replicate_add, List.flatten_append]
    simp [pathOf]
  have hmore : pathOf (List.replicate (n - 21) rs).flatten ≠ [] := by
    obtain ⟨m, hm⟩ : ∃ m, n - 21 = m + 1 := ⟨n - 22, by omega⟩
    rw [hm]
    simp [pathOf, List.replicate_succ, hne]
  have hin : pathOf (qs ++ (List.replicate n rs).flatten) ∈ js.paths := by
    refine (mem_paths_iff hs hroot hjs).2 ⟨?_, _, List.mem_singleton_self _, List.prefix_refl _⟩
    rw [hsplit]
    exact List.append_ne_nil_of_right_ne_nil _ hmore
  rw [hsplit] at hin
  have hshort := octets_lt_of_nodup hs hroot hjs hnodup hmore hin
  have hlong := Path.le_octets_cycle hs (hlead.mem hroot) hcycle hne 21
  rw [Path.octets_append] at hshort
  unfold keptOctets at hshort
  omega

/-- the aliases of joins are apart in the database exactly if no two paths have aliases of 63 octets
or more that agree in the first 63; so they are as long as no alias is longer than 63 octets, and
they are not if a path goes on from one whose alias has 63, which happens on every path that goes
around a cycle of relationships twenty-two times -/
theorem aliases_kept_apart_iff {d : Document} (hd : d.resolve = .ok schema)
    (hroot : root ∈ schema.entities) :
    (∀ paths js, resolveJoins schema root paths = .ok js →
      (js.keptAliases.Nodup ↔ ∀ p ∈ js.paths, ∀ q ∈ js.paths, p ≠ q → ¬ p.Clash q) ∧
      ((∀ p ∈ paths, Path.octets p ≤ keptOctets) → js.keptAliases.Nodup) ∧
      (js.keptAliases.Nodup → ∀ p rest, rest ≠ [] → p ++ rest ∈ js.paths →
        Path.octets p < keptOctets)) ∧
    ∀ qs rs e, Walk schema root qs e → Walk schema e rs e → rs ≠ [] → ∀ n, 22 ≤ n →
      ∃ js, resolveJoins schema root [pathOf (qs ++ (List.replicate n rs).flatten)] = .ok js ∧
        ¬ js.keptAliases.Nodup := by
  have hs := Document.wellFormed_of_resolve hd
  refine ⟨fun paths js hjs => ⟨nodup_keptAliases_iff hs hroot hjs,
    nodup_keptAliases_of_short hs hroot hjs, fun hnodup p rest hrest hp =>
      octets_lt_of_nodup hs hroot hjs hnodup hrest hp⟩, fun qs rs e hlead hcycle hne n hn => ?_⟩
  exact not_nodup_keptAliases_of_cycle hs hroot hlead hcycle hne hn

/-- up to seven notes up, the aliases are apart; after twenty-five they are not -/
theorem notes_kept_apart :
    (∃ js, resolveJoins notesSchema notesEntity
        [["parent", "replies"], List.replicate 7 "parent"] = .ok js ∧ js.keptAliases.Nodup) ∧
    ∃ js, resolveJoins notesSchema notesEntity [List.replicate 25 "parent"] = .ok js ∧
      ¬ js.keptAliases.Nodup := by
  have hnotes : notesEntity ∈ notesSchema.entities := List.mem_singleton_self _
  obtain ⟨hresolved, hcycles⟩ := aliases_kept_apart_iff resolve_notesDocument hnotes
  have hshort : ∀ p ∈ [["parent", "replies"], List.replicate 7 "parent"],
      Path.octets p ≤ keptOctets := by decide +kernel
  have hparent : Walk notesSchema notesEntity
      [⟨"parent", .manyToOne, "notes", "parent_id", "id", none⟩] notesEntity :=
    .step List.mem_cons_self hnotes rfl (.here _)
  refine ⟨⟨_, rfl, (hresolved _ _ rfl).2.1 hshort⟩, ?_⟩
  exact hcycles [] _ _ (.here _) hparent (List.cons_ne_nil _ _) 25 (by decide)

/-- nine notes up, the alias of the eighth is that of the ninth in the database -/
theorem aliases_clash : ∃ js,
    notesDocument.resolve = .ok notesSchema ∧ notesEntity ∈ notesSchema.entities ∧
      resolveJoins notesSchema notesEntity [List.replicate 9 "parent"] = .ok js ∧
      keptName (Path.tableAlias (List.replicate 8 "parent")) =
        keptName (Path.tableAlias (List.replicate 9 "parent")) ∧
      ¬ js.keptAliases.Nodup := by
  have hs := Document.wellFormed_of_resolve resolve_notesDocument
  have hnotes : notesEntity ∈ notesSchema.entities := List.mem_singleton_self _
  obtain ⟨js, hjs⟩ : ∃ js, resolveJoins notesSchema notesEntity [List.replicate 9 "parent"] =
      .ok js := ⟨_, rfl⟩
  have hin : List.replicate 8 "parent" ++ ["parent"] ∈ js.paths :=
    (mem_paths_iff hs hnotes hjs).2 ⟨List.append_ne_nil_of_right_ne_nil _ (List.cons_ne_nil _ _), _,
      List.mem_singleton_self _, List.prefix_refl _⟩
  refine ⟨js, resolve_notesDocument, hnotes, hjs, by decide +kernel, fun hnodup => ?_⟩
  have hshort := octets_lt_of_nodup hs hnotes hjs hnodup (List.cons_ne_nil _ _) hin
  revert hshort
  decide +kernel

end EntityAccess
