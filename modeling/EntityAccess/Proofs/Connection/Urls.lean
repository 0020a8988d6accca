import EntityAccess.Connection.Options
import EntityAccess.Proofs.Filter.Rendering
import Mathlib.Data.List.TakeWhile

/-!
# URLs that name a database

A URL of a scheme, an authority, a name and perhaps a query.  If nothing in it has a meaning of its
own, the name is the path that is read, and the options of two such URLs that differ in their names
differ in their databases.

* `cutBefore_append_of_not_mem` : a cut is past a text without the character;
* `DatabaseUrl` : the parts of a URL, with a name that is one segment;
* `DatabaseUrl.Readable` : nothing in front of the query is read as anything else;
* `read?_text` : the path is the name;
* `ofUrl?_text` : the options, put together from those of the authority, the name and the fields;
* `foldlM_addField` : fields change a database only by naming one;
* `exists_of_ofUrl?` : the options of a URL and those of its admin database.
-/

namespace EntityAccess.Connection

open Text (toList_concat)

/-! ### cuts -/

theorem cutBefore_append_of_not_mem {stops cs : List Char} (h : ∀ c ∈ cs, c ∉ stops)
    (rest : List Char) : Url.cutBefore stops (cs ++ rest) =
      (cs ++ (Url.cutBefore stops rest).1, (Url.cutBefore stops rest).2) := by
  have hpass : ∀ c ∈ cs, (!stops.contains c) = true := fun c hc => by simpa using h c hc
  unfold Url.cutBefore
  rw [List.takeWhile_append_of_pos hpass, List.dropWhile_append_of_pos hpass]

theorem cutBefore_cons_of_mem {stops : List Char} {c : Char} (h : c ∈ stops) (rest : List Char) :
    Url.cutBefore stops (c :: rest) = ([], c :: rest) := by
  simp [Url.cutBefore, h]

-- the characters of a text are run through, and not those there are
theorem forall_of_all {p : Char → Prop} [DecidablePred p] {s : String}
    (h : s.toList.all (fun c => p c) = true) : ∀ c ∈ s.toList, p c := by
  simpa using h

/-! ### parts of a URL -/

/-- a URL that names a database of a server -/
structure DatabaseUrl where
  scheme : String
  authority : String
  name : String
  query : Option String
  authority_plain : ∀ c ∈ authority.toList, c ≠ '/' ∧ c ≠ '?'
  name_plain : ∀ c ∈ name.toList, c ≠ '/' ∧ c ≠ '?'
  name_ne_empty : name ≠ ""
  name_trimmed : Text.trim name = name

namespace DatabaseUrl

/-- a query, behind its question mark -/
def tail (u : DatabaseUrl) : String := u.query.elim "" fun query => Text.concat ["?", query]

def text (u : DatabaseUrl) : String :=
  Text.concat [u.scheme, "://", u.authority, "/", u.name, u.tail]

/-- the URL of the database that every server has -/
def admin (u : DatabaseUrl) : DatabaseUrl :=
  { u with
    name := adminDatabase
    name_plain := forall_of_all rfl
    name_ne_empty := by decide
    name_trimmed := by decide }

/-- the text in front of the name -/
def front (u : DatabaseUrl) : List Char :=
  u.scheme.toList ++ ':' :: '/' :: '/' :: u.authority.toList

variable {u : DatabaseUrl}

theorem toList_text (u : DatabaseUrl) :
    u.text.toList = u.front ++ '/' :: (u.name.toList ++ u.tail.toList) := by
  unfold text front
  rw [toList_concat]
  simp

theorem tail_of_query {query : String} (h : u.query = some query) :
    u.tail.toList = '?' :: query.toList := by
  unfold tail
  rw [h]
  simp

theorem tail_cases (u : DatabaseUrl) :
    u.query = none ∧ u.tail.toList = [] ∨
      ∃ query, u.query = some query ∧ u.tail.toList = '?' :: query.toList := by
  cases hquery : u.query with
  | none => exact .inl ⟨rfl, by rw [tail, hquery]; rfl⟩
  | some query => exact .inr ⟨query, rfl, tail_of_query hquery⟩

/-- what stands before the query of a URL is cut off at the question mark -/
theorem cutBefore_tail (u : DatabaseUrl) : Url.cutBefore ['?'] u.tail.toList =
    ([], u.tail.toList) := by
  rcases u.tail_cases with ⟨_, htail⟩ | ⟨query, _, htail⟩
  · rw [htail]
    rfl
  · rw [htail]
    exact cutBefore_cons_of_mem (by simp) _

/-- nothing before the query is read as anything else than it is: a scheme that is none of the web
and none of files, characters that are kept, and no segment that leads upwards or nowhere -/
structure Readable (u : DatabaseUrl) : Prop where
  scheme : Url.splitScheme? (u.scheme.toList ++ [':']) = some (.other, [])
  visible : ∀ c ∈ u.text.toList, 32 < c.toNat
  authority_chars : ∀ c ∈ u.authority.toList, c ≠ '#' ∧ c ≠ '\\'
  name_chars : ∀ c ∈ u.name.toList, c ≠ '#'
  name_down : Path.direction u.name.toList = .down

theorem readable_admin (h : u.Readable) : u.admin.Readable := by
  have hname : ∀ c ∈ adminDatabase.toList, 32 < c.toNat ∧ c ≠ '#' := forall_of_all rfl
  have hdown : Path.direction adminDatabase.toList = .down := by decide
  refine ⟨h.scheme, fun c hc => ?_, h.authority_chars, fun c hc => (hname c hc).2, hdown⟩
  have hvisible := h.visible c
  rw [toList_text, List.mem_append, List.mem_cons, List.mem_append] at hc hvisible
  rcases hc with hc | hc | hc | hc
  · exact hvisible (.inl hc)
  · exact hvisible (.inr (.inl hc))
  · exact (hname c hc).1
  · exact hvisible (.inr (.inr (.inr hc)))

/-- the query as far as it is read -/
def queryText (u : DatabaseUrl) : List Char := (Url.cutBefore ['#'] u.tail.toList).1.drop 1

def fields (u : DatabaseUrl) : List (String × String) :=
  Text.readForm (String.ofList u.queryText)

end DatabaseUrl

/-! ### reading -/

theorem cleaned_of_visible {s : String} (h : ∀ c ∈ s.toList, 32 < c.toNat) :
    Url.cleaned s = s.toList := by
  have hkept : ∀ cs : List Char, (∀ c ∈ cs, 32 < c.toNat) →
      cs.dropWhile (fun c : Char => c.toNat ≤ 32) = cs := by
    intro cs hcs
    cases cs with
    | nil => rfl
    | cons c cs =>
      refine List.dropWhile_cons_of_neg ?_
      simpa using hcs c List.mem_cons_self
  unfold Url.cleaned
  dsimp only
  rw [hkept _ h, hkept _ fun c hc => h c (List.mem_reverse.1 hc), List.reverse_reverse]
  refine List.filter_eq_self.2 fun c hc => ?_
  have hvisible := h c hc
  rw [decide_eq_true_eq]
  refine ⟨?_, ?_, ?_⟩ <;> rintro rfl <;> exact absurd hvisible (by decide)

theorem splitScheme?_append {scheme : List Char} {kind : Url.Scheme}
    (h : Url.splitScheme? (scheme ++ [':']) = some (kind, [])) (rest : List Char) :
    Url.splitScheme? (scheme ++ ':' :: rest) = some (kind, rest) := by
  unfold Url.splitScheme? at h ⊢
  dsimp only at h ⊢
  generalize hp : (fun c : Char => c.isAlphanum || c == '+' || c == '-' || c == '.') = p at h ⊢
  have hcolon : p ':' = false := by rw [← hp]; decide
  split at h
  · next c name after htake hdrop =>
    split at h
    · next halpha =>
      obtain ⟨rfl, rfl⟩ := Prod.mk.inj (Option.some.inj h)
      have hscheme : scheme = c :: name := by
        have happ := List.takeWhile_append_dropWhile (p := p) (l := scheme ++ [':'])
        rw [htake, hdrop] at happ
        exact (List.append_cancel_right happ).symm
      have hpass : ∀ d ∈ scheme, p d = true := fun d hd =>
        List.mem_takeWhile_imp (by rw [htake, ← hscheme]; exact hd)
      rw [List.takeWhile_append_of_pos hpass, List.dropWhile_append_of_pos hpass,
        List.takeWhile_cons_of_neg (by simp [hcolon]),
        List.dropWhile_cons_of_neg (by simp [hcolon]), List.append_nil, hscheme]
      exact if_pos halpha
    · cases h
  · cases h

theorem suffix_of_splitCredentials? {cs credentials place : List Char} {isLast : Bool}
    (h : Url.splitCredentials? cs isLast = some (credentials, place)) : place <:+ cs := by
  unfold Url.splitCredentials? at h
  split at h
  · split at h
    · obtain ⟨_, rfl⟩ := Prod.mk.inj (Option.some.inj h)
      exact List.nil_suffix
    · cases h
  · next hcut =>
    obtain ⟨_, rfl⟩ := Prod.mk.inj (Option.some.inj h)
    rw [Text.append_of_lastCut hcut]
    exact List.suffix_append _ _
  · obtain ⟨_, rfl⟩ := Prod.mk.inj (Option.some.inj h)
    exact List.suffix_refl _

theorem suffix_splitHost (cs : List Char) : (Url.splitHost cs).2 <:+ cs := by
  unfold Url.splitHost
  split
  · exact (List.dropWhile_suffix _).trans (List.dropWhile_suffix _)
  · exact List.dropWhile_suffix _

theorem rest_of_readAuthority? {kind : Url.Scheme} {cs : List Char} {isLast : Bool}
    {a : Url.Authority} (hcs : '\\' ∉ cs) (h : Url.readAuthority? kind cs isLast = some a) :
    a.rest = [] := by
  unfold Url.readAuthority? at h
  obtain ⟨⟨credentials, place⟩, hsplit, h⟩ := Option.bind_eq_some_iff.1 h
  have hrest : (Url.cutBefore ['\\'] ((Url.splitHost place).2.drop 1)).2 = [] := by
    have hsuffix := ((List.drop_suffix 1 _).trans (suffix_splitHost place)).trans
      (suffix_of_splitCredentials? hsplit)
    refine List.dropWhile_eq_nil_iff.2 fun c hc => ?_
    have hne : c ≠ '\\' := fun heq => hcs (heq ▸ hsuffix.subset hc)
    simpa using hne
  dsimp only at h
  have hend : ∀ {port? : Option (Option Nat)} {build : Option Nat → Url.Authority},
      (do let port ← port?; some (build port)) = some a → ∃ port, a = build port := by
    intro port? build hbuild
    obtain ⟨port, _, hport⟩ := Option.bind_eq_some_iff.1 hbuild
    exact ⟨port, (Option.some.inj hport).symm⟩
  split at h
  · split at h
    · cases h
    · obtain ⟨port, rfl⟩ := hend h
      exact hrest
  · split at h
    · cases h
    · obtain ⟨port, rfl⟩ := hend h
      exact hrest

theorem pathText_segment {name : List Char} (hslash : '/' ∉ name)
    (hdown : Path.direction name = .down) : Url.pathText .other ('/' :: name) = name := by
  have hmap : ('/' :: name).map (fun c => if Url.Scheme.other.slashes.contains c then '/' else c) =
      '/' :: name := by
    refine List.map_id'' (fun c => ?_) _
    simp only [Url.Scheme.slashes, List.contains_cons, List.contains_nil, Bool.or_false, beq_iff_eq]
    split
    · next heq => exact heq.symm
    · rfl
  have hpieces : Text.pieces ['/'] name = [name] := by
    have hsingle : ['/'].intercalate [name] = name := List.intercalate_singleton ..
    conv_lhs => rw [← hsingle]
    exact Text.pieces_singleton (List.cons_ne_nil _ _) (by simpa using hslash)
  unfold Url.pathText
  dsimp only
  rw [hmap, if_neg (by decide)]
  change Path.text (Path.resolve (Text.pieces ['/'] name)) = name
  rw [hpieces, Path.resolve_of_plain (by simpa using hdown)]
  unfold Path.text
  rw [List.intercalate_singleton]
  cases name with
  | nil => rfl
  | cons c name =>
    have hc : '/' ≠ c := fun heq => hslash (heq ▸ List.mem_cons_self)
    exact List.dropWhile_cons_of_neg (by simpa using hc.symm)

variable {u : DatabaseUrl}

/-- the scheme and its colon are read first -/
theorem splitScheme?_text (h : u.Readable) : Url.splitScheme? (Url.cleaned u.text) = some (.other,
    '/' :: '/' :: (u.authority.toList ++ '/' :: (u.name.toList ++ u.tail.toList))) := by
  rw [cleaned_of_visible h.visible, u.toList_text]
  unfold DatabaseUrl.front
  rw [List.append_assoc, List.cons_append]
  exact splitScheme?_append h.scheme _

/-- the authority ends at the slash in front of the name -/
theorem cutBefore_authority (h : u.Readable) (rest : List Char) :
    Url.cutBefore ('?' :: '#' :: Url.Scheme.other.slashes) (u.authority.toList ++ '/' :: rest) =
      (u.authority.toList, '/' :: rest) := by
  have hauthority : ∀ c ∈ u.authority.toList, c ∉ '?' :: '#' :: Url.Scheme.other.slashes := by
    intro c hc
    have hplain := u.authority_plain c hc
    have hchars := h.authority_chars c hc
    simp [Url.Scheme.slashes, hplain, hchars]
  rw [cutBefore_append_of_not_mem hauthority, cutBefore_cons_of_mem (by decide), List.append_nil]

/-- the path ends at the question mark behind the name -/
theorem pathAndQuery_name (h : u.Readable) :
    Url.pathAndQuery ('/' :: (u.name.toList ++ u.tail.toList)) =
      ('/' :: u.name.toList, u.queryText) := by
  have hname : ∀ c ∈ '/' :: u.name.toList, c ∉ ['#'] ∧ c ∉ ['?'] := by
    refine List.forall_mem_cons.2 ⟨by decide, fun c hc => ?_⟩
    simp [(u.name_plain c hc).2, h.name_chars c hc]
  have hpassHash := cutBefore_append_of_not_mem (fun c hc => (hname c hc).1) u.tail.toList
  have hpassMark := cutBefore_append_of_not_mem (fun c hc => (hname c hc).2)
    (Url.cutBefore ['#'] u.tail.toList).1
  have hshown : Url.cutBefore ['?'] (Url.cutBefore ['#'] u.tail.toList).1 =
      ([], (Url.cutBefore ['#'] u.tail.toList).1) := by
    rcases u.tail_cases with ⟨_, htail⟩ | ⟨query, _, htail⟩
    · rw [htail]
      rfl
    · rw [htail, show ('?' :: query.toList) = ['?'] ++ query.toList from rfl,
        cutBefore_append_of_not_mem (by simp)]
      exact cutBefore_cons_of_mem (by decide) _
  unfold Url.pathAndQuery
  rw [← List.cons_append, hpassHash]
  dsimp only
  rw [hpassMark, hshown, List.append_nil]
  rfl

/-- a readable URL is read as its parts: the path is the name -/
theorem read?_text (h : u.Readable) :
    Url.read? u.text = (Url.readAuthority? .other u.authority.toList false).map fun a =>
      ⟨if a.host = [] then none else some a.host, a.port, a.user, a.password, u.name.toList,
        u.queryText⟩ := by
  unfold Url.read?
  rw [splitScheme?_text h]
  change Url.readFromAuthority? .other _ = _
  unfold Url.readFromAuthority?
  rw [cutBefore_authority h]
  dsimp only
  rw [pathAndQuery_name h, show decide ('/' :: (u.name.toList ++ u.tail.toList) = []) = false from
    rfl]
  cases ha : Url.readAuthority? .other u.authority.toList false with
  | none => rfl
  | some a =>
    have hrest := rest_of_readAuthority? (fun hc => (h.authority_chars _ hc).2 rfl) ha
    have hslash : '/' ∉ u.name.toList := fun hc => (u.name_plain _ hc).1 rfl
    simp only [Option.bind_eq_bind, Option.bind_some, Option.map_some]
    rw [hrest, List.nil_append, pathText_segment hslash h.name_down]

/-! ### options -/

namespace Options

/-- the options of an authority -/
def ofAuthority? (authority : List Char) : Option Options := do
  let a ← Url.readAuthority? .other authority false
  let o ← (if a.host = [] then none else some a.host).elim (some default) default.withHost?
  let user ← decoded? a.user
  let password ← decoded? a.password
  some { o with
    port := a.port.getD o.port
    user := if user = "" then o.user else user
    password := if password = "" then o.password else some password }

/-- the options of a readable URL come of its authority, its name and the fields of its query -/
theorem ofUrl?_text (h : u.Readable) :
    ofUrl? u.text = (ofAuthority? u.authority.toList).bind fun o =>
      (decoded? u.name.toList).bind fun name =>
        u.fields.foldlM addField { o with database := if name = "" then none else some name } := by
  unfold ofUrl? ofAuthority?
  rw [read?_text h]
  cases Url.readAuthority? .other u.authority.toList false with
  | none => rfl
  | some a =>
    simp only [Option.map_some, Option.bind_eq_bind, Option.bind_some, Option.bind_assoc]
    rfl

/-- the database that fields name last, or the one before them -/
def databaseOf (fields : List (String × String)) (d : Option String) : Option String :=
  fields.foldl (fun d field => if field.1 = "dbname" then some field.2 else d) d

theorem addField_dbname (o : Options) (value : String) :
    o.addField ("dbname", value) = some { o with database := some value } := rfl

/-- a field that names no database leaves it as it is, and does not depend on it -/
theorem addField_of_ne (o : Options) {field : String × String} (h : field.1 ≠ "dbname")
    (d : Option String) : addField { o with database := d } field =
      (o.addField field).map fun o' => { o' with database := d } := by
  obtain ⟨key, value⟩ := field
  have hserver : ∀ name : String, withServer { o with database := d } name =
      { o.withServer name with database := d } := by
    intro name
    unfold withServer
    split
    · rfl
    · rfl
  unfold addField
  dsimp only
  split
  · cases requiresTls? value <;> rfl
  · cases requiresTls? value <;> rfl
  · cases readBounded? Number.maxUnsigned value <;> rfl
  · rw [hserver, Option.map_some]
  · split
    · rfl
    · rfl
  · cases readBounded? 65535 value <;> rfl
  · exact absurd rfl h
  · rfl
  · rfl
  · rfl
  · cases o.options <;> rfl
  · split
    · rfl
    · rfl

/-- fields change the database only by naming one, and nothing else depends on it -/
theorem foldlM_addField (fields : List (String × String)) (o : Options) (d : Option String) :
    fields.foldlM addField { o with database := d } =
      (fields.foldlM addField o).map fun o' => { o' with database := databaseOf fields d } := by
  induction fields generalizing o d with
  | nil => rfl
  | cons field fields ih =>
    rw [List.foldlM_cons, List.foldlM_cons]
    obtain ⟨key, value⟩ := field
    by_cases hkey : key = "dbname"
    · subst hkey
      simp only [addField_dbname, Option.bind_eq_bind, Option.bind_some]
      rw [ih, ih]
      simp only [Option.map_map]
      rfl
    · rw [addField_of_ne o hkey]
      cases o.addField (key, value) with
      | none => rfl
      | some o' =>
        simp only [Option.map_some, Option.bind_eq_bind, Option.bind_some]
        rw [ih, databaseOf, databaseOf, List.foldl_cons, if_neg hkey]

theorem databaseOf_of_unnamed {fields : List (String × String)}
    (h : ∀ field ∈ fields, field.1 ≠ "dbname") (d : Option String) :
    databaseOf fields d = d := by
  unfold databaseOf
  induction fields with
  | nil => rfl
  | cons field fields ih =>
    obtain ⟨hfield, hfields⟩ := List.forall_mem_cons.1 h
    rw [List.foldl_cons, if_neg hfield, ih hfields]

/-- a database that is named hides the one before -/
theorem databaseOf_of_named {fields : List (String × String)} {field : String × String}
    (hmem : field ∈ fields) (hkey : field.1 = "dbname") (d d' : Option String) :
    databaseOf fields d = databaseOf fields d' := by
  unfold databaseOf
  induction fields generalizing d d' with
  | nil => cases hmem
  | cons other fields ih =>
    rw [List.foldl_cons, List.foldl_cons]
    rcases List.mem_cons.1 hmem with rfl | hmem
    · rw [if_pos hkey, if_pos hkey]
    · exact ih hmem _ _

/-- both connections are to the same server, by the same user -/
structure SameServer (o o' : Options) : Prop where
  host : o.host = o'.host
  socket : o.socket = o'.socket
  port : o.port = o'.port
  user : o.user = o'.user
  password : o.password = o'.password
  requiresTls : o.requiresTls = o'.requiresTls

theorem SameServer.trans {o o' o'' : Options} (h : SameServer o o') (h' : SameServer o' o'') :
    SameServer o o'' :=
  ⟨h.host.trans h'.host, h.socket.trans h'.socket, h.port.trans h'.port, h.user.trans h'.user,
    h.password.trans h'.password, h.requiresTls.trans h'.requiresTls⟩

theorem sameServer_database (o : Options) (d d' : Option String) :
    SameServer { o with database := d } { o with database := d' } :=
  ⟨rfl, rfl, rfl, rfl, rfl, rfl⟩

/-- the options of a URL and those of its admin database differ in the database only -/
theorem exists_of_ofUrl? {o : Options} (h : u.Readable) (ho : ofUrl? u.text = some o) :
    ∃ (name : String) (a : Options), decoded? u.name.toList = some name ∧
      ofUrl? u.admin.text = some a ∧ a.SameServer o ∧
      o.database = databaseOf u.fields (if name = "" then none else some name) ∧
      a.database = databaseOf u.fields (some adminDatabase) := by
  rw [ofUrl?_text h] at ho
  obtain ⟨base, hbase, ho⟩ := Option.bind_eq_some_iff.1 ho
  obtain ⟨name, hname, ho⟩ := Option.bind_eq_some_iff.1 ho
  rw [foldlM_addField] at ho
  obtain ⟨server, hserver, rfl⟩ := Option.map_eq_some_iff.1 ho
  have hadmin : decoded? u.admin.name.toList = some adminDatabase := by
    show decoded? adminDatabase.toList = _
    decide
  have hauthority : ofAuthority? u.admin.authority.toList = some base := hbase
  have hfields : u.admin.fields = u.fields := rfl
  refine ⟨name, { server with database := databaseOf u.fields (some adminDatabase) }, hname, ?_,
    sameServer_database server _ _, ?_, ?_⟩
  · rw [ofUrl?_text (u.readable_admin h), hauthority, Option.bind_some, hadmin, Option.bind_some,
      foldlM_addField, hfields, hserver, Option.map_some, if_neg (by decide)]
  · dsimp only
  · dsimp only

end Options

end EntityAccess.Connection
