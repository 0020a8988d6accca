import EntityAccess.Proofs.Connection.Urls

/-!
# databases that are made sure of

The URL of the admin database and the name of a database are told apart at the last slash of a URL.
That is the slash before the name, unless the query has one.

* `lastCut_append_of_not_mem`, `exists_cut_of_mem` : where the last slash is;
* `splitDatabase_of_plain`, `splitDatabase_of_slash` : the two sides of it;
* `ofSettings_eq_ok` : a pooled connection goes where its URL says, and to its database;
* `split_at_name_iff` : the URLs that are cut in front of the name, and when the database that is
  created there is the one of the pooled connections.
-/

namespace EntityAccess.Connection

open Outcome

/-! ### the last slash -/

theorem lastCut_append_of_not_mem {c : Char} {after : List Char} (h : c ∉ after)
    (before : List Char) : Text.lastCut [c] (before ++ c :: after) = some (before, after) := by
  have hnone : Text.lastCut [c] after = none :=
    (Text.lastCut_eq_none_iff (by simp)).2 fun hin => h (hin.subset (List.mem_singleton_self c))
  have hself : Text.lastCut [c] (c :: after) = some ([], after) := by
    rw [Text.lastCut_cons, hnone]
    simp [Text.afterStart]
  rw [Text.lastCut_append_some hself, List.append_nil]

theorem exists_cut_of_mem {c : Char} {cs : List Char} (h : c ∈ cs) :
    ∃ before after, cs = before ++ c :: after ∧ c ∉ after := by
  obtain ⟨front, back, hcs, hnot⟩ := List.eq_append_cons_of_mem (List.mem_reverse.2 h)
  refine ⟨back.reverse, front.reverse, ?_, fun hc => hnot (List.mem_reverse.1 hc)⟩
  rw [← List.reverse_reverse cs, hcs]
  simp

/-- a URL that is cut at its last slash -/
theorem splitDatabase_of_cut {url : String} {before after : List Char}
    (h : url.toList = before ++ '/' :: after) (hslash : '/' ∉ after) :
    splitDatabase url =
      .ok (String.ofList (before ++ '/' :: (adminDatabase.toList ++ (Url.cutBefore ['?'] after).2)),
        Text.trim (String.ofList (Url.cutBefore ['?'] after).1)) := by
  unfold splitDatabase
  rw [h, lastCut_append_of_not_mem hslash]
  dsimp only
  generalize Url.cutBefore ['?'] after = cut
  refine congrArg Except.ok (Prod.ext ?_ rfl)
  apply String.toList_inj.1
  rw [Text.toList_concat, String.toList_ofList]
  simp

namespace DatabaseUrl

variable {u : DatabaseUrl}

theorem cutBefore_name (u : DatabaseUrl) (rest : List Char) :
    Url.cutBefore ['?'] (u.name.toList ++ rest) =
      (u.name.toList ++ (Url.cutBefore ['?'] rest).1, (Url.cutBefore ['?'] rest).2) :=
  cutBefore_append_of_not_mem (fun c hc => by simpa using (u.name_plain c hc).2) rest

theorem text_admin (u : DatabaseUrl) :
    u.admin.text = String.ofList (u.front ++ '/' :: (adminDatabase.toList ++ u.tail.toList)) := by
  apply String.toList_inj.1
  rw [String.toList_ofList]
  exact u.admin.toList_text

/-- without a slash in its query a URL is cut in front of its name -/
theorem splitDatabase_of_plain (h : '/' ∉ u.tail.toList) :
    splitDatabase u.text = .ok (u.admin.text, u.name) := by
  have hslash : '/' ∉ u.name.toList ++ u.tail.toList := by
    rw [List.mem_append, not_or]
    exact ⟨fun hc => (u.name_plain _ hc).1 rfl, h⟩
  rw [splitDatabase_of_cut u.toList_text hslash, u.cutBefore_name, u.cutBefore_tail,
    List.append_nil, String.ofList_toList, u.name_trimmed, u.text_admin]

/-- else it is cut at the last slash of the query -/
theorem splitDatabase_of_slash {before last : List Char}
    (hcut : u.tail.toList = '?' :: (before ++ '/' :: last)) (hlast : '/' ∉ last) :
    splitDatabase u.text =
      .ok (String.ofList (u.front ++ '/' :: (u.name.toList ++ '?' :: (before ++
          '/' :: (adminDatabase.toList ++ (Url.cutBefore ['?'] last).2)))),
        Text.trim (String.ofList (Url.cutBefore ['?'] last).1)) := by
  have htext : u.text.toList =
      (u.front ++ '/' :: (u.name.toList ++ '?' :: before)) ++ '/' :: last := by
    rw [u.toList_text, hcut]
    simp
  rw [splitDatabase_of_cut htext hlast]
  simp

/-- cut at a slash of its query, a URL gives what it would be cut into in front of its name only if
both pieces are the name of the admin database -/
theorem split_of_slash_iff {before last : List Char}
    (hcut : u.tail.toList = '?' :: (before ++ '/' :: last)) (hlast : '/' ∉ last) :
    splitDatabase u.text = .ok (u.admin.text, u.name) ↔
      u.name = adminDatabase ∧ String.ofList (Url.cutBefore ['?'] last).1 = adminDatabase := by
  rw [splitDatabase_of_slash hcut hlast, u.text_admin, hcut]
  have hlasteq := Url.cutBefore_append ['?'] last
  generalize Url.cutBefore ['?'] last = cut at hlasteq ⊢
  obtain ⟨piece, rest⟩ := cut
  dsimp only at hlasteq ⊢
  constructor
  · intro heq
    obtain ⟨htext, -⟩ := Prod.mk.inj (Except.ok.inj heq)
    have hchars := List.append_cancel_left (String.ofList_injective htext)
    -- both names end at the question mark
    have hname := congrArg (Url.cutBefore ['?']) (List.cons.inj hchars).2
    have hadmin := u.admin.cutBefore_name ('?' :: (before ++ '/' :: last))
    rw [u.cutBefore_name, show adminDatabase.toList = u.admin.name.toList from rfl, hadmin,
      cutBefore_cons_of_mem (by decide), cutBefore_cons_of_mem (by decide), List.append_nil,
      List.append_nil] at hname
    obtain ⟨hname, hquery⟩ := Prod.mk.inj hname
    have hrest := (List.cons.inj (List.append_cancel_left (List.cons.inj hquery).2)).2
    rw [← hlasteq] at hrest
    refine ⟨String.toList_inj.1 hname, ?_⟩
    rw [← List.append_cancel_right hrest]
    exact String.ofList_toList
  · rintro ⟨hname, hpiece⟩
    have hpieceList : piece = adminDatabase.toList := by rw [← hpiece, String.toList_ofList]
    rw [hpiece, ← hlasteq, hpieceList]
    rw [← hname, u.name_trimmed]

end DatabaseUrl

/-! ### connections -/

namespace Options

/-- a pooled connection goes where its URL says, and to its database -/
theorem ofSettings_eq_ok {settings : Settings} {o : Options} (h : ofSettings settings = .ok o) :
    ∃ base, ofUrl? settings.databaseUrl = some base ∧ base.SameServer o ∧
      o.database = base.database := by
  unfold ofSettings ofUrl at h
  cases hbase : ofUrl? settings.databaseUrl with
  | none =>
    rw [hbase] at h
    cases h
  | some base =>
    rw [hbase] at h
    obtain rfl := Except.ok.inj h
    exact ⟨base, rfl, ⟨rfl, rfl, rfl, rfl, rfl, rfl⟩, rfl⟩

theorem exists_ofSettings (settings : Settings) {base : Options}
    (h : ofUrl? settings.databaseUrl = some base) : ∃ o, ofSettings settings = .ok o := by
  unfold ofSettings ofUrl
  rw [h]
  exact ⟨_, rfl⟩

end Options

/-- a database that is made sure of through a connection to the admin database -/
theorem ensureDatabase_of_split {url admin name : String} {o : Options}
    (h : splitDatabase url = .ok (admin, name)) (hne : name ≠ "") (hother : name ≠ adminDatabase)
    (hadmin : Options.ofUrl? admin = some o) :
    ensureDatabase url = .ok (some (o, createMissing name)) := by
  unfold ensureDatabase
  rw [h]
  simp only [bind, Except.bind]
  rw [if_neg (not_or.2 ⟨hne, hother⟩), Options.ofUrl, hadmin]
  rfl

theorem databases_iff {fields : List (String × String)} {name decoded : String}
    (hne : name ≠ "") (hother : name ≠ adminDatabase) :
    Options.databaseOf fields (some adminDatabase) = some adminDatabase ∧
        Options.databaseOf fields (if decoded = "" then none else some decoded) = some name ↔
      decoded = name ∧ ∀ field ∈ fields, field.1 ≠ "dbname" := by
  constructor
  · rintro ⟨hadmin, hname⟩
    have hunnamed : ∀ field ∈ fields, field.1 ≠ "dbname" := by
      intro field hmem hkey
      rw [Options.databaseOf_of_named hmem hkey _ (some adminDatabase), hadmin] at hname
      exact hother (Option.some.inj hname).symm
    rw [Options.databaseOf_of_unnamed hunnamed] at hname
    split at hname
    · cases hname
    · exact ⟨Option.some.inj hname, hunnamed⟩
  · rintro ⟨rfl, hunnamed⟩
    rw [Options.databaseOf_of_unnamed hunnamed, Options.databaseOf_of_unnamed hunnamed,
      if_neg hne]
    exact ⟨rfl, rfl⟩

/-- a URL is cut in front of its name exactly if its query has no slash, unless its name and what
the query has between its last slash and a question mark are both the name of the admin database.
Then a database of another name is created on a connection to the server of the pooled connections;
that is one to the admin database, and they are to the database that is created, exactly if there is
nothing to decode in the name and no field of the query names a database, where nothing before the
query is read as anything else than it is -/
theorem split_at_name_iff (u : DatabaseUrl) :
    (splitDatabase u.text = .ok (u.admin.text, u.name) ↔
      ∀ query before last, u.query = some query → query.toList = before ++ '/' :: last →
        '/' ∉ last → u.name = adminDatabase ∧
          String.ofList (Url.cutBefore ['?'] last).1 = adminDatabase) ∧
    ∀ settings o, '/' ∉ u.tail.toList → u.name ≠ adminDatabase → u.Readable →
      settings.databaseUrl = u.text → Options.ofSettings settings = .ok o →
      ∃ a, ensureDatabase u.text = .ok (some (a, createMissing u.name)) ∧ a.SameServer o ∧
        (a.database = some adminDatabase ∧ o.database = some u.name ↔
          Options.decoded? u.name.toList = some u.name ∧
            ∀ field ∈ u.fields, field.1 ≠ "dbname") := by
  refine ⟨⟨?_, fun h => ?_⟩, ?_⟩
  · intro hsplit query before last hquery hcut hlast
    have htail : u.tail.toList = '?' :: (before ++ '/' :: last) := by
      rw [DatabaseUrl.tail_of_query hquery, hcut]
    exact (DatabaseUrl.split_of_slash_iff htail hlast).1 hsplit
  · by_cases hslash : '/' ∈ u.tail.toList
    · rcases u.tail_cases with ⟨_, htail⟩ | ⟨query, hquery, htail⟩
      · rw [htail] at hslash
        cases hslash
      · rw [htail, List.mem_cons, or_iff_right (by decide)] at hslash
        obtain ⟨before, last, hcut, hlast⟩ := exists_cut_of_mem hslash
        rw [hcut] at htail
        exact (DatabaseUrl.split_of_slash_iff htail hlast).2 (h query before last hquery hcut hlast)
    · exact DatabaseUrl.splitDatabase_of_plain hslash
  · intro settings o hslash hother hreadable hurl ho
    obtain ⟨base, hbase, hserver, hdatabase⟩ := Options.ofSettings_eq_ok ho
    rw [hurl] at hbase
    obtain ⟨decoded, a, hdecoded, hadmin, hsame, hnamed, hunnamed⟩ :=
      Options.exists_of_ofUrl? hreadable hbase
    refine ⟨a, ensureDatabase_of_split (DatabaseUrl.splitDatabase_of_plain hslash)
      u.name_ne_empty hother hadmin, hsame.trans hserver, ?_⟩
    rw [hunnamed, hdatabase, hnamed, hdecoded, Option.some.injEq]
    exact databases_iff u.name_ne_empty hother

/-! ### a database of partners -/

/-- the URL of a database of partners, with a query -/
def partnersUrl (query : String) : DatabaseUrl where
  scheme := "postgres"
  authority := "u:p@localhost"
  name := "partners"
  query := some query
  authority_plain := forall_of_all rfl
  name_plain := forall_of_all rfl
  name_ne_empty := by decide
  name_trimmed := by decide

/-- the database that is created is the one of the pooled connections -/
theorem partners_made_sure :
    splitDatabase (partnersUrl "application_name=jobs").text =
      .ok ("postgres://u:p@localhost/postgres?application_name=jobs", "partners") ∧
    ∃ settings o a, settings.databaseUrl = (partnersUrl "application_name=jobs").text ∧
      Options.ofSettings settings = .ok o ∧
      ensureDatabase settings.databaseUrl = .ok (some (a, createMissing "partners")) ∧
      a.SameServer o ∧ a.database = some "postgres" ∧ o.database = some "partners" := by
  obtain ⟨hsplit, hensure⟩ := split_at_name_iff (partnersUrl "application_name=jobs")
  refine ⟨hsplit.2 fun query before last hquery hcut _ => ?_, ?_⟩
  · obtain rfl := Option.some.inj hquery
    have hslash : '/' ∉ "application_name=jobs".toList := by decide
    exact absurd (hcut ▸ List.mem_append_right _ List.mem_cons_self) hslash
  · have hreadable : (partnersUrl "application_name=jobs").Readable :=
      ⟨by decide +kernel, forall_of_all rfl, forall_of_all rfl, forall_of_all rfl, by decide⟩
    let settings : Settings :=
      { Settings.default with databaseUrl := (partnersUrl "application_name=jobs").text }
    have hbase : Options.ofUrl? settings.databaseUrl = some ⟨"localhost", none, 5432, "u",
        some "p", some "partners", some "jobs", none, false⟩ := by
      rw [Options.ofUrl?_text hreadable]
      rfl
    obtain ⟨o, ho⟩ := Options.exists_ofSettings settings hbase
    obtain ⟨a, ha, hserver, hdatabases⟩ :=
      hensure settings o (by decide) (by decide) hreadable rfl ho
    exact ⟨settings, o, a, rfl, ho, ha, hserver, hdatabases.2 (by decide)⟩

/-- what a query has after its last slash is taken for the name of the database, which is created on
a connection to the one that the URL names -/
theorem nightly_made_sure :
    splitDatabase (partnersUrl "application_name=jobs/nightly").text =
      .ok ((partnersUrl "application_name=jobs/postgres").text, "nightly") ∧
    (partnersUrl "application_name=jobs/nightly").admin.text =
      "postgres://u:p@localhost/postgres?application_name=jobs/nightly" ∧
    ¬ splitDatabase (partnersUrl "application_name=jobs/nightly").text =
      .ok ((partnersUrl "application_name=jobs/nightly").admin.text, "partners") ∧
    ∃ a, ensureDatabase (partnersUrl "application_name=jobs/nightly").text =
        .ok (some (a, createMissing "nightly")) ∧ a.database = some "partners" := by
  have hsplit : splitDatabase (partnersUrl "application_name=jobs/nightly").text =
      .ok ((partnersUrl "application_name=jobs/postgres").text, "nightly") := rfl
  refine ⟨hsplit, rfl, fun heq => ?_, ?_⟩
  · obtain ⟨_, hname⟩ := Prod.mk.inj (Except.ok.inj (hsplit.symm.trans heq))
    exact absurd hname (by decide)
  · have hreadable : (partnersUrl "application_name=jobs/postgres").Readable :=
      ⟨by decide +kernel, forall_of_all rfl, forall_of_all rfl, forall_of_all rfl, by decide⟩
    have hbase : Options.ofUrl? (partnersUrl "application_name=jobs/postgres").text =
        some ⟨"localhost", none, 5432, "u", some "p", some "partners", some "jobs/postgres", none,
          false⟩ := by
      rw [Options.ofUrl?_text hreadable]
      rfl
    exact ⟨_, ensureDatabase_of_split hsplit (by decide) (by decide) hbase, rfl⟩

end EntityAccess.Connection
