import EntityAccess.Proofs.Calendar.RoundTrip
import EntityAccess.Proofs.Sql.Rows
import EntityAccess.Proofs.Transactions.Writes
import EntityAccess.Proofs.Transitions.Changes

/-!
# updates with current values

A value that was read from a row is cast back to itself, whatever its type.  So a payload of
current values changes nothing, and its update only reads the record again.

* `castWrite_toJson` : a value of a row as the value of a payload;
* `of_readRow_get?` : where a value of a row comes from;
* `change_of_read` : a column that keeps its value;
* `update_of_current_values` : the whole update, under any graph of transitions.
-/

namespace EntityAccess

open EntityAccess.Action Outcome Calendar
open Program (Store)

/-! ### values read and cast again -/

/-- a value that a column can hold: integers have 64 bits -/
def SqlValue.isSized : SqlValue → Bool
  | .int n => Number.isSigned64 n
  | _ => true

theorem SqlValue.fits_sent (v : SqlValue) (type : ColumnType) :
    v.sent.fits type = v.fits type := by
  cases v with
  | dateTime t => cases type <;> rfl
  | _ => rfl

theorem SqlValue.isSized_sent (v : SqlValue) : v.sent.isSized = v.isSized := by
  cases v <;> rfl

theorem readWriteDate_dateText (d : Date) : readWriteDate (dateText d) = some d := by
  unfold readWriteDate
  rw [readDate_dateText]
  rfl

theorem readWriteDateTime_dateTimeText (t : DateTime) :
    readWriteDateTime (dateTimeText t) = some t := by
  have hread : readDateTime writeDateTimePatterns (dateTimeText t) = some t :=
    readDateTime_dateTimeText t _
  unfold readWriteDateTime
  rw [hread]
  rfl

/-- a value is cast back from the value in its row -/
theorem castWrite_toJson {v : SqlValue} {type : ColumnType} (hfits : v.fits type = true)
    (hsized : v.isSized = true) (hnull : v.toJson.isNull = false) :
    castWrite type v.toJson = .ok v := by
  unfold castWrite
  rw [hnull]
  cases v with
  | null => cases hnull
  | text s => cases type <;> first | rfl | cases hfits
  | bool b => cases type <;> first | rfl | cases hfits
  | json w => cases type <;> first | rfl | cases hfits
  | int n =>
    have hn : Number.isSigned64 n = true := hsized
    cases type with
    | integer => simp [castWith, castInteger, SqlValue.toJson, hn, expect]
    | _ => cases hfits
  | float x =>
    cases type with
    | float =>
      cases x with
      | finite x => rfl
      | _ => cases hnull
    | _ => cases hfits
  | date d =>
    cases type with
    | date => simp [castWith, castTime, SqlValue.toJson, readWriteDate_dateText]
    | _ => cases hfits
  | dateTime t =>
    cases type with
    | dateTime => simp [castWith, castTime, SqlValue.toJson, readWriteDateTime_dateTimeText]
    | _ => cases hfits

theorem expect_eq_ok {kind : ValueKind} {v : Json} {found : Option SqlValue} {x : SqlValue} :
    expect kind v found = .ok x ↔ found = some x := by
  cases found <;> simp [expect, unexpected]

/-- a date or date-time is one of its column if its reader reads such ones -/
theorem fits_of_castTime {type : ColumnType} {kind : ValueKind} {read : String → Option SqlValue}
    (hread : ∀ s x, read s = some x → x.fits type = true) {v : Json} {x : SqlValue}
    (h : castTime kind read v = .ok x) : x.fits type = true := by
  cases v with
  | str s =>
    unfold castTime at h
    dsimp only at h
    split at h
    · next y hy =>
      obtain rfl := Except.ok.inj h
      exact hread s y hy
    · cases h
  | _ => cases h

/-- a value that was cast is one of its column -/
theorem fits_of_castWrite {type : ColumnType} {v : Json} {x : SqlValue}
    (h : castWrite type v = .ok x) : x.isNull = true ∨ x.fits type = true := by
  unfold castWrite at h
  split at h
  · obtain rfl := Except.ok.inj h
    exact .inl rfl
  refine .inr ?_
  cases type with
  | text =>
    cases v with
    | str s => cases h; rfl
    | bool b => cases h; rfl
    | int n => cases h; rfl
    | float w => cases h; rfl
    | _ => cases h
  | integer =>
    have hfound := expect_eq_ok.1 h
    cases v with
    | int n =>
      dsimp only at hfound
      split at hfound
      · cases hfound; rfl
      · cases hfound
    | str s =>
      obtain ⟨_, _, rfl⟩ := Option.map_eq_some_iff.1 hfound
      rfl
    | _ => cases hfound
  | float =>
    have hfound := expect_eq_ok.1 h
    cases v with
    | int n => cases hfound; rfl
    | float w => cases hfound; rfl
    | str s =>
      obtain ⟨_, _, rfl⟩ := Option.map_eq_some_iff.1 hfound
      rfl
    | _ => cases hfound
  | boolean =>
    have hfound := expect_eq_ok.1 h
    cases v with
    | bool b => cases hfound; rfl
    | str s =>
      obtain ⟨_, _, rfl⟩ := Option.map_eq_some_iff.1 hfound
      rfl
    | _ => cases hfound
  | date =>
    refine fits_of_castTime (fun s x hx => ?_) h
    obtain ⟨_, _, rfl⟩ := Option.map_eq_some_iff.1 hx
    rfl
  | dateTime =>
    refine fits_of_castTime (fun s x hx => ?_) h
    obtain ⟨_, _, rfl⟩ := Option.map_eq_some_iff.1 hx
    rfl
  | json => cases h; rfl
  | searchVector => cases h

/-- where a value of a row comes from -/
theorem of_readRow_get? {e : Entity} {columns : Dict String} {cells : Dict SqlValue} {values : Row}
    (h : ResultSet.readRow e columns cells = .ok values) {name : String} {v : Json}
    (hv : values.get? name = some v) :
    ∃ c ∈ e.columns, c.name = name ∧ ∃ source,
      ResultSet.readCell c.type source ((cells.get? name).getD .null) = .ok v := by
  unfold ResultSet.readRow at h
  obtain ⟨found, hfound, h⟩ := bind_eq_ok.1 h
  obtain rfl : Dict.ofList found = values := by simpa [pure, Except.pure] using h
  have hmem : (name, v) ∈ found := Dict.of_mem_ofList (Dict.get?_eq_some_iff.1 hv)
  obtain ⟨⟨c, source⟩, hc, hcell⟩ := exists_of_mem_result hfound hmem
  obtain ⟨w, hw, hcell⟩ := bind_eq_ok.1 hcell
  obtain ⟨rfl, rfl⟩ : c.name = name ∧ w = v := by simpa [pure, Except.pure] using hcell
  obtain ⟨c', hselectable, hpresent⟩ := List.mem_filterMap.1 hc
  obtain ⟨_, _, heq⟩ := Option.map_eq_some_iff.1 hpresent
  obtain rfl : c' = c := congrArg Prod.fst heq
  exact ⟨c', (List.mem_filter.1 hselectable).1, rfl, source, hw⟩

/-! ### no change -/

namespace Entity

variable {e : Entity} {current : Record} {input : Row}

theorem diff_of_forall {values : Row}
    (h : ∀ entry ∈ values.entries, e.change current entry = .ok none) :
    e.diff current values = .ok (.empty, .empty) := by
  have hfound : ∃ found, values.entries.mapM (e.change current) = .ok found ∧
      found.filterMap id = [] := by
    generalize values.entries = entries at h
    induction entries with
    | nil => exact ⟨[], rfl, rfl⟩
    | cons entry entries ih =>
      obtain ⟨hentry, hrest⟩ := List.forall_mem_cons.1 h
      obtain ⟨found, hfound, hnone⟩ := ih hrest
      refine ⟨none :: found, ?_, hnone⟩
      rw [List.mapM_cons, hentry, hfound]
      rfl
  obtain ⟨found, hfound, hnone⟩ := hfound
  unfold diff
  rw [hfound]
  show Except.ok (Dict.ofList ((found.filterMap id).map (·.1)),
    Dict.ofList ((found.filterMap id).map fun f => (f.1.1, f.2))) = _
  rw [hnone]
  rfl

section

variable {columns : Dict String} {cells : Dict SqlValue}
  (hread : ResultSet.readRow e columns cells = .ok current.values)
  (hcells : ∀ entry ∈ cells.entries, entry.2.isSized = true)

include hread hcells

/-- a value of the row as a value to be written -/
theorem castWrite_of_read (he : e.WellFormed) {c : Column} (hc : c ∈ e.columns)
    (hnull : (current.value c.name).isNull = false) :
    ∃ x, castWrite c.type (current.value c.name) = .ok x ∧ x.toJson = current.value c.name := by
  have hvalue : ∃ v, current.values.get? c.name = some v ∧ current.value c.name = v := by
    unfold Record.value Record.get? at hnull ⊢
    cases h : current.values.get? c.name with
    | none => rw [h] at hnull; cases hnull
    | some v => exact ⟨v, rfl, rfl⟩
  obtain ⟨v, hv, hvalue⟩ := hvalue
  obtain ⟨c', hc', hname, source, hcell⟩ := of_readRow_get? hread hv
  have hsame : c' = c := by
    have hfound := column?_of_mem he hc
    rw [← hname, column?_of_mem he hc'] at hfound
    exact Option.some.inj hfound
  subst hsame
  obtain ⟨rfl, hfits⟩ := ResultSet.readCell_eq_ok hcell
  rw [hvalue] at hnull ⊢
  generalize hx : (cells.get? c'.name).getD .null = x at hnull hfits ⊢
  have hsized : x.isSized = true := by
    cases hget : cells.get? c'.name with
    | none => rw [hget] at hx; subst hx; rfl
    | some w =>
      rw [hget] at hx
      obtain rfl : w = x := hx
      exact hcells _ (Dict.get?_eq_some_iff.1 hget)
  have hfits : x.fits c'.type = true := by
    rcases hfits with hnone | hfits
    · cases x with
      | null => cases hnull
      | _ => cases hnone
    · exact hfits
  refine ⟨x.sent, castWrite_toJson ?_ ?_ hnull, rfl⟩
  · rw [x.fits_sent, hfits]
  · rw [x.isSized_sent, hsized]

/-- a column that keeps its value -/
theorem change_of_read (he : e.WellFormed) {c : Column} (hc : c ∈ e.columns)
    (ht : c.type ≠ .searchVector) (hnull : (current.value c.name).isNull = false) :
    e.change current (c.name, current.value c.name) = .ok none := by
  obtain ⟨x, hx, hsame⟩ := castWrite_of_read hread hcells he hc hnull
  have hcolumn : e.scalarColumn c.name = .ok c := scalarColumn_of_mem he hc ht
  unfold change
  simp only [hcolumn, hx, hsame, Json.same_self, bind, Except.bind, pure, Except.pure, if_true]

/-- a payload of current values leaves nothing to be written -/
theorem prepareUpdate_of_current (he : e.WellFormed) (hinput : input.isEmpty = false)
    (hown : ∀ entry ∈ input.entries, (e.column? entry.1).isSome = true →
      entry.2 = current.value entry.1) :
    e.prepareUpdate current input = .ok (.empty, .empty) := by
  unfold prepareUpdate
  rw [hinput]
  refine diff_of_forall fun ⟨name, v⟩ hentry => ?_
  obtain ⟨hmem, htakes⟩ := List.mem_filter.1 hentry
  unfold takes at htakes
  split at htakes
  · next c hwritable =>
    obtain ⟨hfound, hwrite⟩ := Option.filter_eq_some_iff.1 hwritable
    obtain ⟨hc, hname, _⟩ := writableColumn_mem hwritable
    have ht : c.type ≠ .searchVector := by
      intro heq
      simp [heq] at hwrite
    have hvalue : v = current.value name := hown _ hmem (by rw [hfound]; rfl)
    obtain rfl : c.name = name := hname
    rw [hvalue] at htakes ⊢
    have hnull : (current.value c.name).isNull = false := by
      cases hnull : (current.value c.name).isNull with
      | true => simp [hnull] at htakes
      | false => rfl
    exact change_of_read hread hcells he hc ht hnull
  · cases htakes

end

end Entity

/-! ### the update -/

namespace Repository

variable {schema : Schema} {e : Entity} {load : LoadPlan} {σ : Type} (store : Store σ) (s : σ)

/-- a transaction in which nothing is assigned -/
theorem runOn_updateRow_empty (current : Record) (input : Row) :
    (updateRow ⟨schema, e, .none, load⟩ current .empty input).runOn store s =
      (.ok .empty, [.marked .begin, .marked .commit], s) := by
  have hcheck : checkTransition e current .empty = .ok () := by
    unfold checkTransition
    split
    · exact TransitionGraph.validate_of_get?_eq_none _ _ _ (Dict.get?_empty _)
    · rfl
  have hhook : (Hooks.none.preUpdate current .empty input).runOn store s =
      (.ok .empty, [], s) := rfl
  have htransaction : ∀ body : Action Changes, body.runOn store s = (.ok .empty, [], s) →
      (transaction body).runOn store s = (.ok .empty, [.marked .begin, .marked .commit], s) :=
    fun body h => run_transaction_ok h
  unfold updateRow
  refine htransaction _ ?_
  dsimp only
  rw [runOn_bind_ok _ hhook, Entity.diff_nil, runOn_liftM_bind]
  dsimp only
  rw [hcheck]
  rfl

theorem runOn_update_of_prepared {current : Record} {input : Row}
    (h : e.prepareUpdate current input = .ok (.empty, .empty)) :
    (update ⟨schema, e, .none, load⟩ current input).runOn store s =
      (((reread ⟨schema, e, .none, load⟩ current.id).runOn store s).1,
        .marked .begin :: .marked .commit ::
          ((reread ⟨schema, e, .none, load⟩ current.id).runOn store s).2.1,
        ((reread ⟨schema, e, .none, load⟩ current.id).runOn store s).2.2) := by
  have hrow : (updateRow ⟨schema, e, .none, load⟩ current .empty input).runOn store s =
      (.ok .empty, [.marked .begin, .marked .commit], s) := runOn_updateRow_empty store s _ _
  unfold update
  rw [h, runOn_liftM_bind]
  dsimp only
  rw [runOn_bind_ok _ hrow]
  rcases hreread : (reread ⟨schema, e, .none, load⟩ current.id).runOn store s with
    ⟨err | record, log, s'⟩
  · rw [runOn_bind_error _ hreread]
    rfl
  · have hpost : (do Hooks.none.postUpdate record .empty; return record : Action Record).runOn
        store s' = (.ok record, [], s') := rfl
    rw [runOn_bind_ok _ hreread, hpost, List.append_nil]
    rfl

end Repository

/-- updates with values that the record has already, whatever else the payload says -/
theorem update_of_current_values {d : Document} {schema : Schema} (hd : d.resolve = .ok schema)
    {e : Entity} (he : e ∈ schema.entities) {columns : Dict String} {cells : Dict SqlValue}
    (hcells : ∀ entry ∈ cells.entries, entry.2.isSized = true) {current : Record}
    (hread : ResultSet.readRow e columns cells = .ok current.values) {input : Row}
    (hinput : input.isEmpty = false)
    (hown : ∀ entry ∈ input.entries, (e.column? entry.1).isSome = true →
      entry.2 = current.value entry.1) :
    e.prepareUpdate current input = .ok (.empty, .empty) ∧
      ∀ (load : LoadPlan) (σ : Type) (store : Store σ) (s s' : σ) (log : List Event)
        (outcome : Except Error Record),
        (Repository.reread ⟨schema, e, .none, load⟩ current.id).runOn store s =
          (outcome, log, s') →
        (Repository.update ⟨schema, e, .none, load⟩ current input).runOn store s =
            (outcome, .marked .begin :: .marked .commit :: log, s') ∧
          ∀ q, .executed q ∈ log → q.isRead = true := by
  have hwell := (Document.wellFormed_of_resolve hd).entity e he
  have hprepared : e.prepareUpdate current input = .ok (.empty, .empty) :=
    Entity.prepareUpdate_of_current hread hcells hwell hinput hown
  refine ⟨hprepared, fun load σ store s s' log outcome hreread => ⟨?_, fun q hq => ?_⟩⟩
  · rw [Repository.runOn_update_of_prepared store s hprepared, hreread]
  · have hreading : Reading (Repository.reread ⟨schema, e, .none, load⟩ current.id) :=
      Repository.reading_reread (fun plan _ => .pure plan) (fun _ plan => .pure plan) current.id
    have hlog : .executed q ∈
        ((Repository.reread ⟨schema, e, .none, load⟩ current.id).runOn store s).2.1 := by
      rw [hreread]
      exact hq
    exact hreading.of_mem_log hlog

/-! ### a reading with values of all types -/

def readingsDeclaration : EntityDeclaration where
  name := "readings"
  table := none
  columns := [⟨"state", .text, false, false, none, false⟩,
    ⟨"taken_on", .date, true, false, none, false⟩,
    ⟨"seen_at", .dateTime, true, false, none, false⟩,
    ⟨"weight", .float, true, false, none, false⟩,
    ⟨"total", .integer, true, false, none, false⟩,
    ⟨"valid", .boolean, true, false, none, false⟩,
    ⟨"extra", .json, true, false, none, false⟩]
  relationships := []
  searchVectors := []
  unique := []
  trackUpdatedAt := true
  transitions := some ⟨"state", Dict.ofList [("open", ["final"]), ("final", [])]⟩

def readingsEntity : Entity := readingsDeclaration.toEntity "public"

def readingsSchema : Schema := ⟨[readingsEntity]⟩

theorem resolve_readingsDocument :
    (Document.mk "public" [readingsDeclaration]).resolve = .ok readingsSchema := by rfl

/-- a row with a date after the year 9999 and a date-time before the year 0 -/
def readingCells : Dict SqlValue := Dict.ofList [("id", .text "7"), ("state", .text "final"),
  ("taken_on", .date ⟨12026, 2, 28, by decide, by decide, by decide⟩),
  ("seen_at", .dateTime ⟨⟨-44, 3, 15, by decide, by decide, by decide⟩,
    ⟨11, 59, 30, 120000, by decide, by decide, by decide, by decide⟩⟩),
  ("weight", .float (.ofInt (-3))), ("total", .int (-9223372036854775808)),
  ("valid", .bool false), ("extra", .json (.arr [.int 1, .null]))]

def readingColumns : Dict String := Dict.ofList [("id", "text"), ("state", "varchar"),
  ("taken_on", "date"), ("seen_at", "timestamp"), ("weight", "double precision"),
  ("total", "bigint"), ("valid", "boolean"), ("extra", "jsonb")]

def reading : Record := .ofRow ((ResultSet.readRow readingsEntity readingColumns
  readingCells).toOption.getD .empty)

/-- all values of a row and one that is none of its columns; its state is final -/
theorem reading_rewritten :
    ResultSet.readRow readingsEntity readingColumns readingCells = .ok reading.values ∧
      reading.value "taken_on" = .str "+12026-02-28" ∧
      reading.value "seen_at" = .str "-0044-03-15T11:59:30.000120" ∧
      readingsEntity.prepareUpdate reading (reading.values.insert "colour" (.str "red")) =
        .ok (.empty, .empty) ∧
      ∃ plan, (Repository.update ⟨readingsSchema, readingsEntity, .none, .empty⟩ reading
          (reading.values.insert "colour" (.str "red"))).runOn refusing () =
        (.error (.database .driver), [.marked .begin, .marked .commit,
          .executed (.select readingsSchema plan)], ()) := by
  have hread : ResultSet.readRow readingsEntity readingColumns readingCells =
      .ok reading.values := by rfl
  have hcells : ∀ entry ∈ readingCells.entries, entry.2.isSized = true := by decide
  have hown : ∀ entry ∈ (reading.values.insert "colour" (.str "red")).entries,
      (readingsEntity.column? entry.1).isSome = true → entry.2 = reading.value entry.1 := by
    intro entry hentry hcolumn
    rcases Dict.mem_insert.1 hentry with rfl | ⟨_, hentry⟩
    · cases hcolumn
    · have hget : reading.values.get? entry.1 = some entry.2 := Dict.get?_eq_some_iff.2 hentry
      unfold Record.value Record.get?
      rw [hget]
      rfl
  obtain ⟨hprepared, hupdate⟩ := update_of_current_values resolve_readingsDocument
    (List.mem_singleton_self _) hcells hread (by rfl) hown
  exact ⟨hread, by rfl, by rfl, hprepared, _, (hupdate .empty Unit refusing () () _ _ rfl).1⟩

end EntityAccess
