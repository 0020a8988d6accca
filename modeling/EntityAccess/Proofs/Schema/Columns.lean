import EntityAccess.Proofs.Outcome
import EntityAccess.Schema.Resolution
import Mathlib.Data.List.Nodup

/-!
# the columns of an accepted declaration

What the check of the columns promises: names are identifiers and no two are the same, whether they
are declared, implicit or those of search vectors.

* `checkIdentifier_eq_ok` : what the check of a name is;
* `declareAll_eq_ok` : columns declared one after the other are new, each of them;
* `resolvedColumns_nodup`, `isIdentifier_of_mem_resolvedColumns` : the columns of the entity.
-/

namespace EntityAccess

open Outcome

/-! ### known columns -/

namespace KnownColumns

/-- the names of the known columns, the last declared first -/
def names (known : KnownColumns) : List String := known.map (·.1)

theorem has_iff {known : KnownColumns} {name : String} :
    known.has name = true ↔ name ∈ known.names := by
  induction known with
  | nil => simp [has, names]
  | cons entry known ih =>
    obtain ⟨n, t⟩ := entry
    by_cases h : name = n
    · simp [has, names, h]
    · have hb : (name == n) = false := by simp [h]
      simp only [has, names, List.lookup_cons, hb, List.map_cons, List.mem_cons, h, false_or]
      exact ih

theorem declareImplicit_eq (known : KnownColumns) (name : String) (type : ColumnType) :
    known.declareImplicit name type =
      (if known.has name then [] else [(name, type)]) ++ known := by
  unfold declareImplicit declare
  split <;> rfl

end KnownColumns

namespace Document

theorem checkIdentifier_eq_ok {kind : IdentifierKind} {name : String} :
    checkIdentifier kind name = .ok () ↔ isIdentifier name = true := by
  unfold checkIdentifier
  split <;> simp [*]

theorem declareColumn_eq_ok {entity : String} {known after : KnownColumns}
    {c : ColumnDeclaration} (h : declareColumn entity known c = .ok after) :
    (isIdentifier c.name = true ∧ c.type ≠ .searchVector) ∧ known.has c.name = false ∧
      after = (c.name, c.type) :: known := by
  unfold declareColumn at h
  obtain ⟨_, hid, h⟩ := bind_eq_ok.1 h
  obtain ⟨htype, h⟩ := guard_eq_ok.1 h
  obtain ⟨hnew, h⟩ := guard_eq_ok.1 h
  refine ⟨⟨checkIdentifier_eq_ok.1 hid, htype⟩, by simpa using hnew, ?_⟩
  simpa [pure, Except.pure, KnownColumns.declare] using h.symm

theorem declareVector_eq_ok {entity : String} {known after : KnownColumns}
    {v : VectorDeclaration} (h : declareVector entity known v = .ok after) :
    isIdentifier v.name = true ∧ known.has v.name = false ∧
      after = (v.name, .searchVector) :: known := by
  unfold declareVector at h
  obtain ⟨_, hid, h⟩ := bind_eq_ok.1 h
  obtain ⟨hnew, h⟩ := guard_eq_ok.1 h
  refine ⟨checkIdentifier_eq_ok.1 hid, by simpa using hnew, ?_⟩
  simpa [pure, Except.pure, KnownColumns.declare] using h.symm

/-- declarations one after the other, each of a new name that passes the test `P` -/
theorem declareAll_eq_ok {α : Type} {f : KnownColumns → α → Except ConfigError KnownColumns}
    (P : α → Prop) (entry : α → String × ColumnType)
    (hf : ∀ known a after, f known a = .ok after →
      P a ∧ known.has (entry a).1 = false ∧ after = entry a :: known)
    {l : List α} {known after : KnownColumns} (h : l.foldlM f known = .ok after) :
    (∀ a ∈ l, P a) ∧ after = (l.map entry).reverse ++ known ∧
      (known.names.Nodup → after.names.Nodup) := by
  induction l generalizing known with
  | nil =>
    obtain rfl : known = after := by simpa [pure, Except.pure] using h
    simp
  | cons a l ih =>
    rw [List.foldlM_cons] at h
    obtain ⟨mid, ha, h⟩ := bind_eq_ok.1 h
    obtain ⟨hP, hnew, rfl⟩ := hf known a mid ha
    obtain ⟨hall, rfl, hnd⟩ := ih h
    refine ⟨List.forall_mem_cons.2 ⟨hP, hall⟩, by simp, fun hk => hnd ?_⟩
    have hmem : (entry a).1 ∉ known.names := by
      rw [← KnownColumns.has_iff, hnew]
      simp
    exact List.nodup_cons.2 ⟨hmem, hk⟩

end Document

/-! ### the columns of an entity -/

namespace EntityDeclaration

/-- the declared columns with their types -/
def declaredEntries (e : EntityDeclaration) : KnownColumns :=
  e.columns.map fun c => (c.name, c.type)

/-- the search vectors as columns -/
def vectorEntries (e : EntityDeclaration) : KnownColumns :=
  e.searchVectors.map fun v => (v.name, .searchVector)

/-- the time stamps that references may name without a declaration -/
def stampEntries (e : EntityDeclaration) : KnownColumns :=
  (if e.declares createdAt then [] else [(createdAt, .dateTime)]) ++
    if e.declares updatedAt then [] else [(updatedAt, .dateTime)]

theorem has_declared (e : EntityDeclaration) (name : String) :
    KnownColumns.has e.declaredEntries.reverse name = e.declares name := by
  rw [Bool.eq_iff_iff, KnownColumns.has_iff]
  simp [KnownColumns.names, declaredEntries, declares]

theorem declareStamps_eq (e : EntityDeclaration) :
    KnownColumns.declareImplicit (KnownColumns.declareImplicit e.declaredEntries.reverse
      createdAt .dateTime) updatedAt .dateTime =
        e.stampEntries.reverse ++ e.declaredEntries.reverse := by
  have hne : (updatedAt == createdAt) = false := by decide
  have hup : KnownColumns.has ((if e.declares createdAt then [] else [(createdAt, .dateTime)]) ++
      e.declaredEntries.reverse) updatedAt = e.declares updatedAt := by
    have hd := e.has_declared updatedAt
    unfold KnownColumns.has at hd ⊢
    split <;> simpa [List.lookup_cons, hne] using hd
  rw [KnownColumns.declareImplicit_eq, KnownColumns.declareImplicit_eq, has_declared, hup]
  unfold stampEntries
  split <;> split <;> simp

theorem stampNames_nodup (e : EntityDeclaration) : e.stampEntries.names.Nodup := by
  have hne : createdAt ≠ updatedAt := by decide
  unfold stampEntries KnownColumns.names
  split <;> split <;> simp [hne]

theorem of_mem_stampNames {e : EntityDeclaration} {name : String}
    (h : name ∈ e.stampEntries.names) :
    e.declares name = false ∧ (name = createdAt ∨ name = updatedAt) := by
  unfold stampEntries KnownColumns.names at h
  rw [List.map_append, List.mem_append] at h
  rcases h with h | h
  · split at h
    · simp at h
    · next hno =>
      obtain rfl : name = createdAt := by simpa using h
      exact ⟨by simpa using hno, .inl rfl⟩
  · split at h
    · simp at h
    · next hno =>
      obtain rfl : name = updatedAt := by simpa using h
      exact ⟨by simpa using hno, .inr rfl⟩

/-- what the check of the columns of one entity promises -/
theorem knownColumns_eq_ok {e : EntityDeclaration} {known : KnownColumns}
    (h : Document.knownColumns e = .ok known) :
    (∀ c ∈ e.columns, isIdentifier c.name = true ∧ c.type ≠ .searchVector) ∧
      (∀ v ∈ e.searchVectors, isIdentifier v.name = true) ∧ known.names.Nodup ∧
      known = e.vectorEntries.reverse ++ (primaryKey, .text) ::
        (e.stampEntries.reverse ++ e.declaredEntries.reverse) := by
  unfold Document.knownColumns at h
  obtain ⟨declared, hd, h⟩ := bind_eq_ok.1 h
  obtain ⟨hcols, rfl, hnd⟩ := Document.declareAll_eq_ok
    (fun c => isIdentifier c.name = true ∧ c.type ≠ .searchVector) (fun c => (c.name, c.type))
    (fun _ _ _ hc => Document.declareColumn_eq_ok hc) hd
  obtain ⟨hkey, h⟩ := guard_eq_ok.1 h
  rw [List.append_nil] at hkey hnd h
  change ¬ KnownColumns.has e.declaredEntries.reverse primaryKey = true at hkey
  change KnownColumns.names [] |>.Nodup →
    (KnownColumns.names e.declaredEntries.reverse).Nodup at hnd
  obtain ⟨hvecs, rfl, hnd'⟩ := Document.declareAll_eq_ok
    (fun v => isIdentifier v.name = true) (fun v => (v.name, .searchVector))
    (fun _ _ _ hv => Document.declareVector_eq_ok hv) h
  have himplicit := e.declareStamps_eq
  unfold declaredEntries at himplicit
  rw [himplicit] at hnd' ⊢
  refine ⟨hcols, hvecs, hnd' ?_, rfl⟩
  have hstamp :
      (KnownColumns.names (e.stampEntries.reverse ++ e.declaredEntries.reverse)).Nodup := by
    unfold KnownColumns.names
    rw [List.map_append]
    refine List.Nodup.append ?_ (hnd (by simp [KnownColumns.names])) ?_
    · rw [List.map_reverse]
      exact List.nodup_reverse.2 e.stampNames_nodup
    · intro name hs hdec
      rw [List.map_reverse, List.mem_reverse] at hs
      have hno := (of_mem_stampNames hs).1
      rw [← has_declared] at hno
      exact absurd (KnownColumns.has_iff.2 hdec) (by simp [hno])
  refine List.nodup_cons.2 ⟨fun hmem => ?_, hstamp⟩
  have hmem' : primaryKey ∈
      KnownColumns.names (e.stampEntries.reverse ++ e.declaredEntries.reverse) := hmem
  unfold KnownColumns.names at hmem'
  rw [List.map_append, List.mem_append, List.map_reverse, List.mem_reverse] at hmem'
  rcases hmem' with hs | hdec
  · rcases (of_mem_stampNames hs).2 with h | h <;> revert h <;> decide
  · exact hkey (KnownColumns.has_iff.2 hdec)

/-! ### resolved columns -/

theorem isIdentifier_implicit :
    isIdentifier primaryKey = true ∧ isIdentifier createdAt = true ∧
      isIdentifier updatedAt = true := by
  decide +kernel

theorem mem_implicitStamps {e : EntityDeclaration} {c : Column} (h : c ∈ e.implicitStamps) :
    c = createdAtColumn ∨ c = updatedAtColumn := by
  unfold implicitStamps at h
  split at h <;> split at h <;> simp_all

theorem implicitStamps_sublist (e : EntityDeclaration) :
    (e.implicitStamps.map (·.name)).Sublist e.stampEntries.names := by
  unfold implicitStamps stampEntries KnownColumns.names
  cases e.declares createdAt <;> cases e.declares updatedAt <;> cases e.trackUpdatedAt <;>
    simp [createdAtColumn, updatedAtColumn]

variable {e : EntityDeclaration} {known : KnownColumns}

/-- what counts as known, in the order of the columns -/
theorem names_perm (h : Document.knownColumns e = .ok known) :
    known.names.Perm ((primaryKey :: e.declaredEntries.names) ++ e.stampEntries.names ++
      e.vectorEntries.names) := by
  obtain ⟨_, _, _, hknown⟩ := knownColumns_eq_ok h
  rw [hknown]
  unfold KnownColumns.names
  simp only [List.map_append, List.map_cons, List.map_reverse]
  refine List.perm_append_comm.trans (List.Perm.append ?_ (List.reverse_perm _))
  refine List.Perm.cons _ (List.perm_append_comm.trans ?_)
  exact List.Perm.append (List.reverse_perm _) (List.reverse_perm _)

theorem resolvedColumns_sublist (e : EntityDeclaration) :
    (e.resolvedColumns.map (·.name)).Sublist
      ((primaryKey :: e.declaredEntries.names) ++ e.stampEntries.names ++
        e.vectorEntries.names) := by
  have hd : (e.columns.map ColumnDeclaration.toColumn).map (·.name) =
      e.declaredEntries.names := by
    simp [declaredEntries, KnownColumns.names, ColumnDeclaration.toColumn]
  have hv : (e.searchVectors.map VectorDeclaration.toColumn).map (·.name) =
      e.vectorEntries.names := by
    simp [vectorEntries, KnownColumns.names, VectorDeclaration.toColumn]
  unfold resolvedColumns
  rw [List.map_append, List.map_append, List.map_cons, hd, hv]
  exact (e.implicitStamps_sublist.append_left _).append_right _

theorem resolvedColumns_nodup (h : Document.knownColumns e = .ok known) :
    (e.resolvedColumns.map (·.name)).Nodup := by
  obtain ⟨_, _, hnd, _⟩ := knownColumns_eq_ok h
  exact ((names_perm h).nodup hnd).sublist e.resolvedColumns_sublist

/-- every column is known -/
theorem has_of_mem_resolvedColumns (h : Document.knownColumns e = .ok known) {c : Column}
    (hc : c ∈ e.resolvedColumns) : known.has c.name = true :=
  KnownColumns.has_iff.2
    ((names_perm h).mem_iff.2 (e.resolvedColumns_sublist.subset (List.mem_map_of_mem hc)))

theorem isIdentifier_of_mem_resolvedColumns (h : Document.knownColumns e = .ok known) {c : Column}
    (hc : c ∈ e.resolvedColumns) : isIdentifier c.name = true := by
  obtain ⟨hcols, hvecs, _, _⟩ := knownColumns_eq_ok h
  obtain ⟨hid, hcreated, hupdated⟩ := isIdentifier_implicit
  unfold resolvedColumns at hc
  simp only [List.mem_append, List.mem_cons, List.mem_map] at hc
  rcases hc with ((rfl | ⟨d, hd, rfl⟩) | hs) | ⟨v, hv, rfl⟩
  · exact hid
  · exact (hcols d hd).1
  · rcases mem_implicitStamps hs with rfl | rfl
    · exact hcreated
    · exact hupdated
  · exact hvecs v hv

end EntityDeclaration
end EntityAccess
