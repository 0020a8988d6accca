import EntityAccess.Proofs.Dict
import EntityAccess.Proofs.Outcome
import EntityAccess.Proofs.Schema.Accepted
import EntityAccess.Sql.Result

/-!
# rows that are read

A row of an entity has what a result says in each of its columns.

* `readCell_eq_ok` : what a cell is read as;
* `readRow_get?` : a column of the result as a value of the row.
-/

namespace EntityAccess.ResultSet

open Outcome

/-- what is kept of a list keeps its place -/
theorem map_filterMap_sublist {α β γ : Type} {f : α → Option β} {g : β → γ} {k : α → γ}
    (h : ∀ a b, f a = some b → g b = k a) (l : List α) :
    ((l.filterMap f).map g).Sublist (l.map k) := by
  induction l with
  | nil => exact .slnil
  | cons a l ih =>
    rw [List.filterMap_cons]
    split
    · exact ih.cons _
    · next b hb =>
      rw [List.map_cons, List.map_cons, h a b hb]
      exact ih.cons_cons _

/-- a cell that is read is null or has the type of its column -/
theorem readCell_eq_ok {type : ColumnType} {source : String} {v : SqlValue} {j : Json}
    (h : readCell type source v = .ok j) :
    j = v.sent.toJson ∧ (v.isNull = true ∨ v.fits type = true) := by
  unfold readCell at h
  split at h
  · next hnull =>
    obtain rfl := Except.ok.inj h
    cases v <;> first
      | exact ⟨rfl, .inl rfl⟩
      | cases hnull
  · split at h
    · next hfits =>
      rw [Bool.and_eq_true] at hfits
      exact ⟨(Except.ok.inj h).symm, .inr hfits.2⟩
    · cases h

variable {e : Entity} {columns : Dict String} {row : Dict SqlValue} {values : Row}

theorem readRow_get? (h : readRow e columns row = .ok values) (he : e.WellFormed) {c : Column}
    (hc : c ∈ e.columns) (ht : c.type ≠ .searchVector) {source : String}
    (hs : columns.get? c.name = some source) :
    ∃ v, readCell c.type source ((row.get? c.name).getD .null) = .ok v ∧
      values.get? c.name = some v := by
  unfold readRow at h
  obtain ⟨cells, hcells, h⟩ := bind_eq_ok.1 h
  obtain rfl : Dict.ofList cells = values := by simpa [pure, Except.pure] using h
  have hkeys : cells.map (·.1) =
      (e.selectable.filterMap fun c => (columns.get? c.name).map fun s => (c, s)).map
        (·.1.name) := by
    refine map_eq_map hcells fun p cell hp => ?_
    obtain ⟨v, _, hp⟩ := bind_eq_ok.1 hp
    obtain rfl : (p.1.name, v) = cell := by simpa [pure, Except.pure] using hp
    rfl
  have hnd : (cells.map (·.1)).Nodup := by
    have hsub : (e.selectable.map (·.name)).Sublist (e.columns.map (·.name)) :=
      List.filter_sublist.map _
    rw [hkeys]
    refine he.columns_nodup.sublist (.trans (map_filterMap_sublist (fun c p hp => ?_) _) hsub)
    obtain ⟨_, _, rfl⟩ := Option.map_eq_some_iff.1 hp
    rfl
  have hmem : (c, source) ∈
      e.selectable.filterMap fun c => (columns.get? c.name).map fun s => (c, s) :=
    List.mem_filterMap.2 ⟨c, List.mem_filter.2 ⟨hc, by simpa using ht⟩, by simp [hs]⟩
  obtain ⟨cell, hcell, hread⟩ := exists_of_mem hcells hmem
  obtain ⟨v, hv, hp⟩ := bind_eq_ok.1 hread
  obtain rfl : (c.name, v) = cell := by simpa [pure, Except.pure] using hp
  exact ⟨v, hv, Dict.get?_ofList hnd hcell⟩

end EntityAccess.ResultSet
