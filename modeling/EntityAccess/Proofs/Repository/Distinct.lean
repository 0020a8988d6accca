import EntityAccess.Repository.Related
import Mathlib.Data.List.Nodup
import Mathlib.Data.List.Pairwise

/-!
# the first of each key

* `nodup_firstOfEach`, `exists_firstOfEach` : each key is there once;
* `rel_firstOfEach` : in an ordered list what is kept comes before what has its key;
* `eq_iff_of_pairwise` : two orders of the same elements.
-/

namespace EntityAccess

variable {α : Type} {key : α → String} {seen : List String} {l : List α} {a b : α}

theorem firstOfEach_sublist (key : α → String) (seen : List String) (l : List α) :
    (firstOfEach key seen l).Sublist l := by
  induction l generalizing seen with
  | nil => exact .slnil
  | cons a l ih =>
    unfold firstOfEach
    split
    · exact (ih seen).cons a
    · exact (ih _).cons_cons a

theorem key_not_mem_of_mem_firstOfEach (h : a ∈ firstOfEach key seen l) : key a ∉ seen := by
  induction l generalizing seen with
  | nil => simp [firstOfEach] at h
  | cons b l ih =>
    by_cases hb : key b ∈ seen
    · rw [firstOfEach_cons_of_mem hb] at h
      exact ih h
    · rw [firstOfEach_cons hb] at h
      rcases List.mem_cons.1 h with rfl | h
      · exact hb
      · exact fun hin => ih h (List.mem_cons_of_mem _ hin)

theorem nodup_firstOfEach (key : α → String) (seen : List String) (l : List α) :
    ((firstOfEach key seen l).map key).Nodup := by
  induction l generalizing seen with
  | nil => exact .nil
  | cons a l ih =>
    by_cases ha : key a ∈ seen
    · rw [firstOfEach_cons_of_mem ha]
      exact ih seen
    · rw [firstOfEach_cons ha, List.map_cons, List.nodup_cons]
      refine ⟨fun hin => ?_, ih _⟩
      obtain ⟨b, hb, hkey⟩ := List.mem_map.1 hin
      exact key_not_mem_of_mem_firstOfEach hb (hkey ▸ List.mem_cons_self)

theorem exists_firstOfEach (h : a ∈ l) (ha : key a ∉ seen) :
    ∃ b ∈ firstOfEach key seen l, key b = key a := by
  induction l generalizing seen with
  | nil => simp at h
  | cons c l ih =>
    by_cases hc : key c ∈ seen
    · rw [firstOfEach_cons_of_mem hc]
      rcases List.mem_cons.1 h with rfl | h
      · exact absurd hc ha
      · exact ih h ha
    · rw [firstOfEach_cons hc]
      by_cases hac : key a = key c
      · exact ⟨c, List.mem_cons_self, hac.symm⟩
      · rcases List.mem_cons.1 h with rfl | h
        · exact absurd rfl hac
        · obtain ⟨b, hb, hkey⟩ := ih h (by rw [List.mem_cons, not_or]; exact ⟨hac, ha⟩)
          exact ⟨b, List.mem_cons_of_mem _ hb, hkey⟩

/-- what is kept of an ordered list comes before what has its key -/
theorem rel_firstOfEach {R : α → α → Prop} (hrefl : ∀ a, R a a) (hl : l.Pairwise R)
    (hb : b ∈ firstOfEach key seen l) (ha : a ∈ l) (hkey : key a = key b) : R b a := by
  induction l generalizing seen with
  | nil => simp at ha
  | cons c l ih =>
    obtain ⟨hhd, htl⟩ := List.pairwise_cons.1 hl
    by_cases hc : key c ∈ seen
    · rw [firstOfEach_cons_of_mem hc] at hb
      rcases List.mem_cons.1 ha with rfl | ha
      · exact absurd (hkey ▸ hc) (key_not_mem_of_mem_firstOfEach hb)
      · exact ih htl hb ha
    · rw [firstOfEach_cons hc] at hb
      rcases List.mem_cons.1 hb with rfl | hb
      · rcases List.mem_cons.1 ha with rfl | ha
        · exact hrefl a
        · exact hhd a ha
      · rcases List.mem_cons.1 ha with rfl | ha
        · exact absurd (hkey ▸ List.mem_cons_self) (key_not_mem_of_mem_firstOfEach hb)
        · exact ih htl hb ha

theorem firstOfEach_congr {key' : α → String} (h : ∀ a ∈ l, key a = key' a) :
    firstOfEach key seen l = firstOfEach key' seen l := by
  induction l generalizing seen with
  | nil => rfl
  | cons a l ih =>
    rw [List.forall_mem_cons] at h
    unfold firstOfEach
    rw [h.1, ih h.2, ih h.2]

/-- nothing is left out of a list of different keys -/
theorem firstOfEach_of_nodup (hl : (l.map key).Nodup) (hseen : ∀ a ∈ l, key a ∉ seen) :
    firstOfEach key seen l = l := by
  induction l generalizing seen with
  | nil => rfl
  | cons a l ih =>
    rw [List.map_cons, List.nodup_cons] at hl
    rw [List.forall_mem_cons] at hseen
    rw [firstOfEach_cons hseen.1, ih hl.2]
    intro b hb hin
    rcases List.mem_cons.1 hin with heq | hin
    · exact hl.1 (heq ▸ List.mem_map_of_mem hb)
    · exact hseen.2 b hb hin

/-- elements stand in the same sequence by two orders when any two of them do -/
theorem eq_iff_of_pairwise {R S : α → α → Prop} {m : List α} (hperm : m.Perm l) (hnd : l.Nodup)
    (hl : l.Pairwise R) (hm : m.Pairwise S)
    (hR : ∀ a ∈ l, ∀ b ∈ l, R a b → R b a → a = b)
    (hS : ∀ a ∈ l, ∀ b ∈ l, S a b → S b a → a = b) :
    l = m ↔ ∀ a ∈ l, ∀ b ∈ l, a ≠ b → (R a b ↔ S a b) := by
  constructor
  · rintro rfl a ha b hb hne
    have hboth : l.Pairwise fun a b => R a b ∧ S a b := List.pairwise_and_iff.2 ⟨hl, hm⟩
    have hside : (R a b ∧ S a b) ∨ (R b a ∧ S b a) := by
      let either (a b : α) : Prop := (R a b ∧ S a b) ∨ (R b a ∧ S b a)
      have : Std.Symm either := ⟨fun _ _ h => h.symm⟩
      have hsym : l.Pairwise either := hboth.imp .inl
      exact hsym.forall ha hb hne
    rcases hside with ⟨hr, hs⟩ | ⟨hr, hs⟩
    · exact iff_of_true hr hs
    · exact iff_of_false (fun h => hne (hR a ha b hb h hr)) fun h => hne (hS a ha b hb h hs)
  · intro h
    have hmR : m.Pairwise R := by
      refine (hm.and (hperm.nodup_iff.2 hnd)).imp_of_mem fun ha hb hab => ?_
      exact (h _ (hperm.mem_iff.1 ha) _ (hperm.mem_iff.1 hb) hab.2).2 hab.1
    refine List.Perm.eq_of_pairwise (fun a b ha hb => ?_) hl hmR hperm.symm
    exact hR a ha b (hperm.mem_iff.1 hb)

end EntityAccess
