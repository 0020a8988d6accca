import EntityAccess.Schema.Identifier
import EntityAccess.Text.Concat
import EntityAccess.Text.Split
import Mathlib.Data.List.Basic

/-!
# underscores as separators

Two or more underscores cut a text at the places where names were put together, because a name has
no two underscores in a row and none at its end.

* `afterStart_of_apart` : a separator does not begin inside a name;
* `lastCut_append_of_apart` : the last cut is past a name;
* `lastCut_separator` : the last cut is at a separator, if there is none after it;
* `splitBy_joinWith` : names joined by a separator are cut into the names.
-/

namespace EntityAccess.Text

/-- a run of underscores -/
def underscores (n : Nat) : List Char := List.replicate n '_'

theorem underscores_succ (n : Nat) : underscores (n + 1) = '_' :: underscores n := rfl

/-! ### where a separator begins -/

theorem afterStart_self (sep rest : List Char) : afterStart sep (sep ++ rest) = some rest := by
  induction sep with
  | nil => rfl
  | cons s sep ih => simpa [afterStart] using ih

theorem afterStart_of_lt {m n : Nat} (h : m < n) {rest : List Char}
    (hrest : rest.head? ≠ some '_') :
    afterStart (underscores n) (underscores m ++ rest) = none := by
  induction m generalizing n with
  | zero =>
    obtain ⟨n, rfl⟩ : ∃ k, n = k + 1 := ⟨n - 1, by omega⟩
    rw [underscores_succ]
    cases rest with
    | nil => rfl
    | cons c cs =>
      have hc : '_' ≠ c := fun heq => hrest (by simp [← heq])
      simp [underscores, afterStart, hc]
  | succ m ih =>
    obtain ⟨n, rfl⟩ : ∃ k, n = k + 1 := ⟨n - 1, by omega⟩
    rw [underscores_succ, underscores_succ, List.cons_append]
    unfold afterStart
    rw [if_pos rfl]
    exact ih (by omega)

/-- a separator does not begin at a character of a name -/
theorem afterStart_of_apart {c : Char} {cs : List Char} (h : underscoresApart (c :: cs) = true)
    (n : Nat) (rest : List Char) :
    afterStart (underscores (n + 2)) (c :: cs ++ rest) = none := by
  rw [underscores_succ, List.cons_append]
  unfold afterStart
  split
  · next hc =>
    subst hc
    cases cs with
    | nil => simp [underscoresApart] at h
    | cons d cs =>
      have hd : '_' ≠ d := by
        rintro rfl
        simp [underscoresApart] at h
      rw [underscores_succ, List.cons_append]
      unfold afterStart
      rw [if_neg hd]
  · rfl

theorem apart_tail {c : Char} {cs : List Char} (h : underscoresApart (c :: cs) = true) :
    underscoresApart cs = true := by
  unfold underscoresApart at h
  split at h <;> simp_all

/-! ### the last cut -/

theorem lastCut_append_some {sep t before after : List Char}
    (h : lastCut sep t = some (before, after)) (cs : List Char) :
    lastCut sep (cs ++ t) = some (cs ++ before, after) := by
  induction cs with
  | nil => exact h
  | cons c cs ih => rw [List.cons_append, lastCut_cons, ih]; rfl

theorem lastCut_append_of_apart {cs : List Char} (h : underscoresApart cs = true) (n : Nat)
    (rest : List Char) :
    lastCut (underscores (n + 2)) (cs ++ rest) =
      (lastCut (underscores (n + 2)) rest).map fun p => (cs ++ p.1, p.2) := by
  induction cs with
  | nil => simp
  | cons c cs ih =>
    have hno := afterStart_of_apart h n rest
    rw [List.cons_append] at hno ⊢
    rw [lastCut_cons, ih (apart_tail h), hno]
    cases lastCut (underscores (n + 2)) rest <;> rfl

/-- a name has no cut -/
theorem lastCut_of_apart {cs : List Char} (h : underscoresApart cs = true) (n : Nat) :
    lastCut (underscores (n + 2)) cs = none := by
  have := lastCut_append_of_apart h n []
  rw [List.append_nil] at this
  rw [this]
  rfl

theorem lastCut_of_lt {m n : Nat} (h : m < n) {rest : List Char} (hrest : rest.head? ≠ some '_')
    (hcut : lastCut (underscores n) rest = none) :
    lastCut (underscores n) (underscores m ++ rest) = none := by
  induction m with
  | zero => exact hcut
  | succ m ih =>
    have hno := afterStart_of_lt h hrest
    rw [underscores_succ, List.cons_append] at hno ⊢
    rw [lastCut_cons, ih (by omega), hno]
    rfl

theorem lastCut_separator (n : Nat) {rest : List Char} (hrest : rest.head? ≠ some '_')
    (hcut : lastCut (underscores (n + 1)) rest = none) :
    lastCut (underscores (n + 1)) (underscores (n + 1) ++ rest) = some ([], rest) := by
  have hself := afterStart_self (underscores (n + 1)) rest
  have hno := lastCut_of_lt (Nat.lt_succ_self n) hrest hcut
  rw [Nat.succ_eq_add_one] at hno
  conv_lhs => rw [show underscores (n + 1) ++ rest = '_' :: (underscores n ++ rest) from rfl]
  rw [lastCut_cons, hno]
  change (afterStart (underscores (n + 1)) (underscores (n + 1) ++ rest)).map _ = _
  rw [hself]
  rfl

/-! ### pieces -/

theorem piecesFrom_cons (sep cur : List Char) (c : Char) (cs : List Char) :
    piecesFrom sep 0 cur (c :: cs) =
      if (afterStart sep (c :: cs)).isSome then
        cur.reverse :: piecesFrom sep (sep.length - 1) [] cs
      else piecesFrom sep 0 (c :: cur) cs := rfl

theorem piecesFrom_skip (sep skipped cur cs : List Char) :
    piecesFrom sep skipped.length cur (skipped ++ cs) = piecesFrom sep 0 cur cs := by
  induction skipped with
  | nil => rfl
  | cons c skipped ih => exact ih

theorem piecesFrom_append_of_apart {cs : List Char} (h : underscoresApart cs = true) (n : Nat)
    (cur rest : List Char) :
    piecesFrom (underscores (n + 2)) 0 cur (cs ++ rest) =
      piecesFrom (underscores (n + 2)) 0 (cs.reverse ++ cur) rest := by
  induction cs generalizing cur with
  | nil => rfl
  | cons c cs ih =>
    have hno := afterStart_of_apart h n rest
    rw [List.cons_append] at hno ⊢
    rw [piecesFrom_cons, hno, if_neg (by simp), ih (apart_tail h)]
    simp

theorem pieces_intercalate {n : Nat} {parts : List (List Char)} (hne : parts ≠ [])
    (h : ∀ p ∈ parts, underscoresApart p = true) :
    pieces (underscores (n + 2)) ((underscores (n + 2)).intercalate parts) = parts := by
  unfold pieces
  induction parts with
  | nil => exact absurd rfl hne
  | cons p parts ih =>
    have hp := h p List.mem_cons_self
    cases parts with
    | nil =>
      have := piecesFrom_append_of_apart hp n [] []
      rw [List.append_nil] at this
      rw [List.intercalate_singleton, this]
      simp [piecesFrom]
    | cons q parts =>
      have hrest := ih (List.cons_ne_nil q parts) fun r hr => h r (List.mem_cons_of_mem p hr)
      rw [List.intercalate_cons_cons, List.append_assoc, piecesFrom_append_of_apart hp n]
      generalize (underscores (n + 2)).intercalate (q :: parts) = tail at hrest ⊢
      have hself := afterStart_self (underscores (n + 2)) tail
      have hskip := piecesFrom_skip (underscores (n + 2)) (underscores (n + 1)) [] tail
      rw [show underscores (n + 2) ++ tail = '_' :: (underscores (n + 1) ++ tail) from rfl]
        at hself ⊢
      rw [piecesFrom_cons, hself, if_pos (by rfl)]
      have hlen : (underscores (n + 2)).length - 1 = (underscores (n + 1)).length := by
        simp [underscores]
      rw [hlen, hskip, hrest]
      simp

/-- names joined by a separator are cut into the names -/
theorem splitBy_joinWith {sep : String} {n : Nat} (hsep : sep.toList = underscores (n + 2))
    {parts : List String} (hne : parts ≠ [])
    (h : ∀ s ∈ parts, underscoresApart s.toList = true) :
    splitBy sep (joinWith sep parts) = parts := by
  unfold splitBy joinWith
  rw [String.toList_intercalate, hsep, pieces_intercalate (by simpa using hne)]
  · simp
  · intro p hp
    obtain ⟨s, hs, rfl⟩ := List.mem_map.1 hp
    exact h s hs

end EntityAccess.Text
