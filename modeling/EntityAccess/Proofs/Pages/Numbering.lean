import EntityAccess.Page
import Mathlib.Algebra.Order.Floor.Div
import Mathlib.Order.Interval.Set.Defs
import Mathlib.Tactic.Ring

/-!
# page numbers in words of 64 bits

The rows before a page, the number of pages and the number of the next page are computed in words,
without a result that a word does not hold, and are what they are among all numbers.  The windows
of the pages cut the rows of a listing: each row is on one page.

* `Word.add?`, `Word.mul?`, … : arithmetic that gives nothing when a word overflows;
* `PageParams.checkWords`, `PageParams.offset?`, `Page.count?`, `Page.next?` : pages in words;
* `pageCount_le_iff`, `existsUnique_page` : how many pages there are, and the page of a row;
* `pages_exact` : what holds of every page number and size.
-/

namespace EntityAccess

open Number (maxSigned maxUnsigned isSigned64)

/-! ### words -/

namespace Word

/-- a number as a word, if one holds it -/
def unsigned? (n : Nat) : Option UInt64 := if n ≤ maxUnsigned then some (.ofNat n) else none

/-- a number as a signed word, if one holds it -/
def signed? (n : Int) : Option Int64 := if isSigned64 n then some (.ofInt n) else none

def add? (a b : UInt64) : Option UInt64 := unsigned? (a.toNat + b.toNat)

def mul? (a b : UInt64) : Option UInt64 := unsigned? (a.toNat * b.toNat)

def sub? (a b : UInt64) : Option UInt64 := if b ≤ a then some (a - b) else none

theorem exists_unsigned {n : Nat} (h : n ≤ maxUnsigned) :
    ∃ w, unsigned? n = some w ∧ w.toNat = n := by
  refine ⟨.ofNat n, if_pos h, UInt64.toNat_ofNat_of_lt' ?_⟩
  unfold maxUnsigned at h
  show n < 18446744073709551616
  omega

theorem unsigned?_eq_none {n : Nat} (h : maxUnsigned < n) : unsigned? n = none := by
  unfold unsigned?
  rw [if_neg (by omega)]

theorem exists_signed {n : Int} (h : isSigned64 n = true) :
    ∃ w, signed? n = some w ∧ w.toInt = n := by
  have hn : -(maxSigned : Int) - 1 ≤ n ∧ n ≤ maxSigned := of_decide_eq_true h
  unfold maxSigned at hn
  exact ⟨.ofInt n, if_pos h, Int64.toInt_ofInt_of_le (by omega) (by omega)⟩

theorem sub?_one {a : UInt64} (h : a ≠ 0) : ∃ w, sub? a 1 = some w ∧ w.toNat = a.toNat - 1 := by
  have hpos : a.toNat ≠ 0 := fun h0 => h (UInt64.toNat_inj.1 h0)
  have hle : (1 : UInt64) ≤ a := by
    rw [UInt64.le_iff_toNat_le]
    show 1 ≤ a.toNat
    omega
  exact ⟨a - 1, if_pos hle, UInt64.toNat_sub_of_le _ _ hle⟩

end Word

/-! ### pages in words -/

namespace PageParams

/-- where the window of a page ends; nothing if that is beyond all words -/
def end? (page perPage : UInt64) : Option UInt64 := do
  Word.add? (← Word.mul? (← Word.sub? page 1) perPage) perPage

/-- whether a page of that number and size can be asked for -/
def checkWords (page perPage : UInt64) : Except Error Unit :=
  if page = 0 then .error (.badRequest .pageZero)
  else if (end? page perPage).any (·.toNat ≤ maxWindow) ∧ page.toNat ≤ maxWindow then .ok ()
  else .error (.badRequest .pageOutOfRange)

def offset? (page perPage : UInt64) : Option UInt64 := do
  Word.mul? (← Word.sub? page 1) perPage

end PageParams

namespace Page

def count? (total perPage : UInt64) : Option UInt64 :=
  if perPage = 0 then some 0
  else if 0 < total % perPage then Word.add? (total / perPage) 1
  else some (total / perPage)

/-- the number of the next page, `-1` if there is none -/
def next? (page pages : UInt64) : Option Int64 :=
  if pages ≤ page then some (-1)
  else do Word.signed? ((← Word.signed? page.toNat).toInt + 1)

/-- the windows of the pages cut the rows of a listing -/
structure Cuts {α : Type} (found : Page α) (p : PageParams) (total : Nat) : Prop where
  next : found.nextPage = if p.offset + p.perPage < total then (p.page : Int) + 1 else -1
  least : IsLeast {n | total ≤ n * p.perPage} found.totalPages
  row : ∀ row < total, ∃! n, n ∈ Set.Icc 1 found.totalPages ∧
    row ∈ Set.Ico ((n - 1) * p.perPage) (n * p.perPage)

end Page

/-! ### which pages are accepted -/

namespace PageParams

/-- the pages that are refused, among all numbers -/
def verdict (page perPage : Nat) : Except Error Unit :=
  if page = 0 then .error (.badRequest .pageZero)
  else if maxWindow < page ∨ maxWindow < (page - 1) * perPage + perPage then
    .error (.badRequest .pageOutOfRange)
  else .ok ()

theorem end_eq {page : Nat} (h : page ≠ 0) (perPage : Nat) :
    (page - 1) * perPage + perPage = page * perPage := by
  obtain ⟨n, rfl⟩ := Nat.exists_eq_succ_of_ne_zero h
  rw [Nat.succ_sub_one, Nat.succ_mul]

/-- an overflow is beyond every window as well -/
theorem any_end? {page : UInt64} (h : page ≠ 0) (perPage : UInt64) :
    (end? page perPage).any (·.toNat ≤ maxWindow) = true ↔
      (page.toNat - 1) * perPage.toNat + perPage.toNat ≤ maxWindow := by
  have hwindow : maxWindow < maxUnsigned := by decide
  obtain ⟨before, hsub, hbefore⟩ := Word.sub?_one h
  unfold end?
  rw [hsub, Option.bind_eq_bind, Option.bind_some]
  unfold Word.mul?
  rw [hbefore]
  by_cases hmul : (page.toNat - 1) * perPage.toNat ≤ maxUnsigned
  · obtain ⟨rows, hrows, hnat⟩ := Word.exists_unsigned hmul
    rw [hrows, Option.bind_some]
    unfold Word.add?
    rw [hnat]
    by_cases hadd : (page.toNat - 1) * perPage.toNat + perPage.toNat ≤ maxUnsigned
    · obtain ⟨last, hlast, hnat⟩ := Word.exists_unsigned hadd
      rw [hlast, Option.any_some, hnat, decide_eq_true_iff]
    · rw [Word.unsigned?_eq_none (by omega), Option.any_none]
      constructor
      · intro h; cases h
      · intro h; omega
  · rw [Word.unsigned?_eq_none (by omega), Option.bind_none, Option.any_none]
    constructor
    · intro h; cases h
    · intro h; omega

theorem checkWords_eq (page perPage : UInt64) :
    checkWords page perPage = verdict page.toNat perPage.toNat := by
  unfold checkWords verdict
  by_cases h : page = 0
  · have h0 : page.toNat = 0 := UInt64.toNat_inj.2 h
    rw [if_pos h, if_pos h0]
  · have hpos : page.toNat ≠ 0 := fun h0 => h (UInt64.toNat_inj.1 h0)
    have hany := any_end? h perPage
    rw [if_neg h, if_neg hpos]
    by_cases hin : maxWindow < page.toNat ∨
        maxWindow < (page.toNat - 1) * perPage.toNat + perPage.toNat
    · rw [if_pos hin, if_neg (by rw [hany]; omega)]
    · rw [if_neg hin, if_pos (by rw [hany]; omega)]

theorem ofNumbers_verdict (page perPage : Nat) :
    (ofNumbers page perPage).map (fun _ => ()) = verdict page perPage := by
  unfold ofNumbers verdict
  by_cases h : page = 0
  · rw [if_pos h, dif_neg (by omega)]
    rfl
  · rw [if_neg h, dif_pos (by omega), end_eq h]
    by_cases hin : maxWindow < page ∨ maxWindow < page * perPage
    · rw [if_pos hin, dif_neg (by omega)]
      rfl
    · rw [if_neg hin, dif_pos (by omega)]
      rfl

/-- the rows before an accepted page, and where its window ends -/
theorem offset?_eq {page perPage : UInt64} {p : PageParams}
    (h : ofNumbers page.toNat perPage.toNat = .ok p) :
    (offset? page perPage).map UInt64.toNat = some p.offset ∧
      p.offset + p.perPage ≤ maxSigned := by
  obtain ⟨hpage, hper⟩ := ofNumbers_eq_ok_iff.1 h
  have hne : page ≠ 0 := by
    intro h0
    have hpos := p.page_pos
    rw [hpage, h0] at hpos
    exact absurd hpos (by decide)
  have hend : p.offset + p.perPage ≤ maxSigned := by
    rw [p.offset_add_perPage]
    exact p.end_le
  have hle : (page.toNat - 1) * perPage.toNat ≤ maxUnsigned := by
    have hoffset : p.offset = (page.toNat - 1) * perPage.toNat := by rw [offset, hpage, hper]
    have hsigned : maxSigned < maxUnsigned := by decide
    omega
  refine ⟨?_, hend⟩
  obtain ⟨before, hsub, hbefore⟩ := Word.sub?_one hne
  unfold offset?
  rw [hsub, Option.bind_eq_bind, Option.bind_some]
  unfold Word.mul?
  rw [hbefore]
  obtain ⟨rows, hrows, hnat⟩ := Word.exists_unsigned hle
  rw [hrows, Option.map_some, hnat, offset, hpage, hper]

end PageParams

/-! ### how many pages there are -/

namespace Page

theorem pageCount_eq {perPage : Nat} (h : 0 < perPage) (total : Nat) :
    pageCount total perPage = total ⌈/⌉ perPage := by
  unfold pageCount
  rw [if_neg (by omega), Nat.ceilDiv_eq_add_pred_div, Nat.add_sub_assoc h]

theorem pageCount_le_iff {perPage : Nat} (h : 0 < perPage) {total n : Nat} :
    pageCount total perPage ≤ n ↔ total ≤ n * perPage := by
  rw [pageCount_eq h, ceilDiv_le_iff_le_mul h, Nat.mul_comm]

theorem pageCount_isLeast {perPage : Nat} (h : 0 < perPage) (total : Nat) :
    IsLeast {n | total ≤ n * perPage} (pageCount total perPage) :=
  ⟨(pageCount_le_iff h).1 (Nat.le_refl _), fun _ hn => (pageCount_le_iff h).2 hn⟩

theorem pageCount_le (total perPage : Nat) : pageCount total perPage ≤ total := by
  by_cases h : perPage = 0
  · unfold pageCount
    rw [if_pos h]
    exact Nat.zero_le _
  · exact (pageCount_le_iff (by omega)).2 (Nat.le_mul_of_pos_right _ (by omega))

/-- each row is on one page -/
theorem existsUnique_page {perPage : Nat} (h : 0 < perPage) {row total : Nat} (hrow : row < total) :
    ∃! n, n ∈ Set.Icc 1 (pageCount total perPage) ∧
      row ∈ Set.Ico ((n - 1) * perPage) (n * perPage) := by
  have hmod := Nat.div_add_mod' row perPage
  have hlt := Nat.mod_lt row h
  refine ⟨row / perPage + 1, ⟨⟨Nat.le_add_left 1 _, ?_⟩, ?_, ?_⟩, ?_⟩
  · -- fewer pages would not reach the row
    by_contra hfew
    have hcover : total ≤ row / perPage * perPage := (pageCount_le_iff h).1 (by omega)
    omega
  · show (row / perPage + 1 - 1) * perPage ≤ row
    rw [Nat.add_sub_cancel]
    omega
  · rw [Nat.add_mul, Nat.one_mul]
    omega
  · rintro n ⟨⟨hn, _⟩, hfrom, hto⟩
    obtain ⟨k, rfl⟩ : ∃ k, n = k + 1 := ⟨n - 1, by omega⟩
    rw [Nat.add_sub_cancel] at hfrom
    have hle : k ≤ row / perPage := (Nat.le_div_iff_mul_le h).2 hfrom
    have hge : row / perPage < k + 1 := (Nat.div_lt_iff_lt_mul h).2 hto
    omega

/-- the quotient, and one page more for what remains -/
theorem pageCount_eq_div {perPage : Nat} (h : 0 < perPage) (total : Nat) :
    pageCount total perPage =
      if 0 < total % perPage then total / perPage + 1 else total / perPage := by
  have hmod := Nat.div_add_mod' total perPage
  have hlt := Nat.mod_lt total h
  have hleast := pageCount_isLeast h total
  split
  · refine hleast.unique ⟨?_, fun n hn => ?_⟩
    · show total ≤ (total / perPage + 1) * perPage
      rw [Nat.add_mul, Nat.one_mul]
      omega
    · have hn : total ≤ n * perPage := hn
      by_contra hfew
      have hmul : n * perPage ≤ total / perPage * perPage :=
        Nat.mul_le_mul_right _ (by omega)
      omega
  · refine hleast.unique ⟨?_, fun n hn => Nat.div_le_of_le_mul (Nat.mul_comm n perPage ▸ hn)⟩
    show total ≤ total / perPage * perPage
    omega

theorem count?_eq (total perPage : UInt64) :
    (count? total perPage).map UInt64.toNat = some (pageCount total.toNat perPage.toNat) := by
  unfold count?
  by_cases h : perPage = 0
  · rw [if_pos h, h]
    rfl
  · have hpos : 0 < perPage.toNat := by
      have hne : perPage.toNat ≠ 0 := fun h0 => h (UInt64.toNat_inj.1 h0)
      omega
    have hmod : 0 < total % perPage ↔ 0 < total.toNat % perPage.toNat := by
      rw [UInt64.lt_iff_toNat_lt, UInt64.toNat_mod]
      rfl
    rw [if_neg h, pageCount_eq_div hpos]
    by_cases hrest : 0 < total.toNat % perPage.toNat
    · rw [if_pos hrest, if_pos (hmod.2 hrest)]
      have hle : (total / perPage).toNat + (1 : UInt64).toNat ≤ maxUnsigned := by
        have hdiv : pageCount total.toNat perPage.toNat ≤ total.toNat := pageCount_le _ _
        rw [pageCount_eq_div hpos, if_pos hrest] at hdiv
        have hlt := total.toNat_lt
        rw [UInt64.toNat_div]
        show total.toNat / perPage.toNat + 1 ≤ 18446744073709551615
        omega
      obtain ⟨pages, hpages, hnat⟩ := Word.exists_unsigned hle
      unfold Word.add?
      rw [hpages, Option.map_some, hnat, UInt64.toNat_div]
      rfl
    · rw [if_neg hrest, if_neg (fun h => hrest (hmod.1 h)), Option.map_some, UInt64.toNat_div]

/-! ### the next page -/

theorem successor_eq {page : Nat} (h : page < maxSigned) : successor page = (page : Int) + 1 := by
  unfold successor
  refine Int.bmod_eq_of_le ?_ ?_
  · show -((18446744073709551615 + 1 : Nat) / 2 : Int) ≤ _
    omega
  · unfold maxSigned at h
    show (page : Int) + 1 < ((18446744073709551615 + 1 : Nat) + 1) / 2
    omega

theorem next?_eq (page : UInt64) {pages : UInt64} (h : pages.toNat ≤ maxSigned) :
    (next? page pages).map Int64.toInt =
      some (if pages.toNat ≤ page.toNat then -1 else (page.toNat : Int) + 1) := by
  unfold next?
  by_cases hlast : pages ≤ page
  · rw [if_pos hlast, if_pos (UInt64.le_iff_toNat_le.1 hlast)]
    rfl
  · have hlt : ¬ pages.toNat ≤ page.toNat := fun h => hlast (UInt64.le_iff_toNat_le.2 h)
    unfold maxSigned at h
    have hsigned : isSigned64 (page.toNat : Int) = true := by
      refine decide_eq_true ?_
      unfold maxSigned
      omega
    have hnext : isSigned64 ((page.toNat : Int) + 1) = true := by
      refine decide_eq_true ?_
      unfold maxSigned
      omega
    obtain ⟨n, hn, hnat⟩ := Word.exists_signed hsigned
    obtain ⟨m, hm, hmat⟩ := Word.exists_signed hnext
    rw [if_neg hlast, if_neg hlt, hn, Option.bind_eq_bind, Option.bind_some, hnat, hm,
      Option.map_some, hmat]

theorem nextPage_create {α : Type} (items : List α) {total : Nat} (h : total ≤ maxSigned)
    (p : PageParams) :
    (create items total p).nextPage =
      if pageCount total p.perPage ≤ p.page then -1 else (p.page : Int) + 1 := by
  show (if pageCount total p.perPage ≤ p.page then -1 else successor p.page) = _
  by_cases hlast : pageCount total p.perPage ≤ p.page
  · rw [if_pos hlast, if_pos hlast]
  · have hle := pageCount_le total p.perPage
    rw [if_neg hlast, if_neg hlast, successor_eq (by omega)]

theorem cuts_create {α : Type} (items : List α) {total : Nat} (h : total ≤ maxSigned)
    {p : PageParams} (hper : 0 < p.perPage) : (create items total p).Cuts p total where
  next := by
    have hiff : pageCount total p.perPage ≤ p.page ↔ total ≤ p.page * p.perPage :=
      pageCount_le_iff hper
    rw [nextPage_create items h, p.offset_add_perPage]
    by_cases hlast : total ≤ p.page * p.perPage
    · rw [if_pos (hiff.2 hlast), if_neg (by omega)]
    · rw [if_neg (fun hle => hlast (hiff.1 hle)), if_pos (by omega)]
  least := pageCount_isLeast hper total
  row _ hrow := existsUnique_page hper hrow

end Page

/-- whatever number and size a page has, nothing overflows, and the windows of the pages cut the
rows that were counted -/
theorem pages_exact (page perPage : UInt64) :
    PageParams.checkWords page perPage = PageParams.verdict page.toNat perPage.toNat ∧
    (PageParams.ofNumbers page.toNat perPage.toNat).map (fun _ => ()) =
      PageParams.verdict page.toNat perPage.toNat ∧
    ∀ p, PageParams.ofNumbers page.toNat perPage.toNat = .ok p →
      (PageParams.offset? page perPage).map UInt64.toNat = some p.offset ∧
      p.offset + p.perPage ≤ maxSigned ∧
      ∀ {α : Type} (items : List α) (total : UInt64), total.toNat ≤ maxSigned →
        ∃ pages next, Page.count? total perPage = some pages ∧ Page.next? page pages = some next ∧
          (Page.create items total.toNat p).totalPages = pages.toNat ∧
          (Page.create items total.toNat p).nextPage = next.toInt ∧
          (0 < perPage → (Page.create items total.toNat p).Cuts p total.toNat) := by
  refine ⟨PageParams.checkWords_eq page perPage, PageParams.ofNumbers_verdict _ _,
    fun p hp => ?_⟩
  obtain ⟨hpage, hper⟩ := PageParams.ofNumbers_eq_ok_iff.1 hp
  obtain ⟨hoffset, hend⟩ := PageParams.offset?_eq hp
  refine ⟨hoffset, hend, fun {α} items total htotal => ?_⟩
  obtain ⟨pages, hpages, hcount⟩ := Option.map_eq_some_iff.1 (Page.count?_eq total perPage)
  have hle : pages.toNat ≤ maxSigned := by
    have h := Page.pageCount_le total.toNat perPage.toNat
    omega
  obtain ⟨next, hnext, hint⟩ := Option.map_eq_some_iff.1 (Page.next?_eq page hle)
  refine ⟨pages, next, hpages, hnext, ?_, ?_, fun h => ?_⟩
  · rw [hcount, ← hper]
    rfl
  · rw [Page.nextPage_create items htotal, hint, hcount, hpage, hper]
  · have hpos : 0 < p.perPage := by
      rw [hper]
      exact UInt64.lt_iff_toNat_lt.1 h
    exact Page.cuts_create items htotal hpos

/-- the last page but one of as many rows as can be counted -/
def lateWindow : PageParams :=
  ⟨9223372036854775806, 1, by decide, by decide, by decide⟩

theorem lateWindow_exact :
    PageParams.ofNumbers 9223372036854775806 1 = .ok lateWindow ∧
      PageParams.offset? 9223372036854775806 1 = some 9223372036854775805 ∧
      Page.next? 9223372036854775806 9223372036854775807 = some 9223372036854775807 ∧
      (Page.create [true] 9223372036854775807 lateWindow).nextPage = 9223372036854775807 ∧
      (Page.create [true] 9223372036854775807 lateWindow).Cuts lateWindow 9223372036854775807 := by
  have hp : PageParams.ofNumbers (9223372036854775806 : UInt64).toNat (1 : UInt64).toNat =
      .ok lateWindow := PageParams.ofNumbers_eq_ok_iff.2 ⟨rfl, rfl⟩
  obtain ⟨_, _, hexact⟩ := pages_exact 9223372036854775806 1
  obtain ⟨_, _, hpages⟩ := hexact lateWindow hp
  obtain ⟨_, _, _, _, _, _, hcuts⟩ := hpages [true] 9223372036854775807 (by decide)
  have hcuts := hcuts (by decide)
  exact ⟨hp, by decide, by decide, hcuts.next.trans (by decide), hcuts⟩

end EntityAccess
