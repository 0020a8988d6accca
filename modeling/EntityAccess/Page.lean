import EntityAccess.Error

/-!
# pages

A page is a window of `perPage` rows; pages are numbered from 1.  Whatever window is accepted ends
within the signed numbers of 64 bits.

* `ofNumbers_eq_ok_iff` : which page numbers and sizes are accepted;
* `offset_add_perPage` : where a window ends.
-/

namespace EntityAccess

/-- the greatest row number that a window may reach -/
def maxWindow : Nat := Number.maxSigned

structure PageParams where
  page : Nat
  perPage : Nat
  page_pos : 0 < page
  page_le : page ≤ maxWindow
  end_le : page * perPage ≤ maxWindow

namespace PageParams

/-- the page of that number and size -/
def ofNumbers (page perPage : Nat) : Except Error PageParams :=
  if hpos : 0 < page then
    if hle : page ≤ maxWindow ∧ page * perPage ≤ maxWindow then
      .ok ⟨page, perPage, hpos, hle.1, hle.2⟩
    else .error (.badRequest .pageOutOfRange)
  else .error (.badRequest .pageZero)

/-- how many rows come before the page -/
def offset (p : PageParams) : Nat := (p.page - 1) * p.perPage

theorem ofNumbers_eq_ok_iff {page perPage : Nat} {p : PageParams} :
    ofNumbers page perPage = .ok p ↔ p.page = page ∧ p.perPage = perPage := by
  refine ⟨fun h => ?_, ?_⟩
  · unfold ofNumbers at h
    split at h
    · split at h
      · cases h; exact ⟨rfl, rfl⟩
      · cases h
    · cases h
  · rintro ⟨rfl, rfl⟩
    simp [ofNumbers, p.page_pos, p.page_le, p.end_le]

theorem offset_add_perPage (p : PageParams) : p.offset + p.perPage = p.page * p.perPage := by
  obtain ⟨n, hn⟩ : ∃ n, p.page = n + 1 := ⟨p.page - 1, by have := p.page_pos; omega⟩
  simp [offset, hn, Nat.add_mul]

end PageParams

/-- the rows of a page and its place among all pages -/
structure Page (α : Type) where
  items : List α
  total : Nat
  currentPage : Nat
  /-- the number of the next page, `-1` if there is none -/
  nextPage : Int
  totalPages : Nat

namespace Page

/-- how many pages hold that many rows; pages of size zero hold nothing -/
def pageCount (total perPage : Nat) : Nat :=
  if perPage = 0 then 0 else (total + (perPage - 1)) / perPage

/-- the number after a page number, as a signed number of 64 bits -/
def successor (page : Nat) : Int := Int.bmod (page + 1) (Number.maxUnsigned + 1)

/-- the page with the given rows out of `total` -/
def create {α : Type} (items : List α) (total : Nat) (p : PageParams) : Page α :=
  let pages := pageCount total p.perPage
  ⟨if p.perPage = 0 then [] else items, total, p.page,
    if pages ≤ p.page then -1 else successor p.page, pages⟩

/-- a page of values as one object -/
def toJson (p : Page Json) : Json :=
  Json.ofFields [
    ("items", .arr p.items),
    ("total", .nat p.total),
    ("current_page", .nat p.currentPage),
    ("next_page", .int p.nextPage),
    ("total_pages", .nat p.totalPages)]

end Page
end EntityAccess
