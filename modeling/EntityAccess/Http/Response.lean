import EntityAccess.Page

/-!
# responses

A successful answer has its rows under `data`; a list adds how many there are, a page its place.
-/

namespace EntityAccess.Http

structure Response where
  status : Nat
  /-- no body if there is no JSON to send -/
  body : Option Json

namespace Response

def plain (status : Nat) : Response := ⟨status, none⟩

def ofError (e : Error) : Response := ⟨e.status.1, some e.body⟩

/-- data with an account of it -/
def envelope (data : Json) (about : List (String × Json)) : Json :=
  Json.ofFields [("data", data), ("meta", Json.ofFields about)]

/-- one row that has been created -/
def created (data : Json) : Response := ⟨201, some (Json.ofFields [("data", data)])⟩

/-- one row -/
def one (data : Json) : Response := ⟨200, some (Json.ofFields [("data", data)])⟩

/-- all rows -/
def many (data : List Json) : Response :=
  ⟨200, some (envelope (.arr data) [("count", .nat data.length)])⟩

/-- the rows of a page -/
def page (p : Page Json) : Response :=
  ⟨200, some (envelope (.arr p.items) [
    ("total", .nat p.total),
    ("current_page", .nat p.currentPage),
    ("next_page", .int p.nextPage),
    ("total_pages", .nat p.totalPages)])⟩

end Response
end EntityAccess.Http
