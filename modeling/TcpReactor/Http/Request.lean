import TcpReactor.Bytes
import TcpReactor.Text.Blank

namespace TcpReactor.Http

/-! # Requests

A request is a request line, header fields and a body. The fields of a request form a map: a field
that is set again keeps its place and takes the new value. Names in the map are in lower case, and
a lookup puts the name that it is given into lower case first.
-/

/-- Header fields, each name once, in the order in which the names were first set. -/
abbrev Fields := List (String × String)

namespace Fields

/-- Set a field. -/
def insert (name value : String) : Fields → Fields
  | [] => [(name, value)]
  | (key, old) :: fields =>
      if key = name then (key, value) :: fields else (key, old) :: insert name value fields

/-- The value of a field, by its exact name. -/
def get? (name : String) (fields : Fields) : Option String :=
  (fields.find? (·.1 == name)).map (·.2)

/-- A field that was just set has its new value, and the others have theirs. -/
theorem get?_insert (name key value : String) (fields : Fields) :
    get? key (insert name value fields) = if name = key then some value else get? key fields := by
  induction fields with
  | nil => by_cases h : name = key <;> simp [insert, get?, h]
  | cons field fields ih =>
      obtain ⟨first, old⟩ := field
      simp only [get?] at ih
      by_cases hf : first = name
      · by_cases hk : name = key <;> simp_all [insert, get?]
      · by_cases hk : first = key <;> simp_all [insert, get?]
        exact fun h => absurd (h ▸ rfl) hf

end Fields

/-- The three parts of the first line of a request. -/
structure RequestLine where
  method : String
  target : String
  version : String
  deriving DecidableEq, Repr

/-- A complete request. -/
structure Request extends RequestLine where
  fields : Fields
  body : Bytes
  deriving DecidableEq, Repr

namespace Request

/-- The value of a header field; the case of `name` does not matter. -/
def header? (r : Request) (name : String) : Option String := Fields.get? name.toLower r.fields

/-- Does the peer ask to close the connection after the answer? -/
def wantsClose (r : Request) : Bool :=
  match r.header? "connection" with
  | some value => occursIn "close".toList value.toLower.toList
  | none => false

end Request
end TcpReactor.Http
