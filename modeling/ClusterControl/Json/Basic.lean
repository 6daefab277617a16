import ClusterControl.Number.Shortest

/-!
# JSON values

A number is whole or a double. The members of an object stand in ascending order of their names,
each name once.
-/

namespace ClusterControl

inductive Json.Number where
  | whole (value : Int)
  | real (value : Binary64)
deriving DecidableEq, Repr

inductive Json where
  | null
  | bool (value : Bool)
  | number (value : Json.Number)
  | text (value : String)
  | list (items : List Json)
  | object (members : List (String × Json))
deriving Repr, Inhabited

namespace Json

abbrev Members := List (String × Json)

namespace Members

/-- Sets a member, keeping the ascending order of names. -/
def insert (name : String) (value : Json) : Members → Members
  | [] => [(name, value)]
  | (n, v) :: rest =>
    if name < n then (name, value) :: (n, v) :: rest
    else if name = n then (name, value) :: rest
    else (n, v) :: insert name value rest

/-- The members of a sequence of settings; the last setting of a name wins. -/
def ofList (settings : List (String × Json)) : Members :=
  settings.foldl (fun m s => insert s.1 s.2 m) []

def get? (name : String) : Members → Option Json
  | [] => none
  | (n, v) :: rest => if n = name then some v else get? name rest

end Members

def nat (n : Nat) : Json := .number (.whole n)

def option {α : Type} (encode : α → Json) : Option α → Json
  | none => .null
  | some a => encode a

def ofOption : Option String → Json := option .text

def texts (items : List String) : Json := .list (items.map .text)

end Json

end ClusterControl
