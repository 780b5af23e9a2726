/-!
Courier.Registry — what is known under a name.

A registry is a value: whoever has looked at it keeps what was seen, whatever is registered
later. Each change is one step from one registry to the next.
-/

namespace Courier

/-- Names and what they stand for, each name once. -/
structure Registry (α : Type) where
  entries : List (String × α) := []
  deriving Repr, Inhabited

namespace Registry

/-- What a name stands for. -/
def get? (name : String) (r : Registry α) : Option α :=
  (r.entries.find? (·.1 == name)).map (·.2)

/-- The name stands for something. -/
def contains (name : String) (r : Registry α) : Bool :=
  (r.get? name).isSome

/-- How many names there are. -/
def size (r : Registry α) : Nat :=
  r.entries.length

/-- The registry without a name. -/
def erase (name : String) (r : Registry α) : Registry α :=
  { entries := r.entries.filter (·.1 != name) }

/-- The name stands for `value` from now on, whatever it stood for. -/
def insert (name : String) (value : α) (r : Registry α) : Registry α :=
  { entries := (r.erase name).entries ++ [(name, value)] }

/-- The name stands for `value` from now on, if it stood for nothing; `true` if it did not. -/
def insertNew (name : String) (value : α) (r : Registry α) : Bool × Registry α :=
  if r.contains name then (false, r) else (true, r.insert name value)

@[simp] theorem get?_empty (name : String) : ({} : Registry α).get? name = none := rfl

@[simp] theorem get?_erase_self (name : String) (r : Registry α) :
    (r.erase name).get? name = none := by
  simp [get?, erase, List.find?_filter]

theorem get?_erase_of_ne {name other : String} (h : other ≠ name) (r : Registry α) :
    (r.erase name).get? other = r.get? other := by
  have same : (fun e : String × α => !decide (e.1 = name) && decide (e.1 = other)) =
      fun e => e.1 == other := by
    funext e
    by_cases he : e.1 = other <;> simp [he, h]
  simp [get?, erase, List.find?_filter, same]

@[simp] theorem get?_insert_self (name : String) (value : α) (r : Registry α) :
    (r.insert name value).get? name = some value := by
  have h := get?_erase_self name r
  simp only [get?, Option.map_eq_none_iff] at h
  simp [get?, insert, h]

theorem get?_insert_of_ne {name other : String} (h : other ≠ name) (value : α) (r : Registry α) :
    (r.insert name value).get? other = r.get? other := by
  rw [← get?_erase_of_ne h r]
  simp [get?, insert, Ne.symm h]

end Registry

end Courier
