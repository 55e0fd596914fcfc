/-!
# Catalogues

A catalogue holds at most one value for an id and lists its ids in ascending order. The first value
given for an id stays: inserting another changes nothing (`find?_insert`).
-/

namespace Substation.Template

/-- Values by id, in the order of their ids. -/
structure Catalogue (α : Type) where
  /-- The ids with their values. -/
  entries : List (String × α) := []

namespace Catalogue

variable {α : Type}

/-- The ids in ascending order. -/
def ids (c : Catalogue α) : List String := c.entries.map Prod.fst

/-- The number of ids. -/
def size (c : Catalogue α) : Nat := c.entries.length

/-- The value of an id. -/
def find? (c : Catalogue α) (id : String) : Option α := c.entries.lookup id

/-- Whether an id has a value. -/
def contains (c : Catalogue α) (id : String) : Bool := (c.find? id).isSome

/-- Puts an entry before the first one with a greater id. -/
def place (id : String) (value : α) : List (String × α) → List (String × α)
  | [] => [(id, value)]
  | e :: es => if id < e.1 then (id, value) :: e :: es else e :: place id value es

/-- Adds a value for an id that has none yet. -/
def insert (c : Catalogue α) (id : String) (value : α) : Catalogue α :=
  if c.contains id then c else ⟨place id value c.entries⟩

theorem exists_entry {c : Catalogue α} {id : String} {a : α} (h : c.find? id = some a) :
    ∃ e ∈ c.entries, e.2 = a := by
  obtain ⟨front, back, heq, -⟩ := List.lookup_eq_some_iff.mp h
  exact ⟨(id, a), heq ▸ List.mem_append_right _ List.mem_cons_self, rfl⟩

theorem lookup_place (id key : String) (value : α) (es : List (String × α))
    (h : es.lookup id = none) :
    (place id value es).lookup key = if key = id then some value else es.lookup key := by
  have first (rest : List (String × α)) :
      List.lookup key ((id, value) :: rest) = if key = id then some value else rest.lookup key := by
    by_cases hk : key = id
    · simp [hk]
    · simp [List.lookup_cons, hk, beq_false_of_ne hk]
  induction es with
  | nil => exact first []
  | cons e es ih =>
    obtain ⟨k, v⟩ := e
    have hne : (id == k) = false := by
      cases hk : id == k <;> simp_all [List.lookup_cons]
    have hrest : es.lookup id = none := by simpa [List.lookup_cons, hne] using h
    rw [place]
    split
    · exact first ((k, v) :: es)
    · rw [List.lookup_cons, List.lookup_cons, ih hrest]
      by_cases hk : key = id <;> simp [hk, hne]

/-- What an id has after an insertion: what it had before, or else the inserted value. -/
theorem find?_insert (c : Catalogue α) (id key : String) (value : α) :
    (c.insert id value).find? key =
      (c.find? key).or (if key = id then some value else none) := by
  unfold insert contains
  cases h : c.find? id with
  | some v =>
    by_cases hk : key = id
    · simp [hk, h]
    · simp [hk]
  | none =>
    have := lookup_place id key value c.entries h
    simp only [find?] at h ⊢
    grind

end Catalogue

end Substation.Template
