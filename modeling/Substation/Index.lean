/-!
# Indexes

An index holds at most one value for a key and lists its keys in ascending order. A value that is
put under a key takes the place of the one that stood there.
-/

namespace Substation

namespace Index

variable {κ ν : Type} [Ord κ]

/-- Every key is less than those behind it. -/
def Ascending (es : List (κ × ν)) : Prop :=
  es.Pairwise fun e e' => compare e.1 e'.1 = .lt

/-- The value of a key among entries in ascending order. -/
def seek (key : κ) : List (κ × ν) → Option ν
  | [] => none
  | e :: es =>
    match compare key e.1 with
    | .lt => none
    | .eq => some e.2
    | .gt => seek key es

/-- Puts a value under a key among entries in ascending order. -/
def place (key : κ) (value : ν) : List (κ × ν) → List (κ × ν)
  | [] => [(key, value)]
  | e :: es =>
    match compare key e.1 with
    | .lt => (key, value) :: e :: es
    | .eq => (key, value) :: es
    | .gt => e :: place key value es

theorem mem_of_mem_place {key : κ} {value : ν} {es : List (κ × ν)} {e : κ × ν}
    (h : e ∈ place key value es) : e = (key, value) ∨ e ∈ es := by
  induction es with
  | nil => exact .inl (List.mem_singleton.mp h)
  | cons first es ih =>
    rw [place] at h
    split at h
    · exact List.mem_cons.mp h
    · exact (List.mem_cons.mp h).imp_right (List.mem_cons_of_mem _)
    · obtain rfl | h := List.mem_cons.mp h
      · exact .inr List.mem_cons_self
      · exact (ih h).imp_right (List.mem_cons_of_mem _)

theorem Ascending.place [Std.TransOrd κ] {es : List (κ × ν)} (h : Ascending es) (key : κ)
    (value : ν) : Ascending (place key value es) := by
  induction es with
  | nil => exact List.pairwise_singleton _ _
  | cons first es ih =>
    obtain ⟨hfirst, hrest⟩ := List.pairwise_cons.mp h
    rw [Index.place]
    split
    · next hlt =>
      refine List.pairwise_cons.mpr ⟨fun e he => ?_, h⟩
      obtain rfl | he := List.mem_cons.mp he
      · exact hlt
      · exact Std.TransCmp.lt_trans hlt (hfirst e he)
    · next heq =>
      exact List.pairwise_cons.mpr
        ⟨fun e he => Std.TransCmp.lt_of_eq_of_lt heq (hfirst e he), hrest⟩
    · next hgt =>
      refine List.pairwise_cons.mpr ⟨fun e he => ?_, ih hrest⟩
      obtain rfl | he := mem_of_mem_place he
      · exact Std.OrientedCmp.lt_of_gt hgt
      · exact hfirst e he

end Index

/-- Values by key, in ascending order of the keys. -/
structure Index (κ ν : Type) [Ord κ] where
  /-- The keys with their values. -/
  entries : List (κ × ν) := []
  /-- The keys ascend. -/
  ascending : Index.Ascending entries := by exact .nil

namespace Index

variable {κ ν : Type} [Ord κ]

/-- The value of a key. -/
def find? (x : Index κ ν) (key : κ) : Option ν := seek key x.entries

/-- Whether a key has a value. -/
def contains (x : Index κ ν) (key : κ) : Bool := (x.find? key).isSome

/-- Puts a value under a key. -/
def insert [Std.TransOrd κ] (x : Index κ ν) (key : κ) (value : ν) : Index κ ν :=
  ⟨place key value x.entries, x.ascending.place key value⟩

end Index

end Substation
