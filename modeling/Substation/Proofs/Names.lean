import Mathlib.Data.List.Nodup
import Mathlib.Tactic.Common
import Substation.Text.Segment

/-!
# Names

Things of a list that have names of their own are found by their names (`find?_name_eq_some_iff`).

Names that were put together around a separator fall apart again in one way only, if the separator
does not stand in them: `append_cons_inj_left` for the first separator, `append_cons_inj_right` for
the last one, `split_joined` for all of them. In general, a text that is put together is split part
by part, where the parts meet at a separator (`split_append_sep`) or within a segment
(`split_append_of_not_mem`, `exists_split_append`).
-/

namespace Substation

section Find

variable {α β : Type} [DecidableEq β] {name : α → β} {as : List α} {n : β} {a : α}

/-- What is found by its name is in the list and has the name. -/
theorem mem_of_find?_name (h : as.find? (name · = n) = some a) : a ∈ as ∧ name a = n :=
  ⟨List.mem_of_find?_eq_some h, of_decide_eq_true (List.find?_some h :)⟩

theorem find?_name_eq_some_iff (h : (as.map name).Nodup) :
    as.find? (name · = n) = some a ↔ a ∈ as ∧ name a = n := by
  refine ⟨mem_of_find?_name, ?_⟩
  rintro ⟨ha, rfl⟩
  cases hf : as.find? (name · = name a) with
  | none =>
    have hne := List.find?_eq_none.mp hf a ha
    simp at hne
  | some b =>
    obtain ⟨hb, hname⟩ := mem_of_find?_name hf
    rw [List.inj_on_of_nodup_map h hb ha hname]

end Find

namespace Text

variable {sep : Char}

theorem segments_ne_nil (sep : Char) (s : String) : segments sep s ≠ [] := fun h =>
  split_ne_nil sep s.toList (List.map_eq_nil_iff.mp h)

/-- Two texts are the same before and after their first separator. -/
theorem append_cons_inj_left {a b a' b' : List Char} (ha : sep ∉ a) (ha' : sep ∉ a')
    (h : a ++ sep :: b = a' ++ sep :: b') : a = a' ∧ b = b' := by
  induction a generalizing a' with
  | nil =>
    cases a' with
    | nil => exact ⟨rfl, (List.cons.inj h).2⟩
    | cons c cs =>
      obtain ⟨rfl, -⟩ := List.cons.inj h
      exact absurd List.mem_cons_self ha'
  | cons c cs ih =>
    cases a' with
    | nil =>
      obtain ⟨rfl, -⟩ := List.cons.inj h
      exact absurd List.mem_cons_self ha
    | cons c' cs' =>
      obtain ⟨rfl, htail⟩ := List.cons.inj h
      obtain ⟨rfl, hb⟩ := ih (fun hm => ha (List.mem_cons_of_mem _ hm))
        (fun hm => ha' (List.mem_cons_of_mem _ hm)) htail
      exact ⟨rfl, hb⟩

/-- Two texts are the same before and after their last separator. -/
theorem append_cons_inj_right {a b a' b' : List Char} (hb : sep ∉ b) (hb' : sep ∉ b')
    (h : a ++ sep :: b = a' ++ sep :: b') : a = a' ∧ b = b' := by
  have hrev := congrArg List.reverse h
  rw [List.reverse_append, List.reverse_append, List.reverse_cons, List.reverse_cons,
    List.append_assoc, List.append_assoc] at hrev
  obtain ⟨hbs, has⟩ := append_cons_inj_left (by rwa [List.mem_reverse])
    (by rwa [List.mem_reverse]) hrev
  exact ⟨List.reverse_injective has, List.reverse_injective hbs⟩

/-- The names, each with a separator before it. -/
def joined (sep : Char) (ns : List String) : List Char :=
  ns.flatMap fun n => sep :: n.toList

theorem split_of_not_mem {a : List Char} (ha : sep ∉ a) : split sep a = [a] := by
  induction a with
  | nil => rfl
  | cons c cs ih =>
    have hc : c ≠ sep := fun h => ha (h ▸ List.mem_cons_self)
    rw [split, if_neg hc, ih fun h => ha (List.mem_cons_of_mem _ h)]

theorem split_append_cons {a b : List Char} (ha : sep ∉ a) :
    split sep (a ++ sep :: b) = a :: split sep b := by
  induction a with
  | nil => rw [List.nil_append, split, if_pos rfl]
  | cons c cs ih =>
    have hc : c ≠ sep := fun h => ha (h ▸ List.mem_cons_self)
    rw [List.cons_append, split, if_neg hc, ih fun h => ha (List.mem_cons_of_mem _ h)]

/-- Joined names fall apart into the names. -/
theorem split_joined {a : List Char} {ns : List String} (ha : sep ∉ a)
    (hns : ∀ n ∈ ns, sep ∉ n.toList) :
    split sep (a ++ joined sep ns) = a :: ns.map String.toList := by
  induction ns generalizing a with
  | nil =>
    rw [joined, List.flatMap_nil, List.append_nil, split_of_not_mem ha]
    rfl
  | cons n ns ih =>
    obtain ⟨hn, hns⟩ := List.forall_mem_cons.mp hns
    rw [joined, List.flatMap_cons, List.cons_append, split_append_cons ha]
    exact congrArg (a :: ·) (ih hn hns)

/-- Joining loses no name. -/
theorem joined_inj {ns ns' : List String} (hns : ∀ n ∈ ns, sep ∉ n.toList)
    (hns' : ∀ n ∈ ns', sep ∉ n.toList) (h : joined sep ns = joined sep ns') : ns = ns' := by
  have hsplit := split_joined (a := []) List.not_mem_nil hns
  rw [h, split_joined List.not_mem_nil hns'] at hsplit
  have hmap := (List.cons.inj hsplit).2
  exact (List.map_injective_iff.mpr (fun _ _ => String.toList_injective) hmap).symm

theorem not_mem_of_mem_split {s : List Char} : ∀ a ∈ split sep s, sep ∉ a := by
  induction s with
  | nil => simp [split]
  | cons c cs ih =>
    by_cases hc : c = sep
    · rw [split, if_pos hc]
      exact List.forall_mem_cons.mpr ⟨List.not_mem_nil, ih⟩
    · obtain ⟨a, as, has⟩ := List.exists_cons_of_ne_nil (split_ne_nil sep cs)
      rw [has] at ih
      obtain ⟨ha, has'⟩ := List.forall_mem_cons.mp ih
      rw [split, if_neg hc, has]
      exact List.forall_mem_cons.mpr ⟨List.not_mem_cons_of_ne_of_not_mem (Ne.symm hc) ha, has'⟩

/-- What stands between the separators is all that is no separator. -/
theorem flatten_split (sep : Char) (s : List Char) :
    (split sep s).flatten = s.filter (· ≠ sep) := by
  induction s with
  | nil => rfl
  | cons c cs ih =>
    by_cases hc : c = sep
    · simp [split, hc, ih]
    · obtain ⟨a, as, has⟩ := List.exists_cons_of_ne_nil (split_ne_nil sep cs)
      rw [has, List.flatten_cons] at ih
      simp [split, hc, has, ih]

/-- Characters that are mapped without regard to their place stay in their segments. -/
theorem split_map {f : Char → Char} (hf : ∀ c, f c = sep ↔ c = sep) (s : List Char) :
    split sep (s.map f) = (split sep s).map (List.map f) := by
  induction s with
  | nil => rfl
  | cons c cs ih =>
    by_cases hc : c = sep
    · rw [List.map_cons, split, if_pos ((hf c).mpr hc), ih, split, if_pos hc]
      rfl
    · obtain ⟨a, as, has⟩ := List.exists_cons_of_ne_nil (split_ne_nil sep cs)
      simp [split, mt (hf c).mp hc, hc, ih, has]

theorem map_toList_segments (sep : Char) (s : String) :
    (segments sep s).map String.toList = split sep s.toList := by
  rw [segments, List.map_map]
  exact (List.map_congr_left fun a _ => String.toList_ofList).trans (List.map_id _)

theorem not_mem_of_mem_segments {s n : String} (hn : n ∈ segments sep s) : sep ∉ n.toList := by
  refine not_mem_of_mem_split (s := s.toList) n.toList ?_
  rw [← map_toList_segments]
  exact List.mem_map_of_mem hn

/-- Segments with the separator between them are the text. -/
theorem intercalate_segments (sep : Char) (s : String) :
    (String.singleton sep).intercalate (segments sep s) = s := by
  rw [← String.toList_inj, String.toList_intercalate, map_toList_segments, String.toList_singleton]
  exact intercalate_split sep s.toList

theorem toList_intercalate_cons (sep : Char) (n : String) (ns : List String) :
    ((String.singleton sep).intercalate (n :: ns)).toList = n.toList ++ joined sep ns := by
  rw [String.toList_intercalate, String.toList_singleton, joined]
  induction ns generalizing n with
  | nil => simp [List.intercalate]
  | cons n' ns ih =>
    rw [List.map_cons, List.map_cons, List.intercalate_cons_cons, ← List.map_cons, ih,
      List.flatMap_cons]
    simp

/-- Names without the separator are the segments of what they are put together to. -/
theorem segments_intercalate {ns : List String} (hne : ns ≠ []) (hns : ∀ n ∈ ns, sep ∉ n.toList) :
    segments sep ((String.singleton sep).intercalate ns) = ns := by
  obtain ⟨n, ns, rfl⟩ := List.exists_cons_of_ne_nil hne
  obtain ⟨hn, hns⟩ := List.forall_mem_cons.mp hns
  refine List.map_injective_iff.mpr (fun _ _ => String.toList_injective) ?_
  rw [map_toList_segments, toList_intercalate_cons, split_joined hn hns, List.map_cons]

theorem splitFirst?_append {s : String} {a b : List Char} (ha : sep ∉ a)
    (hs : s.toList = a ++ sep :: b) :
    splitFirst? sep s = some (String.ofList a, String.ofList b) := by
  have hall : ∀ c ∈ a, (c != sep) = true := fun c hc =>
    bne_iff_ne.mpr fun h => ha (h ▸ hc)
  unfold splitFirst?
  rw [hs, List.dropWhile_append_of_pos hall, List.takeWhile_append_of_pos hall]
  simp

theorem splitFirst?_of_not_mem {s : String} (h : sep ∉ s.toList) :
    splitFirst? sep s = none := by
  have hall : ∀ c ∈ s.toList, (c != sep) = true := fun c hc =>
    bne_iff_ne.mpr fun heq => h (heq ▸ hc)
  have hdrop : (s.toList ++ []).dropWhile (· != sep) = [] := by
    rw [List.dropWhile_append_of_pos hall]
    rfl
  rw [List.append_nil] at hdrop
  rw [splitFirst?, hdrop]

/-! ## Splitting what is put together -/

theorem length_split (sep : Char) (s : List Char) : (split sep s).length = s.count sep + 1 := by
  induction s with
  | nil => rfl
  | cons c s ih =>
    rw [split]
    split
    · next hc => rw [List.length_cons, ih, hc, List.count_cons_self]
    · next hc =>
      rw [List.count_cons_of_ne hc, ← ih]
      cases h : split sep s with
      | nil => exact absurd h (split_ne_nil sep s)
      | cons a rest => rfl

/-- What is in front of a separator and what follows it fall apart each on its own. -/
theorem split_append_sep (sep : Char) (a b : List Char) :
    split sep (a ++ sep :: b) = split sep a ++ split sep b := by
  induction a with
  | nil =>
    show split sep (sep :: b) = [] :: split sep b
    rw [split, if_pos rfl]
  | cons c a ih =>
    rw [List.cons_append, split, split, ih]
    split
    · rfl
    · cases h : split sep a with
      | nil => exact absurd h (split_ne_nil sep a)
      | cons s rest => rfl

/-- What holds no separator is part of the first segment of what follows it. -/
theorem split_append_of_not_mem {sep : Char} {x s : List Char} (hx : sep ∉ x) {a : List Char}
    {rest : List (List Char)} (h : split sep s = a :: rest) :
    split sep (x ++ s) = (x ++ a) :: rest := by
  induction x with
  | nil => exact h
  | cons c x ih =>
    obtain ⟨hc, hx⟩ := not_or.mp (List.mem_cons.not.mp hx)
    rw [List.cons_append, split, if_neg (Ne.symm hc), ih hx]
    rfl

/-- What follows without a separator is part of the last segment. -/
theorem exists_split_append (sep : Char) (p : List Char) : ∃ front last,
    ∀ q, sep ∉ q → split sep (p ++ q) = front ++ [last ++ q] := by
  induction p with
  | nil => exact ⟨[], [], fun q hq => split_of_not_mem hq⟩
  | cons c p ih =>
    obtain ⟨front, last, h⟩ := ih
    by_cases hc : c = sep
    · refine ⟨[] :: front, last, fun q hq => ?_⟩
      rw [List.cons_append, split, if_pos hc, h q hq]
      rfl
    · cases front with
      | nil =>
        refine ⟨[], c :: last, fun q hq => ?_⟩
        rw [List.cons_append, split, if_neg hc, h q hq]
        rfl
      | cons s front =>
        refine ⟨(c :: s) :: front, last, fun q hq => ?_⟩
        rw [List.cons_append, split, if_neg hc, h q hq]
        rfl

end Text

end Substation
