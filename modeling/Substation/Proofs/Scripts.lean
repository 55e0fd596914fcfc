import Mathlib.Data.List.Basic
import Mathlib.Tactic.Common
import Substation.Emission.DataStatement

/-!
# Scripts line by line

The lines of a script that is put together are the lines of its parts, and entries of the journal
add none; the entries are those of the parts as well. A run that succeeds has written all lines
(`Script.adds_of_run`), and into a sink without a limit every run succeeds (`Script.exists_run`).
-/

namespace Substation.Emission

open Substation.Journal

namespace Script

/-! ## Lines -/

theorem lines_append (s t : Script) : (s ++ t).lines = s.lines ++ t.lines := rfl

theorem lines_concat (ss : List Script) : (concat ss).lines = ss.flatMap lines := by
  induction ss with
  | nil => rfl
  | cons s ss ih => rw [concat, lines_append, ih, List.flatMap_cons]

theorem lines_remarks (es : List Entry) : (concat (es.map remark)).lines = [] := by
  rw [lines_concat, List.flatMap_map, List.flatMap_eq_nil_iff]
  exact fun _ _ => rfl

theorem text_append (s t : Script) : (append s t).text = s.text ++ t.text := List.flatMap_append

theorem text_each (count : Nat) (entry : Nat → Script) :
    (each count entry).text = (List.range' 0 count).flatMap fun i => (entry i).text := by
  rw [text, lines, List.flatMap_assoc, List.range_eq_range']
  rfl

/-! ## Entries -/

theorem entries_append (s t : Script) : (s ++ t).entries = s.entries ++ t.entries := rfl

theorem entries_concat (ss : List Script) : (concat ss).entries = ss.flatMap entries := by
  induction ss with
  | nil => rfl
  | cons s ss ih => rw [concat, entries_append, ih, List.flatMap_cons]

theorem entries_remarks (es : List Entry) : (concat (es.map remark)).entries = es := by
  rw [entries_concat, List.flatMap_map]
  exact List.flatMap_singleton' es

/-! ## Runs -/

/-- The second sink is the first one with a text more. -/
def Adds (text : List Char) (s t : Sink) : Prop :=
  t.limit = s.limit ∧ t.text = s.text ++ String.ofList text

theorem Adds.nil {s t : Sink} (hlimit : t.limit = s.limit) (htext : t.text = s.text) :
    Adds [] s t :=
  ⟨hlimit, by simp [htext]⟩

theorem Adds.append {text text' : List Char} {s t u : Sink} (h : Adds text s t)
    (h' : Adds text' t u) : Adds (text ++ text') s u := by
  refine ⟨h'.1.trans h.1, ?_⟩
  rw [h'.2, h.2, String.ofList_append, String.append_assoc]

theorem adds_of_write {s t : Sink} {text : String} (h : s.write text = .ok t) :
    Adds text.toList s t := by
  unfold Sink.write at h
  split at h
  · cases h
    exact ⟨rfl, by simp⟩
  · split at h
    · cases h
      exact ⟨rfl, by simp⟩
    · cases h

theorem adds_of_forEachFrom {step : Nat → Sink → Except Sink Sink} {texts : Nat → List Char}
    (hstep : ∀ i s t, step i s = .ok t → Adds (texts i) s t) {n : Nat} :
    ∀ {i s t}, forEachFrom step i n s = .ok t → Adds ((List.range' i n).flatMap texts) s t := by
  induction n with
  | zero =>
    intro i s t h
    cases h
    exact .nil rfl rfl
  | succ n ih =>
    intro i s t h
    rw [forEachFrom] at h
    cases hs : step i s with
    | error e =>
      rw [hs] at h
      exact nomatch h
    | ok u =>
      rw [hs] at h
      rw [List.range'_succ, List.flatMap_cons]
      exact (hstep i s u hs).append (ih h)

/-- A run that succeeds has written the whole text. -/
theorem adds_of_run {script : Script} : ∀ {s t}, script.run s = .ok t → Adds script.text s t := by
  induction script with
  | nil =>
    intro s t h
    cases h
    exact .nil rfl rfl
  | line l =>
    intro s t h
    have hadds := adds_of_write h
    rw [String.toList_append] at hadds
    simpa [text, lines] using hadds
  | remark e =>
    intro s t h
    cases h
    exact .nil rfl rfl
  | append first second ih₁ ih₂ =>
    intro s t h
    rw [run] at h
    cases hs : first.run s with
    | error e =>
      rw [hs] at h
      exact nomatch h
    | ok u =>
      rw [hs] at h
      rw [text_append]
      exact (ih₁ hs).append (ih₂ h)
  | each count entry ih =>
    intro s t h
    rw [text_each]
    exact adds_of_forEachFrom (fun i _ _ => ih i) h

theorem exists_forEachFrom {step : Nat → Sink → Except Sink Sink} {texts : Nat → List Char}
    (hstep : ∀ i s t, step i s = .ok t → Adds (texts i) s t)
    (hok : ∀ i s, s.limit = none → ∃ t, step i s = .ok t) (n : Nat) :
    ∀ i s, s.limit = none → ∃ t, forEachFrom step i n s = .ok t := by
  induction n with
  | zero => exact fun i s _ => ⟨s, rfl⟩
  | succ n ih =>
    intro i s hs
    obtain ⟨u, hu⟩ := hok i s hs
    rw [forEachFrom, hu]
    exact ih (i + 1) u ((hstep i s u hu).1.trans hs)

/-- A sink without a limit is never full. -/
theorem exists_run (script : Script) :
    ∀ s : Sink, s.limit = none → ∃ t, script.run s = .ok t := by
  induction script with
  | nil => exact fun s _ => ⟨s, rfl⟩
  | line l =>
    intro s hs
    rw [run, Sink.write, hs]
    exact ⟨_, rfl⟩
  | remark e => exact fun s _ => ⟨s.enter e, rfl⟩
  | append first second ih₁ ih₂ =>
    intro s hs
    obtain ⟨u, hu⟩ := ih₁ s hs
    rw [run, hu]
    exact ih₂ u ((adds_of_run hu).1.trans hs)
  | each count entry ih =>
    intro s hs
    have hadds (i : Nat) (s t : Sink) (h : (entry i).run s = .ok t) :
        Adds (entry i).text s t := adds_of_run h
    exact exists_forEachFrom hadds ih count 0 s hs

end Script

end Substation.Emission
