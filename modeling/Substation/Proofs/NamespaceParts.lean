import Mathlib.Tactic.Common
import Substation.Proofs.KnownSpaces

/-!
# The parts of a namespace

A namespace is written as its identifier, a colon and its edition, which is a version of four
characters, a revision of one and a release. Reading finds these parts again (`parse?_text`). An
edition that ends with the version is read as its first revision, `A` (`parse?_shortText`), so the
parts of a first revision without a release are written in two ways, and all others in one
(`Parts.Writes`). A text that can be read is written in one of these ways (`parse?_eq_some_iff`).

Results:
* `parse?_text`, `parse?_shortText` (`Namespace::parse`): what is written is read;
* `parse?_eq_some_iff`: what is read was written;
* `written_as_read` (`nsd_path`): both, and the path of the definition file.
-/

namespace Substation.Model.Namespace

/-- What a namespace is put together from. -/
structure Parts where
  /-- What comes before the first colon. -/
  identifier : String
  /-- Four characters. -/
  version : String
  /-- One character. -/
  revision : Char
  /-- Everything else. -/
  release : String
  /-- The first colon is the one behind the identifier. -/
  colon_not_mem : ':' ∉ identifier.toList
  /-- The version is complete. -/
  length_version : version.length = 4

namespace Parts

variable (p : Parts)

/-- What follows the first colon if nothing is left out. -/
def edition : String := p.version ++ String.singleton p.revision ++ p.release

/-- The text in which nothing is left out. -/
def text : String := p.identifier ++ ":" ++ p.edition

/-- The text that ends with the version. -/
def shortText : String := p.identifier ++ ":" ++ p.version

/-- The first revision of the version, without a release. -/
def firstRevision : Parts := { p with revision := 'A', release := "" }

/-- The namespace that has these parts and is read from a text. -/
def space (text : String) : Namespace where
  identifier := p.identifier
  version := p.version
  revision := String.singleton p.revision
  release := if p.release = "" then none else some p.release
  path := String.ofList (text.toList.map pathChar)
  isKnown := decide (String.ofList (text.toList.map pathChar) ∈ knownPaths)

/-- A text is one for these parts. An edition of four characters is the version alone, and stands
for its first revision without a release; any other edition gives all of them. -/
def Writes (text : String) : Prop :=
  ∃ edition : String, text = p.identifier ++ ":" ++ edition ∧
    if edition.length = 4 then edition = p.version ∧ p.revision = 'A' ∧ p.release = ""
    else edition = p.edition

variable {p}

theorem toList_text : p.text.toList =
    p.identifier.toList ++ ':' :: (p.version.toList ++ p.revision :: p.release.toList) := by
  simp [text, edition]

theorem toList_shortText :
    p.shortText.toList = p.identifier.toList ++ ':' :: (p.version.toList ++ []) := by
  simp [shortText]

theorem length_edition : p.edition.length = 5 + p.release.length := by
  rw [edition, String.length_append, String.length_append, p.length_version,
    String.length_singleton]

theorem writes_text : p.Writes p.text := by
  refine ⟨p.edition, rfl, ?_⟩
  rw [if_neg (by rw [length_edition]; omega)]

theorem writes_shortText : p.firstRevision.Writes p.shortText := by
  refine ⟨p.version, rfl, ?_⟩
  rw [if_pos p.length_version]
  exact ⟨rfl, rfl, rfl⟩

/-- There are no other texts. -/
theorem eq_of_writes {text : String} (h : p.Writes text) :
    text = p.text ∨ (text = p.shortText ∧ p = p.firstRevision) := by
  obtain ⟨edition, rfl, hedition⟩ := h
  split at hedition
  · obtain ⟨rfl, hrevision, hrelease⟩ := hedition
    refine .inr ⟨rfl, ?_⟩
    rw [firstRevision, ← hrevision, ← hrelease]
  · rw [hedition]
    exact .inl rfl

end Parts

/-! ## Reading what is written -/

theorem releaseOf_toList (release : String) :
    releaseOf release.toList = if release = "" then none else some release := by
  unfold releaseOf
  rw [String.ofList_toList]
  simp

/-- What follows the version is the revision, `A` if there is none, and the release. -/
theorem parse?_of_version {text identifier version : String} {rest : List Char}
    (hidentifier : ':' ∉ identifier.toList) (hversion : version.length = 4)
    (htext : text.toList = identifier.toList ++ ':' :: (version.toList ++ rest)) :
    parse? text = some {
      identifier, version
      revision := String.singleton (rest.headD 'A')
      release := releaseOf rest.tail
      path := pathOf text
      isKnown := knownPaths.contains (pathOf text) } := by
  have hlength : version.toList.length = 4 := by rw [String.length_toList, hversion]
  have htake : (version.toList ++ rest).take 4 = version.toList := List.take_left' hlength
  have hdrop : (version.toList ++ rest).drop 4 = rest := List.drop_left' hlength
  have hrelease : (version.toList ++ rest).drop 5 = rest.tail := by
    rw [← List.tail_drop, hdrop]
  unfold parse?
  rw [Text.splitFirst?_append hidentifier htext]
  simp only [String.toList_ofList, String.ofList_toList, htake, hdrop, hrelease, hlength,
    Nat.lt_irrefl, if_false]
  cases rest with
  | nil => rfl
  | cons c rest => rfl

/-- **All parts are found again.** -/
theorem parse?_text (p : Parts) : parse? p.text = some (p.space p.text) := by
  rw [parse?_of_version p.colon_not_mem p.length_version Parts.toList_text, pathOf_eq]
  simp only [List.tail_cons, releaseOf_toList, List.contains_eq_mem]
  rfl

/-- **What ends with the version** is read as the first revision. -/
theorem parse?_shortText (p : Parts) :
    parse? p.shortText = some (p.firstRevision.space p.shortText) := by
  rw [parse?_of_version p.colon_not_mem p.length_version Parts.toList_shortText, pathOf_eq]
  simp only [List.contains_eq_mem]
  rfl

/-! ## Writing what is read -/

/-- Every text with enough characters behind its first colon is one for some parts. -/
theorem Complete.exists_writes {text : String} (h : Complete text) :
    ∃ p : Parts, p.Writes text := by
  obtain ⟨front, back, htext, hfront, hback⟩ := h
  have hversion : (String.ofList (back.take 4)).length = 4 := by
    rw [String.length_ofList, List.length_take, Nat.min_eq_left hback]
  have hidentifier : ':' ∉ (String.ofList front).toList := by rwa [String.toList_ofList]
  let parts (revision : Char) (release : List Char) : Parts :=
    ⟨String.ofList front, String.ofList (back.take 4), revision, String.ofList release,
      hidentifier, hversion⟩
  have hsplit : text.toList = front ++ ':' :: (back.take 4 ++ back.drop 4) := by
    rw [List.take_append_drop, htext]
  cases hrest : back.drop 4 with
  | nil =>
    rw [hrest] at hsplit
    have hshort : text = (parts 'A' []).shortText := by
      rw [← String.toList_inj, hsplit, Parts.toList_shortText]
      simp only [parts, String.toList_ofList]
    exact ⟨(parts 'A' []).firstRevision, hshort ▸ Parts.writes_shortText⟩
  | cons c release =>
    rw [hrest] at hsplit
    have hlong : text = (parts c release).text := by
      rw [← String.toList_inj, hsplit, Parts.toList_text]
      simp only [parts, String.toList_ofList]
    exact ⟨parts c release, hlong ▸ Parts.writes_text⟩

theorem parse?_of_writes {p : Parts} {text : String} (h : p.Writes text) :
    parse? text = some (p.space text) := by
  obtain rfl | ⟨rfl, hp⟩ := Parts.eq_of_writes h
  · exact parse?_text p
  · rw [parse?_shortText, ← hp]

/-- **A namespace is read from the texts for its parts**, and from no other text. -/
theorem parse?_eq_some_iff {text : String} {space : Namespace} :
    parse? text = some space ↔ ∃ p : Parts, p.Writes text ∧ space = p.space text := by
  constructor
  · intro h
    have hcomplete : Complete text := (isSome_parse?_iff text).mp (by rw [h]; rfl)
    obtain ⟨p, hp⟩ := hcomplete.exists_writes
    exact ⟨p, hp, Option.some.inj (h.symm.trans (parse?_of_writes hp))⟩
  · rintro ⟨p, hp, rfl⟩
    exact parse?_of_writes hp

/-! ## Paths -/

theorem pathChar_ne_space (c : Char) : pathChar c ≠ ' ' := by
  unfold pathChar
  split
  · decide
  · next h => exact fun hc => h (.inl hc)

theorem pathChar_ne_colon (c : Char) : pathChar c ≠ ':' := by
  unfold pathChar
  split
  · decide
  · next h => exact fun hc => h (.inr hc)

theorem Parts.length_path (p : Parts) (text : String) :
    (p.space text).path.length = text.length := by
  rw [space, String.length_ofList, List.length_map, String.length_toList]

/-- No character of a path is one that no character is mapped to. -/
theorem Parts.not_mem_path (p : Parts) (text : String) {sep : Char}
    (h : ∀ c, pathChar c ≠ sep) : sep ∉ (p.space text).path.toList := by
  rw [space, String.toList_ofList, List.mem_map]
  rintro ⟨c, -, hc⟩
  exact h c hc

/-- **Reading and writing a namespace are inverse.** The parts are found again in the text in which
they are written; if that ends with the version, they are those of the first revision without a
release. A text can be read if and only if at least four characters follow its first colon, and
what is read from it has the parts for which it is a text. The path has a character for each
character of the text, and none of them is a space or a colon. -/
theorem written_as_read :
    (∀ p : Parts, parse? p.text = some (p.space p.text)) ∧
    (∀ p : Parts, parse? p.shortText = some (p.firstRevision.space p.shortText)) ∧
    (∀ text, (parse? text).isSome ↔ Complete text) ∧
    (∀ text space, parse? text = some space ↔
      ∃ p : Parts, p.Writes text ∧ space = p.space text) ∧
    ∀ text space, parse? text = some space →
      space.path.length = text.length ∧ ' ' ∉ space.path.toList ∧ ':' ∉ space.path.toList := by
  refine ⟨parse?_text, parse?_shortText, isSome_parse?_iff, fun _ _ => parse?_eq_some_iff,
    fun text space h => ?_⟩
  obtain ⟨p, -, rfl⟩ := parse?_eq_some_iff.mp h
  exact ⟨p.length_path text, p.not_mem_path text pathChar_ne_space,
    p.not_mem_path text pathChar_ne_colon⟩

/-- Parts with characters of several bytes and with colons behind the first one. -/
def colonParts : Parts := ⟨"Δ x", "2:日7", ':', "é:", by decide, by decide⟩

/-- Nothing in the version, the revision or the release is taken for the first colon; and of the
texts with four and with three characters behind it, one can be read. -/
theorem written_as_read_colons :
    parse? "Δ x:2:日7:é:" =
      some ⟨"Δ x", "2:日7", ":", some "é:", "Δ_x_2_日7_é_", false⟩ ∧
    "Δ_x_2_日7_é_".length = 11 ∧ ' ' ∉ "Δ_x_2_日7_é_".toList ∧ ':' ∉ "Δ_x_2_日7_é_".toList ∧
    parse? "Δ x:2:日7" = some ⟨"Δ x", "2:日7", "A", none, "Δ_x_2_日7", false⟩ ∧
    Complete "Δ x:2:日7" ∧ ¬ Complete "Δ x:2:日" := by
  obtain ⟨htext, hshort, hcomplete, -, hpath⟩ := written_as_read
  have hlong : parse? "Δ x:2:日7:é:" =
      some ⟨"Δ x", "2:日7", ":", some "é:", "Δ_x_2_日7_é_", false⟩ :=
    (htext colonParts).trans (congrArg some (by decide +kernel))
  obtain ⟨hlength, hspace, hcolon⟩ := hpath _ _ hlong
  exact ⟨hlong, hlength, hspace, hcolon,
    (hshort colonParts).trans (congrArg some (by decide +kernel)),
    (hcomplete _).mp (by decide +kernel),
    fun h => absurd ((hcomplete _).mpr h) (by decide +kernel)⟩

end Substation.Model.Namespace
