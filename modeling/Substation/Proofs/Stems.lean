import Substation.Proofs.Rollbacks

/-!
# Stems

The stem of a node is what stood in front of its name in its reference when it was added. A record
of the stems can be kept beside a table through a run of edits (`Stemmed.run`), and after every run
the reference of a node is its stem and the name that it has now (`Stemmed.Fits.run`). A renaming
takes off as many bytes as the old name has, so it never cuts a character, and neither names given
before nor those of nodes above matter (`rename_exact`).

Results:
* `Stemmed.Fits.run`: references are stems and names;
* `rename_exact` (`rename`): what a renaming changes, to the byte.
-/

namespace Substation

/-! ## Counting in bytes -/

/-- The first bytes of a text, if they end between two characters. -/
def Text.firstBytes? (s : String) (count : Nat) : Option String :=
  String.fromUTF8? (s.toByteArray.extract 0 count)

theorem Text.firstBytes?_append (s t : String) : firstBytes? (s ++ t) s.utf8ByteSize = some s := by
  have hbytes : (s ++ t).toByteArray.extract 0 s.utf8ByteSize = s.toByteArray := by
    rw [String.toByteArray_append]
    exact ByteArray.extract_append_eq_left rfl
  rw [firstBytes?, hbytes, String.fromUTF8?, dif_pos s.isValidUTF8]
  rfl

/-- A character of two bytes cannot be cut. -/
example : Text.firstBytes? "aé" 2 = none := by decide +kernel

namespace Model

/-- `Node.rename`, with the place where the name starts counted in bytes. There is no result if that
place is within a character. -/
def Node.renameInBytes? (n : Node) (name : String) : Option Node :=
  (Text.firstBytes? n.ref (n.ref.utf8ByteSize - n.name.utf8ByteSize)).map fun stem =>
    { n with name, ref := stem ++ name }

section

variable {n : Node} {stem : String} (h : n.ref = stem ++ n.name)
include h

/-- The new name takes the place of the old one at the end of the reference. -/
theorem Node.ref_rename (name : String) : (n.rename name).ref = stem ++ name := by
  rw [Node.rename, h, String.length_append, Nat.add_sub_cancel, String.toList_append,
    List.take_left' String.length_toList, String.ofList_toList]

theorem Node.rename_eq (name : String) : n.rename name = { n with name, ref := stem ++ name } :=
  congrArg (fun ref => { n with name, ref }) (ref_rename h name)

theorem Node.renameInBytes?_eq (name : String) : n.renameInBytes? name = some (n.rename name) := by
  rw [renameInBytes?, h, String.utf8ByteSize_append, Nat.add_sub_cancel, Text.firstBytes?_append,
    rename_eq h]
  rfl

end

/-! ## The record -/

/-- The stem of the node that an edit adds, if it adds one. -/
def IedModel.newStem? (m : IedModel) : Edit → Option String
  | .addDevice .. => some ""
  | .addChild parent .. => (m.node? parent).map fun p => p.ref ++ p.kind.separator
  | _ => none

/-- A table with the stems of its nodes. -/
structure Stemmed where
  /-- The table. -/
  model : IedModel
  /-- The stems in order of creation. -/
  stems : List String

namespace Stemmed

/-- An edit. A stem is recorded for a new node and taken back with its node; nothing else happens to
the record. -/
def edit (t : Stemmed) (e : Edit) : Stemmed where
  model := t.model.edit e
  stems := match e with
    | .rollback mark => t.stems.take mark
    | _ => t.stems ++ (t.model.newStem? e).toList

/-- A run of edits. -/
def run (t : Stemmed) (edits : List Edit) : Stemmed := edits.foldl edit t

theorem model_run (t : Stemmed) (edits : List Edit) :
    (t.run edits).model = t.model.run edits := by
  induction edits generalizing t with
  | nil => rfl
  | cons e edits ih => exact ih (t.edit e)

/-- The record has the stem of every node. -/
structure Fits (t : Stemmed) : Prop where
  length : t.stems.length = t.model.size
  ref : ∀ {id n}, t.model.node? id = some n →
    ∃ stem, t.stems[id]? = some stem ∧ n.ref = stem ++ n.name

namespace Fits

variable {t : Stemmed}

theorem empty (name : String) : Fits ⟨{ name }, []⟩ where
  length := rfl
  ref h := nomatch h

variable (h : t.Fits)
include h

/-- A new node at the end, with its stem. -/
theorem push {m : IedModel} {new : Node} {stem : String} (hm : t.model.Extends m)
    (hsize : m.size = t.model.size + 1) (hnew : m.node? t.model.size = some new)
    (href : new.ref = stem ++ new.name) : Fits ⟨m, t.stems ++ [stem]⟩ where
  length := by rw [List.length_append, h.length, hsize]; rfl
  ref {id n} hn := by
    rcases Nat.lt_succ_iff_lt_or_eq.mp (hsize ▸ IedModel.lt_size_of_node? hn) with hid | rfl
    · obtain ⟨old, hold⟩ := IedModel.exists_node? hid
      obtain ⟨children, hgrown, -⟩ := hm.nodes hold
      obtain ⟨stem, hstem, href⟩ := h.ref hold
      rw [hgrown] at hn
      cases hn
      exact ⟨stem, by rw [List.getElem?_append_left (h.length ▸ hid), hstem], href⟩
    · rw [hnew] at hn
      cases hn
      exact ⟨stem, by rw [← h.length, List.getElem?_concat_length], href⟩

/-- A change of one node that keeps how its reference ends. -/
theorem onNode (id : Nat) {f : Node → Node}
    (hf : ∀ {n stem}, n.ref = stem ++ n.name → (f n).ref = stem ++ (f n).name) :
    Fits ⟨t.model.onNode id f, t.stems⟩ where
  length := h.length.trans (IedModel.size_onNode id f).symm
  ref {id' n} hn := by
    rw [IedModel.node?_onNode] at hn
    split at hn
    · obtain ⟨old, hold, rfl⟩ := Option.map_eq_some_iff.mp hn
      obtain ⟨stem, hstem, href⟩ := h.ref hold
      exact ⟨stem, hstem, hf href⟩
    · exact h.ref hn

theorem rollback (mark : Nat) : Fits ⟨t.model.rollback mark, t.stems.take mark⟩ where
  length := by rw [List.length_take, h.length, IedModel.size_rollback]
  ref {id n} hn := by
    rw [IedModel.node?_rollback] at hn
    split at hn
    · rename_i hid
      obtain ⟨old, hold, rfl⟩ := Option.map_eq_some_iff.mp hn
      obtain ⟨stem, hstem, href⟩ := h.ref hold
      exact ⟨stem, by rw [List.getElem?_take_of_lt hid, hstem], href⟩
    · exact nomatch hn

/-- **Step.** An edit keeps the record. -/
theorem edit (e : Edit) : (t.edit e).Fits := by
  have hgrown := IedModel.Extends.refl t.model
  -- an edit that adds no node leaves the record as it is
  have hsame : ∀ {m}, Fits ⟨m, t.stems⟩ → Fits ⟨m, t.stems ++ []⟩ := fun hfits =>
    (List.append_nil t.stems).symm ▸ hfits
  cases e with
  | addDevice name inst =>
    have hnew : (t.model.addDevice name inst).node? t.model.size =
        some ⟨name, name, none, [], .device inst none⟩ := by
      rw [IedModel.node?_addDevice, if_pos rfl]
    exact h.push (hgrown.addDevice name inst) (IedModel.size_addDevice name inst) hnew
      String.empty_append.symm
  | addChild parent name kind =>
    have hadd : t.edit (.addChild parent name kind) = ⟨t.model.addChild parent name kind,
      t.stems ++ ((t.model.node? parent).map fun p => p.ref ++ p.kind.separator).toList⟩ := rfl
    rw [hadd]
    cases hp : t.model.node? parent with
    | none =>
      rw [IedModel.addChild_of_node?_eq_none name kind hp]
      exact hsame h
    | some p =>
      exact h.push (hgrown.addChild parent name kind) (IedModel.size_addChild hp name kind)
        (IedModel.node?_addChild_size hp name kind) rfl
  | rename id name => exact hsame (h.onNode id fun href => Node.ref_rename href name)
  | setSpace id space => exact hsame (h.onNode id fun href => href)
  | rollback mark => exact h.rollback mark

/-- **Run.** So does every run. -/
theorem run (edits : List Edit) : (t.run edits).Fits := by
  induction edits generalizing t with
  | nil => exact h
  | cons e edits ih => exact ih (h.edit e)

end Fits

end Stemmed

/-! ## Renaming -/

namespace IedModel

variable {m : IedModel} {id : Nat} {n : Node} {stem : String}

section

variable (hn : m.node? id = some n) (h : n.ref = stem ++ n.name)
include hn h

/-- The name of the node and the end of its reference are all that changes. -/
theorem node?_rename_eq (name : String) (id' : Nat) : (m.rename id name).node? id' =
    if id' = id then some { n with name, ref := stem ++ name } else m.node? id' := by
  rw [node?_rename]
  split
  · rename_i hid
    rw [hid, hn, Option.map_some, Node.rename_eq h]
  · rfl

/-- The last name counts. -/
theorem rename_rename (name name' : String) :
    (m.rename id name).rename id name' = m.rename id name' := by
  refine ext_node? rfl rfl fun id' => ?_
  have hrenamed : (m.rename id name).node? id = some { n with name, ref := stem ++ name } := by
    rw [node?_rename_eq hn h, if_pos rfl]
  rw [node?_rename_eq hrenamed rfl, node?_rename_eq hn h, node?_rename_eq hn h]
  split <;> rfl

/-- The old name leads back. -/
theorem rename_back (name : String) : (m.rename id name).rename id n.name = m := by
  rw [rename_rename hn h]
  refine ext_node? rfl rfl fun id' => ?_
  rw [node?_rename_eq hn h, ← h]
  split
  · rename_i hid
    rw [hid, hn]
  · rfl

end

/-- **Renaming is exact.** After every run of edits, the reference of a node is its stem and the
name that it has now. So counting in bytes and counting in characters come to the same and no
character is cut; a renaming changes the name of the node and the end of its reference, and nothing
else in the table; the last of two renamings counts; and the old name leads back to the same
table. -/
theorem rename_exact (name : String) (edits : List Edit) :
    let t := Stemmed.run ⟨{ name }, []⟩ edits
    t.model = run { name } edits ∧ t.stems.length = t.model.size ∧
    ∀ id n, t.model.node? id = some n →
      ∃ stem, t.stems[id]? = some stem ∧ n.ref = stem ++ n.name ∧
        (∀ new, n.renameInBytes? new = some (n.rename new)) ∧
        (∀ new, (t.model.rename id new).name = t.model.name ∧
          (t.model.rename id new).devices = t.model.devices ∧
          ∀ id', (t.model.rename id new).node? id' =
            if id' = id then some { n with name := new, ref := stem ++ new }
            else t.model.node? id') ∧
        (∀ a b, (t.model.rename id a).rename id b = t.model.rename id b) ∧
        ∀ new, (t.model.rename id new).rename id n.name = t.model := by
  intro t
  have hfits : t.Fits := (Stemmed.Fits.empty name).run edits
  refine ⟨Stemmed.model_run _ edits, hfits.length, fun id n hn => ?_⟩
  obtain ⟨stem, hstem, href⟩ := hfits.ref hn
  exact ⟨stem, hstem, href, n.renameInBytes?_eq href,
    fun new => ⟨rfl, rfl, node?_rename_eq hn href new⟩, rename_rename hn href, rename_back hn href⟩

/-- Names of characters of several bytes, an empty one, and renamings of a node and of the one above
it: the stems are those of the old names. -/
theorem rename_exact_utf8 :
    let kind := NodeKind.object 0 ⟨"T", "", [], []⟩ false
    let t := Stemmed.run ⟨{ name := "E" }, []⟩ [.addDevice "Δ" "LD", .addChild 0 "é" kind,
      .addChild 1 "" kind, .addChild 2 "x" kind, .rename 1 "日本", .rename 0 "", .rollback 3,
      .rename 2 "ß"]
    t.stems = ["", "Δ/", "Δ/é."] ∧ t.model.ref 1 = "Δ/日本" ∧ t.model.ref 2 = "Δ/é.ß" ∧
      ∃ n, t.model.node? 1 = some n ∧ n.renameInBytes? "a" = some (n.rename "a") ∧
        (t.model.rename 1 "a").ref 2 = "Δ/é.ß" ∧
        (t.model.rename 1 "a").rename 1 "日本" = t.model := by
  intro kind t
  have hsize : 1 < t.model.size := by decide +kernel
  obtain ⟨n, hn⟩ := exists_node? hsize
  have hname : (t.model.node? 1).map Node.name = some "日本" := by decide +kernel
  rw [hn] at hname
  obtain ⟨-, -, hnodes⟩ := rename_exact "E" _
  obtain ⟨-, -, -, hbytes, -, -, hback⟩ := hnodes 1 n hn
  exact ⟨by decide +kernel, by decide +kernel, by decide +kernel, n, hn, hbytes "a",
    by decide +kernel, Option.some.inj hname ▸ hback "a"⟩

end IedModel

end Model

end Substation
