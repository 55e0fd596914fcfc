import Substation.Proofs.Edits

/-!
# Rollbacks

A mark is the size of a table at some time. Later edits may add nodes, below the old ones as well as
below new ones, and change or take back new ones. Through all of them the table extends the old one,
on which the changes of old nodes were made as well (`Extends.run`). So these changes are what a
rollback to the mark leaves (`rollback_run_eq`), and where there are none, it restores the table
(`rollback_run`).

Results:
* `Extends.run`: later edits extend the table;
* `rollback_run_eq` (`rollback`): what a rollback leaves;
* `rollback_run`: where it restores the table.
-/

namespace Substation.Model

/-- Whether an edit leaves the nodes before a mark as they are, except that it may add nodes below
them. -/
def Edit.spares (mark : Nat) : Edit → Bool
  | .addDevice .. => true
  | .addChild .. => true
  | .rename id _ => mark ≤ id
  | .setSpace id _ => mark ≤ id
  | .rollback mark' => mark ≤ mark'

namespace IedModel

variable {m m' : IedModel}

/-! ## Changes of one node -/

/-- Changes a node. -/
def onNode (m : IedModel) (id : Nat) (f : Node → Node) : IedModel :=
  { m with nodes := m.nodes.modify id f }

@[simp] theorem size_onNode (target : Nat) (f : Node → Node) :
    (m.onNode target f).size = m.size :=
  Array.size_modify

theorem node?_onNode (target : Nat) (f : Node → Node) (id : Nat) :
    (m.onNode target f).node? id = if target = id then (m.node? id).map f else m.node? id :=
  Array.getElem?_modify

theorem onNode_of_size_le {target : Nat} (h : m.size ≤ target) (f : Node → Node) :
    m.onNode target f = m := by
  refine ext_node? rfl rfl fun id => ?_
  rw [node?_onNode]
  split
  · rename_i hid
    rw [← hid, node?_eq_none_iff.mpr h]
    rfl
  · rfl

/-! ## One edit -/

namespace Extends

/-- A logical device is new, as is its place in the list. -/
theorem addDevice (h : m.Extends m') (name inst : String) :
    m.Extends (m'.addDevice name inst) where
  name := h.name
  nodes hn := by
    obtain ⟨new, hn', hnew⟩ := h.nodes hn
    exact ⟨new, by rw [node?_addDevice, if_neg (Nat.ne_of_lt (lt_size_of_node? hn')), hn'], hnew⟩
  devices := by
    obtain ⟨new, hdevices, hnew⟩ := h.devices
    refine ⟨new ++ [m'.size], ?_, List.forall_mem_append.mpr ⟨hnew, ?_⟩⟩
    · rw [devices_addDevice, hdevices, List.append_assoc]
    · exact List.forall_mem_singleton.mpr h.size_le

/-- A change that does not look at the links down can be made before growth as well as after it. -/
theorem onNode (h : m.Extends m') (target : Nat) {f : Node → Node}
    (hf : ∀ n children, f { n with children } = { f n with children }) :
    (m.onNode target f).Extends (m'.onNode target f) where
  name := h.name
  nodes {id n} hn := by
    rw [node?_onNode] at hn
    rw [node?_onNode, size_onNode]
    by_cases hid : target = id
    · rw [if_pos hid] at hn ⊢
      obtain ⟨old, hold, rfl⟩ := Option.map_eq_some_iff.mp hn
      obtain ⟨new, hn', hnew⟩ := h.nodes hold
      have hchildren : (f old).children = old.children :=
        (congrArg Node.children (hf old old.children) :)
      refine ⟨new, ?_, hnew⟩
      rw [hn', Option.map_some, hf, hchildren]
    · rw [if_neg hid] at hn ⊢
      exact h.nodes hn
  devices := by
    rw [size_onNode]
    exact h.devices

/-- What a later rollback leaves of the new links is new as well. -/
theorem rollback (hm : m.Forest) (h : m.Extends m') {mark : Nat} (hmark : m.size ≤ mark) :
    m.Extends (m'.rollback mark) := by
  have hkeep : ∀ {old new : List Nat}, (∀ c ∈ old, c < m.size) →
      (old ++ new).filter (· < mark) = old ++ new.filter (· < mark) := by
    intro old new hold
    have hlt : ∀ c ∈ old, decide (c < mark) := fun c hc =>
      decide_eq_true (Nat.lt_of_lt_of_le (hold c hc) hmark)
    rw [List.filter_append, List.filter_eq_self.mpr hlt]
  refine ⟨h.name, fun {id n} hn => ?_, ?_⟩
  · obtain ⟨new, hn', hnew⟩ := h.nodes hn
    have hid : id < mark := Nat.lt_of_lt_of_le (lt_size_of_node? hn) hmark
    refine ⟨new.filter (· < mark), ?_, fun c hc => hnew c (List.mem_of_mem_filter hc)⟩
    rw [node?_rollback, if_pos hid, hn', Option.map_some, Node.disown,
      hkeep fun c hc => hm.lt_size_of_mem_children (by rwa [children_eq hn])]
  · obtain ⟨new, hdevices, hnew⟩ := h.devices
    refine ⟨new.filter (· < mark), ?_, fun d hd => hnew d (List.mem_of_mem_filter hd)⟩
    show m'.devices.filter (· < mark) = _
    rw [hdevices, hkeep fun d hd => hm.lt_size_of_mem_devices hd]

end Extends

/-- What a rollback to a mark leaves of an edit. -/
def kept (mark : Nat) (m : IedModel) (e : Edit) : IedModel := if e.spares mark then m else m.edit e

/-- A change of a node behind the end is none, so it is left whole. -/
theorem kept_of_onNode {e : Edit} {target : Nat} (f : Node → Node)
    (he : m.edit e = m.onNode target f) (hspares : e.spares m.size = decide (m.size ≤ target)) :
    m.kept m.size e = m.onNode target f := by
  unfold kept
  rw [hspares, he]
  split
  · rename_i h
    exact (onNode_of_size_le (of_decide_eq_true h) f).symm
  · rfl

/-- **Step.** After an edit a table extends what a rollback would leave of it. -/
theorem Extends.edit (hm : m.Forest) (h : m.Extends m') {e : Edit}
    (he : ∀ mark, e = .rollback mark → m.size ≤ mark) :
    (m.kept m.size e).Extends (m'.edit e) := by
  cases e with
  | addDevice name inst => exact h.addDevice name inst
  | addChild parent name kind => exact h.addChild parent name kind
  | rename id name =>
    rw [kept_of_onNode (·.rename name) rfl rfl]
    exact h.onNode id fun _ _ => rfl
  | setSpace id space =>
    rw [kept_of_onNode (fun n => { n with kind := n.kind.withSpace space }) rfl rfl]
    exact h.onNode id fun _ _ => rfl
  | rollback mark =>
    have hspares : Edit.spares m.size (.rollback mark) := decide_eq_true (he mark rfl)
    rw [kept, if_pos hspares]
    exact h.rollback hm (he mark rfl)

theorem size_kept {e : Edit} (he : ∀ mark, e = .rollback mark → m.size ≤ mark) :
    (m.kept m.size e).size = m.size := by
  unfold kept
  split
  · rfl
  · rename_i hspares
    cases e with
    | addDevice => exact absurd rfl hspares
    | addChild => exact absurd rfl hspares
    | rename id name => exact size_rename id name
    | setSpace id space => exact size_setSpace id space
    | rollback mark => exact absurd (decide_eq_true (he mark rfl)) hspares

theorem Built.kept (h : m.Built) (mark : Nat) (e : Edit) : (m.kept mark e).Built := by
  unfold IedModel.kept
  split
  · exact h
  · exact h.edit e

/-! ## Runs -/

variable {edits : List Edit}

theorem run_filter_cons (mark : Nat) (e : Edit) (edits : List Edit) :
    m.run ((e :: edits).filter (!·.spares mark)) =
      (m.kept mark e).run (edits.filter (!·.spares mark)) := by
  rw [List.filter_cons, kept]
  cases e.spares mark <;> rfl

/-- **Run.** After edits that do not go back behind the mark, a table extends the one that the edits
of old nodes alone lead to, and that one is of the old size. -/
theorem Extends.run {mark : Nat} (hmark : m.size = mark) (hm : m.Built) (h : m.Extends m')
    (hedits : ∀ mark', .rollback mark' ∈ edits → mark ≤ mark') :
    let left := m.run (edits.filter (!·.spares mark))
    left.size = mark ∧ left.Forest ∧ left.Extends (m'.run edits) := by
  induction edits generalizing m m' with
  | nil => exact ⟨hmark, hm.forest, h⟩
  | cons e edits ih =>
    subst hmark
    have he : ∀ mark, e = .rollback mark → m.size ≤ mark := by
      rintro mark rfl
      exact hedits mark List.mem_cons_self
    rw [run_filter_cons]
    exact ih (size_kept he) (hm.kept m.size e) (h.edit hm.forest he) fun mark hmem =>
      hedits mark (List.mem_cons_of_mem e hmem)

/-- **A rollback leaves the edits of old nodes.** -/
theorem rollback_run_eq (hm : m.Built)
    (hedits : ∀ mark, .rollback mark ∈ edits → m.size ≤ mark) :
    (m.run edits).rollback m.size = m.run (edits.filter (!·.spares m.size)) := by
  obtain ⟨hsize, hforest, hextends⟩ := Extends.run rfl hm (.refl m) hedits
  have hleft := rollback_of_extends hforest hextends
  rwa [hsize] at hleft

/-- The new name of an old node stays. -/
example : ((run { name := "E" } [.addDevice "LD" "LD", .addDevice "AUX" "AUX",
    .rename 0 "MX"]).rollback 1).ref 0 = "MX" := by
  decide +kernel

/-- **A rollback undoes a run.** Whatever is added after the mark, below old and new nodes, and
whatever is done to new nodes, a rollback to the mark restores the table: the nodes, their lists of
nodes below, and the list of logical devices. -/
theorem rollback_run (hm : m.Built) (h : ∀ e ∈ edits, e.spares m.size) :
    (m.run edits).rollback m.size = m := by
  have hedits : ∀ mark, .rollback mark ∈ edits → m.size ≤ mark := fun mark hmark =>
    of_decide_eq_true (h (.rollback mark) hmark)
  have hnone : edits.filter (!·.spares m.size) = [] :=
    List.filter_eq_nil_iff.mpr fun e he hnot => by simp [h e he] at hnot
  rw [rollback_run_eq hm hedits, hnone]
  rfl

/-- Nodes are added in turns below an old node, a new one and another old one, a new node gets
another name, and a second rollback takes back the last two. -/
theorem rollback_run_nested :
    let kind := NodeKind.object 0 ⟨"T", "", [], []⟩ false
    let m := run { name := "E" } [.addDevice "LD" "LD", .addChild 0 "A" kind, .rename 0 "MX",
      .addChild 1 "B" kind, .rollback 2, .addChild 0 "C" kind]
    let edits := [.addChild 1 "D" kind, .addDevice "AUX" "AUX", .addChild 0 "F" kind,
      .addChild 3 "G" kind, .rename 3 "H", .rollback 5, .addChild 4 "I" kind, .addChild 1 "J" kind]
    (∀ e ∈ edits, e.spares m.size) ∧ (m.run edits).devices = [0, 4] ∧
      (m.run edits).children 0 = [1, 2] ∧ (m.run edits).children 1 = [3, 6] ∧
      (m.run edits).rollback m.size = m := by
  intro kind m edits
  have hedits : ∀ e ∈ edits, e.spares m.size := by decide +kernel
  exact ⟨hedits, by decide +kernel, by decide +kernel, by decide +kernel,
    rollback_run ((Built.empty "E").run _) hedits⟩

end IedModel

end Substation.Model
