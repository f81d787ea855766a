import GeoMaster.Domain.RichRepair
import GeoMaster.Lib.Thinning

/-!
# What a repair may make of a node

A repair may reword a node and delete children of it, and nothing else: `RichNode.Survives` is that relation, and
`preservesSurvivorStructure_iff` says that the greedy matching of children decides it. `Edit` is one change: words of a
text are replaced, or one subtree below the root is deleted, at any place of the tree. What survives is what some
changes one after the other make.
-/

namespace GeoMaster

open List

open Relation (ReflTransGen)

/-- What a repair may make of a node: the same kind with the same attributes, other words, and some of the children,
in their order, each changed in this way. -/
inductive RichNode.Survives : RichNode → RichNode → Prop where
  | node {old new : RichNode} :
      old.attrsMatch new = true → Thins (fun _ => True) RichNode.Survives old.children new.children →
        RichNode.Survives old new

namespace RichNode

theorem survives_iff {old new : RichNode} :
    old.Survives new ↔ old.attrsMatch new = true ∧ Thins (fun _ => True) Survives old.children new.children := by
  constructor
  · rintro ⟨hattrs, hchildren⟩
    exact ⟨hattrs, hchildren⟩
  · rintro ⟨hattrs, hchildren⟩
    exact .node hattrs hchildren

theorem sizeOf_child {node child : RichNode} (h : child ∈ node.children) : sizeOf child < sizeOf node := by
  cases node <;> simp only [children, not_mem_nil] at h
  all_goals
    have hlt := sizeOf_lt_of_mem h
    simp only [paragraph.sizeOf_spec, heading.sizeOf_spec, bulletList.sizeOf_spec, orderedList.sizeOf_spec,
      listItem.sizeOf_spec, codeBlock.sizeOf_spec, table.sizeOf_spec, tableRow.sizeOf_spec, tableHeader.sizeOf_spec,
      tableCell.sizeOf_spec]
    omega

/-- What holds of a node when it holds of its children holds of every node. -/
theorem byChildren {P : RichNode → Prop} (step : ∀ node : RichNode, (∀ child ∈ node.children, P child) → P node)
    (node : RichNode) : P node :=
  step node fun child _ => byChildren step child
termination_by sizeOf node
decreasing_by exact sizeOf_child ‹_›

theorem attrsMatch_refl (node : RichNode) : node.attrsMatch node = true := by
  cases node <;> simp [attrsMatch]

theorem attrsMatch_trans {a b c : RichNode} (h : a.attrsMatch b = true) (h' : b.attrsMatch c = true) :
    a.attrsMatch c = true := by
  cases a <;> cases b <;> simp only [attrsMatch, Bool.false_eq_true] at h <;> cases c <;> simp_all [attrsMatch]

/-- Nothing is deleted and nothing is reworded. -/
theorem Survives.refl (node : RichNode) : node.Survives node := by
  induction node using byChildren with
  | step node ih => exact .node (attrsMatch_refl node) (.refl ih)

theorem Survives.trans {a b c : RichNode} (h : a.Survives b) (h' : b.Survives c) : a.Survives c := by
  induction a using byChildren generalizing b c with
  | step a ih =>
    rw [survives_iff] at h h' ⊢
    exact ⟨attrsMatch_trans h.1 h'.1, h.2.trans h'.2 fun child hchild _ _ => ih child hchild⟩

/-- A node without children becomes one without children. -/
theorem survives_leaf {old new : RichNode} (hleaf : old.children = []) :
    old.Survives new ↔ old.attrsMatch new = true ∧ new.children = [] := by
  rw [survives_iff, hleaf]
  refine and_congr_right fun _ => ⟨fun h => ?_, fun h => by rw [h]; exact .nil⟩
  generalize hnew : new.children = children at h
  cases h
  rfl

mutual

theorem preservesSurvivorStructure_iff :
    (old new : RichNode) → (old.preservesSurvivorStructure new = true ↔ old.Survives new)
  | .paragraph content, new | .heading _ content, new | .bulletList content, new | .orderedList _ content, new
  | .listItem content, new | .codeBlock _ content, new | .table content, new | .tableRow content, new
  | .tableHeader _ content, new | .tableCell _ content, new => by
    rw [survives_iff, preservesSurvivorStructure, Bool.and_eq_true, preserveSurvivors_iff content]
    rfl
  | .text _ _, new | .hardBreak, new | .media _, new => by
    rw [survives_leaf rfl, preservesSurvivorStructure, Bool.and_eq_true, List.isEmpty_iff]

theorem preserveSurvivors_iff :
    (olds news : List RichNode) → (preserveSurvivors olds news = true ↔ Thins (fun _ => True) Survives olds news)
  | [], [] => by simp [preserveSurvivors]
  | _ :: _, [] => by simp [preserveSurvivors]
  | [], new :: news => by
    rw [preserveSurvivors, Thins.cons_right]
    simp
  | old :: olds, new :: news => by
    rw [preserveSurvivors]
    by_cases hkeep : old.Survives new
    · rw [if_pos ((preservesSurvivorStructure_iff old new).mpr hkeep), Thins.cons_iff_of_keep hkeep,
        preserveSurvivors_iff olds news]
    · rw [if_neg fun h => hkeep ((preservesSurvivorStructure_iff old new).mp h), Thins.cons_iff_of_not_keep hkeep,
        preserveSurvivors_iff olds (new :: news)]

end

/-- The node with other children. -/
def withChildren : RichNode → List RichNode → RichNode
  | .paragraph _, content => .paragraph content
  | .heading attrs _, content => .heading attrs content
  | .bulletList _, content => .bulletList content
  | .orderedList attrs _, content => .orderedList attrs content
  | .listItem _, content => .listItem content
  | .codeBlock attrs _, content => .codeBlock attrs content
  | .table _, content => .table content
  | .tableRow _, content => .tableRow content
  | .tableHeader attrs _, content => .tableHeader attrs content
  | .tableCell attrs _, content => .tableCell attrs content
  | .text words marks, _ => .text words marks
  | .hardBreak, _ => .hardBreak
  | .media attrs, _ => .media attrs

/-- One change: a text is reworded, or a child is deleted, here or below. -/
inductive Edit : RichNode → RichNode → Prop where
  | reword (before after : String) (marks : List RichMark) : Edit (.text before marks) (.text after marks)
  | delete {node child : RichNode} {pre post : List RichNode} :
      node.children = pre ++ child :: post → Edit node (node.withChildren (pre ++ post))
  | inside {node child changed : RichNode} {pre post : List RichNode} :
      node.children = pre ++ child :: post → Edit child changed → Edit node (node.withChildren (pre ++ changed :: post))

variable {a b c node : RichNode}

/-- A node that has a child can have others. -/
theorem children_withChildren {child : RichNode} (h : child ∈ node.children) (content : List RichNode) :
    (node.withChildren content).children = content := by
  cases node <;> first | rfl | cases h

theorem withChildren_withChildren (first second : List RichNode) :
    (node.withChildren first).withChildren second = node.withChildren second := by
  cases node <;> rfl

theorem withChildren_self : node.withChildren node.children = node := by
  cases node <;> rfl

theorem attrsMatch_withChildren (content : List RichNode) : node.attrsMatch (node.withChildren content) = true := by
  cases node <;> simp [attrsMatch, withChildren]

/-- Nodes that match are one node with other children, or one text with other words. -/
theorem eq_of_attrsMatch (h : a.attrsMatch b = true) :
    b = a.withChildren b.children ∨ ∃ before after marks, a = .text before marks ∧ b = .text after marks := by
  cases a <;> cases b <;> simp_all [attrsMatch, withChildren, children]

/-! ### Every change survives -/

theorem Edit.survives (h : Edit a b) : a.Survives b := by
  induction h with
  | reword => exact .node (by simp [attrsMatch]) .nil
  | @delete node child _ _ hchildren =>
    have hmem : child ∈ node.children := hchildren ▸ mem_append_right _ mem_cons_self
    refine .node (attrsMatch_withChildren _) ?_
    rw [children_withChildren hmem, hchildren]
    exact .append (.refl fun x _ => .refl x) (.drop trivial (.refl fun x _ => .refl x))
  | @inside node child _ _ _ hchildren _ ih =>
    have hmem : child ∈ node.children := hchildren ▸ mem_append_right _ mem_cons_self
    refine .node (attrsMatch_withChildren _) ?_
    rw [children_withChildren hmem, hchildren]
    exact .append (.refl fun x _ => .refl x) (.keep ih (.refl fun x _ => .refl x))

theorem survives_of_edits (h : ReflTransGen Edit a b) : a.Survives b := by
  induction h with
  | refl => exact .refl a
  | tail _ hedit ih => exact ih.trans hedit.survives

/-! ### What survives is made by changes -/

/-- Changes of a child are changes of the node. -/
theorem edits_inside {child changed : RichNode} {pre post : List RichNode}
    (hchildren : ∀ content, (node.withChildren content).children = content) (h : ReflTransGen Edit child changed) :
    ReflTransGen Edit (node.withChildren (pre ++ child :: post)) (node.withChildren (pre ++ changed :: post)) := by
  refine h.lift (fun child => node.withChildren (pre ++ child :: post)) fun x y hedit => ?_
  have hinside := Edit.inside (hchildren (pre ++ x :: post)) hedit
  rwa [withChildren_withChildren] at hinside

theorem edits_children {olds news pre : List RichNode}
    (hchildren : ∀ content, (node.withChildren content).children = content)
    (h : Thins (fun _ => True) Survives olds news)
    (hedits : ∀ old ∈ olds, ∀ new, old.Survives new → ReflTransGen Edit old new) :
    ReflTransGen Edit (node.withChildren (pre ++ olds)) (node.withChildren (pre ++ news)) := by
  induction h generalizing pre with
  | nil => exact .refl
  | @drop old olds _ _ _ ih =>
    have hdelete := Edit.delete (hchildren (pre ++ old :: olds))
    rw [withChildren_withChildren] at hdelete
    exact .head hdelete (ih (forall_mem_cons.mp hedits).2)
  | @keep _ olds new news hkeep _ ih =>
    obtain ⟨hfirst, hrest⟩ := forall_mem_cons.mp hedits
    have hothers : ReflTransGen Edit (node.withChildren ((pre ++ [new]) ++ olds))
        (node.withChildren ((pre ++ [new]) ++ news)) := ih hrest
    rw [append_assoc, append_assoc] at hothers
    exact (edits_inside hchildren (hfirst new hkeep)).trans hothers

theorem edits_of_survives (h : a.Survives b) : ReflTransGen Edit a b := by
  induction a using byChildren generalizing b with
  | step a ih =>
    obtain ⟨hattrs, hthins⟩ := survives_iff.mp h
    rcases eq_of_attrsMatch hattrs with hsame | ⟨before, after, marks, rfl, rfl⟩
    · by_cases hleaf : a.children = []
      · rw [hleaf] at hthins
        generalize hnews : b.children = news at hthins
        cases hthins
        rw [hsame, hnews, ← hleaf, withChildren_self]
      · obtain ⟨_, hchild⟩ := exists_mem_of_ne_nil _ hleaf
        have hedits : ReflTransGen Edit (a.withChildren ([] ++ _)) (a.withChildren ([] ++ _)) :=
          edits_children (children_withChildren hchild) hthins fun old hold new => ih old hold
        rwa [nil_append, nil_append, withChildren_self, ← hsame] at hedits
    · exact .single (.reword before after marks)

end RichNode

/-- A repaired node is accepted exactly where it comes from the old one by deleting subtrees below the root and
replacing words; so every node is accepted for itself, and a repair of a repair is one. -/
theorem survivorStructure_exact :
    (∀ a b : RichNode, a.preservesSurvivorStructure b = true ↔ ReflTransGen RichNode.Edit a b)
      ∧ (∀ a b : RichContent, a.preservesSurvivorStructure b = true
        ↔ a.version = b.version ∧ ReflTransGen RichNode.Edit a.node b.node)
      ∧ (∀ a : RichNode, a.preservesSurvivorStructure a = true)
      ∧ ∀ a b c : RichNode, a.preservesSurvivorStructure b = true → b.preservesSurvivorStructure c = true →
        a.preservesSurvivorStructure c = true := by
  have hexact (a b : RichNode) : a.preservesSurvivorStructure b = true ↔ ReflTransGen RichNode.Edit a b := by
    rw [RichNode.preservesSurvivorStructure_iff]
    exact ⟨RichNode.edits_of_survives, RichNode.survives_of_edits⟩
  refine ⟨hexact, fun a b => ?_, fun a => ?_, fun a b c h h' => ?_⟩
  · rw [RichContent.preservesSurvivorStructure, Bool.and_eq_true, decide_eq_true_eq, hexact]
  · exact (hexact a a).mpr .refl
  · exact (hexact a c).mpr (((hexact a b).mp h).trans ((hexact b c).mp h'))

end GeoMaster
