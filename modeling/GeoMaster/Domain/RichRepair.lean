import GeoMaster.Domain.RichContent

/-!
# Repairs of rich content

A repair can delete unsupported child subtrees and replace text, without moving survivors, changing their attributes
and marks or introducing nodes.
-/

namespace GeoMaster

namespace RichNode

/-- Two nodes of one kind with the same attributes and marks. The words of a text may differ. -/
def attrsMatch : RichNode → RichNode → Bool
  | .paragraph _, .paragraph _ | .hardBreak, .hardBreak | .bulletList _, .bulletList _
  | .listItem _, .listItem _ | .table _, .table _ | .tableRow _, .tableRow _ => true
  | .heading a _, .heading b _ => a = b
  | .orderedList a _, .orderedList b _ => a = b
  | .codeBlock a _, .codeBlock b _ => a = b
  | .tableHeader a _, .tableHeader b _ | .tableCell a _, .tableCell b _ => a = b
  | .text _ a, .text _ b => a = b
  | .media a, .media b => a = b
  | _, _ => false

mutual

def preservesSurvivorStructure (self next : RichNode) : Bool :=
  attrsMatch self next
    && match self with
      | .paragraph content | .heading _ content | .bulletList content | .orderedList _ content
      | .listItem content | .codeBlock _ content | .table content | .tableRow content
      | .tableHeader _ content | .tableCell _ content => preserveSurvivors content next.children
      -- Without survivors there is nothing a child could be.
      | .text _ _ | .hardBreak | .media _ => next.children.isEmpty
termination_by structural self

/-- Every new child is matched with the first old child that it can be, after the one matched before. -/
def preserveSurvivors (survivors next : List RichNode) : Bool :=
  match survivors, next with
  | _, [] => true
  | [], _ :: _ => false
  | old :: rest, child :: others =>
    if preservesSurvivorStructure old child then preserveSurvivors rest others
    else preserveSurvivors rest (child :: others)
termination_by structural survivors

end

end RichNode

def RichContent.preservesSurvivorStructure (self next : RichContent) : Bool :=
  self.version = next.version && self.node.preservesSurvivorStructure next.node

end GeoMaster
