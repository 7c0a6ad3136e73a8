import Mathlib.Data.List.Perm.Subperm

namespace FixLoop
namespace Library

universe u

/-!
# The search for a cycle

A depth-first search visits the nodes that a node points to before it is done
with the node, and fails at a node that it is still visiting.  It comes to its
end exactly if no node leads back to itself.
-/

namespace CycleSearch

variable {Node : Type u} [DecidableEq Node] (next : Node -> List Node)

/-- Visit a node, given the nodes that are being visited and those that were.
Each visit inside another takes fuel. -/
def visit : Nat -> List Node -> List Node -> Node -> Option (List Node)
  | 0, _, _, _ => none
  | fuel + 1, visiting, visited, node =>
    if node ∈ visiting then none
    else if node ∈ visited then some visited
    else ((next node).foldlM (visit fuel (node :: visiting)) visited).map (List.cons node)

/-- Visit all of the nodes. -/
def search (nodes : List Node) : Option (List Node) :=
  nodes.foldlM (visit next (nodes.length + 1) []) []

def Edge (node other : Node) : Prop := other ∈ next node

/-- No node leads back to itself. -/
def Acyclic : Prop := ∀ node, ¬Relation.TransGen (Edge next) node node

/-- A node stands before the nodes that it points to. -/
inductive Sequenced : List Node -> Prop where
  | nil : Sequenced []
  | cons {node : Node} {rest : List Node} (fresh : node ∉ rest)
      (points : ∀ other ∈ next node, other ∈ rest) (sequenced : Sequenced rest) :
      Sequenced (node :: rest)

variable {next}

variable {order visiting nodes : List Node} {node : Node}

section

omit [DecidableEq Node]

theorem Sequenced.step (sequenced : Sequenced next order) {other : Node} (member : node ∈ order)
    (edge : Edge next node other) : other ∈ order := by
  induction sequenced with
  | nil => exact absurd member List.not_mem_nil
  | cons _ points _ ih =>
    apply List.mem_cons_of_mem
    rcases List.mem_cons.mp member with rfl | later
    · exact points other edge
    · exact ih later

theorem Sequenced.closed (sequenced : Sequenced next order) {other : Node} (member : node ∈ order)
    (leads : Relation.TransGen (Edge next) node other) : other ∈ order := by
  induction leads with
  | single edge => exact sequenced.step member edge
  | tail _ edge ih => exact sequenced.step ih edge

theorem Sequenced.irreflexive (sequenced : Sequenced next order) (member : node ∈ order) :
    ¬Relation.TransGen (Edge next) node node := by
  induction sequenced with
  | nil => exact absurd member List.not_mem_nil
  | cons fresh points sequenced ih =>
    rcases List.mem_cons.mp member with rfl | later
    · intro leads
      rcases Relation.TransGen.head'_iff.mp leads with ⟨other, edge, rest⟩
      rcases Relation.reflTransGen_iff_eq_or_transGen.mp rest with rfl | back
      · exact fresh (points _ edge)
      · exact fresh (sequenced.closed (points other edge) back)
    · exact ih later

/-- Of the nodes with a property, one points to none of them. -/
theorem Sequenced.exists_last {order : List Node} (sequenced : Sequenced next order) {property : Node -> Prop}
    (some_ : ∃ node ∈ order, property node) :
    ∃ node, property node ∧ ∀ other, Edge next node other -> ¬property other := by
  induction sequenced with
  | nil =>
    rcases some_ with ⟨node, member, _⟩
    cases member
  | @cons head rest _ points _ ih =>
    by_cases later : ∃ node ∈ rest, property node
    · exact ih later
    · rcases some_ with ⟨node, member, holds⟩
      rcases List.mem_cons.mp member with rfl | listed
      · exact ⟨node, holds, fun other edge found => later ⟨other, points other edge, found⟩⟩
      · exact absurd ⟨node, listed, holds⟩ later

end

/-- What a visit keeps: the sequence, what was visited, and that nothing that is
being visited is done. -/
structure Kept (next : Node -> List Node) (visiting visited after : List Node) : Prop where
  sequenced : Sequenced next after
  more : visited.Subset after
  open_ : ∀ node ∈ visiting, node ∉ after

/-- Visits one after another keep what each of them keeps. -/
theorem foldlM_kept {fuel : Nat}
    (each : ∀ {visited after : List Node} {node : Node}, visit next fuel visiting visited node = some after -> Sequenced next visited -> (∀ other ∈ visiting, other ∉ visited) -> Kept next visiting visited after ∧ node ∈ after)
    {visited after : List Node} (ran : nodes.foldlM (visit next fuel visiting) visited = some after)
    (sequenced : Sequenced next visited) (apart : ∀ other ∈ visiting, other ∉ visited) :
    Kept next visiting visited after ∧ ∀ node ∈ nodes, node ∈ after := by
  induction nodes generalizing visited with
  | nil =>
    cases ran
    exact ⟨⟨sequenced, List.Subset.refl _, apart⟩, fun node member => absurd member List.not_mem_nil⟩
  | cons node rest ih =>
    rw [List.foldlM_cons] at ran
    rcases Option.bind_eq_some_iff.mp ran with ⟨middle, first, ran⟩
    rcases each first sequenced apart with ⟨kept, here⟩
    rcases ih ran kept.sequenced kept.open_ with ⟨later, all⟩
    refine ⟨⟨later.sequenced, fun _ member => later.more (kept.more member), later.open_⟩, ?_⟩
    intro other member
    rcases List.mem_cons.mp member with rfl | listed
    · exact later.more here
    · exact all other listed

theorem visit_kept {fuel : Nat} {visited after : List Node}
    (ran : visit next fuel visiting visited node = some after) (sequenced : Sequenced next visited)
    (apart : ∀ other ∈ visiting, other ∉ visited) :
    Kept next visiting visited after ∧ node ∈ after := by
  induction fuel generalizing visiting visited after node with
  | zero => cases ran
  | succ fuel ih =>
    rw [visit] at ran
    split at ran
    · cases ran
    next fresh =>
    split at ran
    · next done =>
        cases ran
        exact ⟨⟨sequenced, List.Subset.refl _, apart⟩, done⟩
    next undone =>
    rcases Option.map_eq_some_iff.mp ran with ⟨inner, folded, rfl⟩
    have unopened : ∀ other, other ∈ node :: visiting -> other ∉ visited := by
      intro other member
      rcases List.mem_cons.mp member with rfl | listed
      · exact undone
      · exact apart other listed
    rcases foldlM_kept ih folded sequenced unopened with ⟨kept, all⟩
    refine ⟨⟨.cons (kept.open_ node List.mem_cons_self) all kept.sequenced, ?_, ?_⟩, List.mem_cons_self⟩
    · exact fun _ member => List.mem_cons_of_mem _ (kept.more member)
    · intro other member here
      rcases List.mem_cons.mp here with rfl | done
      · exact fresh member
      · exact kept.open_ other (List.mem_cons_of_mem _ member) done

theorem search_sequenced (found : search next nodes = some order) :
    Sequenced next order ∧ ∀ node ∈ nodes, node ∈ order := by
  rcases foldlM_kept visit_kept found .nil (fun _ member => absurd member List.not_mem_nil) with ⟨kept, all⟩
  exact ⟨kept.sequenced, all⟩

omit [DecidableEq Node] in
theorem foldlM_isSome {step : List Node -> Node -> Option (List Node)}
    (each : ∀ visited node, node ∈ nodes -> (step visited node).isSome = true) (visited : List Node) :
    (nodes.foldlM step visited).isSome = true := by
  induction nodes generalizing visited with
  | nil => rfl
  | cons node rest ih =>
    rcases Option.isSome_iff_exists.mp (each visited node List.mem_cons_self) with ⟨after, first⟩
    rw [List.foldlM_cons, first]
    exact ih (fun visited other member => each visited other (List.mem_cons_of_mem _ member)) after

/-- The nodes that are being visited are distinct, so there is fuel for all of
them. -/
theorem visit_isSome (acyclic : Acyclic next)
    (within : ∀ node other, node ∈ nodes -> other ∈ next node -> other ∈ nodes) {fuel : Nat}
    (known : node ∈ nodes) (distinct : visiting.Nodup) (some_ : visiting.Subset nodes)
    (enough : nodes.length < visiting.length + fuel)
    (leads : ∀ other ∈ visiting, Relation.TransGen (Edge next) other node)
    (visited : List Node) : (visit next fuel visiting visited node).isSome = true := by
  induction fuel generalizing visiting node visited with
  | zero => exact absurd (List.subperm_of_subset distinct some_).length_le (Nat.not_le_of_lt enough)
  | succ fuel ih =>
    have fresh : node ∉ visiting := fun member => acyclic node (leads node member)
    rw [visit, if_neg fresh]
    split
    · rfl
    rw [Option.isSome_map]
    apply foldlM_isSome
    intro visited other edge
    refine ih (within node other known edge) (List.nodup_cons.mpr ⟨fresh, distinct⟩)
      (List.cons_subset.mpr ⟨known, some_⟩) (by rw [List.length_cons]; omega) ?_ visited
    intro before member
    rcases List.mem_cons.mp member with rfl | listed
    · exact .single edge
    · exact (leads before listed).tail edge

/-- The search comes to its end exactly if no node leads back to itself. -/
theorem search_isSome_iff {nodes : List Node}
    (within : ∀ node other, other ∈ next node -> node ∈ nodes ∧ other ∈ nodes) :
    (search next nodes).isSome = true <-> Acyclic next := by
  constructor
  · intro found node leads
    rcases Option.isSome_iff_exists.mp found with ⟨order, found⟩
    rcases Relation.TransGen.head'_iff.mp leads with ⟨other, edge, _⟩
    rcases search_sequenced found with ⟨sequenced, all⟩
    exact sequenced.irreflexive (all node (within node other edge).1) leads
  · intro acyclic
    apply foldlM_isSome
    intro visited node member
    exact visit_isSome acyclic (fun node other _ edge => (within node other edge).2) member List.nodup_nil
      (List.nil_subset _) (by rw [List.length_nil]; omega) (fun _ absent => absurd absent List.not_mem_nil) visited

end CycleSearch

end Library
end FixLoop
