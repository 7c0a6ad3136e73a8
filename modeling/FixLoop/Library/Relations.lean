import Mathlib.Data.Set.Finite.List

namespace FixLoop
namespace Library

universe u v

/-!
# Rules over an acyclic relation

The items of a list refer to one another without a cycle.  Then a property
passes from the items that an item refers to to the item itself, and a rule
that computes the value of an item from the values of those it refers to has at
most one solution.
-/

/-- No item refers to itself over any number of references. -/
def Acyclic {Item : Type u} (refers : Item -> Item -> Prop) : Prop :=
  ∀ item, ¬ Relation.TransGen refers item item

namespace Acyclic

variable {Item : Type u} {refers : Item -> Item -> Prop} {items : List Item}

/-- Induction along the references. -/
theorem induction (acyclic : Acyclic refers)
    (closed : ∀ item other, item ∈ items -> refers item other -> other ∈ items)
    {motive : Item -> Prop}
    (step : ∀ item ∈ items, (∀ other, refers item other -> motive other) -> motive item)
    {item : Item} (listed : item ∈ items) : motive item := by
  let below : { item // item ∈ items } -> { item // item ∈ items } -> Prop :=
    fun other item => Relation.TransGen refers item.1 other.1
  have finite : Finite { item // item ∈ items } := items.finite_toSet
  have transitive : IsTrans { item // item ∈ items } below :=
    ⟨fun _ _ _ first second => second.trans first⟩
  have irreflexive : Std.Irrefl below := ⟨fun item => acyclic item.1⟩
  have founded : WellFounded below := Finite.wellFounded_of_trans_of_irrefl below
  refine founded.induction (C := fun item => motive item.1) ⟨item, listed⟩ ?_
  intro current known
  refine step current.1 current.2 ?_
  intro other reference
  exact known ⟨other, closed current.1 other current.2 reference⟩ (.single reference)

/-- A rule that looks at the references alone has at most one solution. -/
theorem unique {Value : Type v} (acyclic : Acyclic refers)
    (closed : ∀ item other, item ∈ items -> refers item other -> other ∈ items)
    (rule : (Item -> Value) -> Item -> Value)
    (looks : ∀ item ∈ items, ∀ first second : Item -> Value,
      (∀ other, refers item other -> first other = second other) ->
        rule first item = rule second item)
    {first second : Item -> Value} (solves : ∀ item ∈ items, first item = rule first item)
    (also : ∀ item ∈ items, second item = rule second item)
    {item : Item} (listed : item ∈ items) : first item = second item := by
  refine acyclic.induction closed (motive := fun item => first item = second item) ?_ listed
  intro current member agree
  calc first current = rule first current := solves current member
    _ = rule second current := looks current member first second agree
    _ = second current := (also current member).symm

end Acyclic

/-!
# Searches that remember the path to an item

A search visits an item and everything that it refers to, and rejects a name
that is on the path from its start already.  A search without a rejection has
found every item that can be reached, and no cycle.
-/

variable {Item : Type u} {Name : Type v} {name : Item -> Name} {refers : Item -> Item -> Prop}
  {Good : Item -> Prop}

/-- A search without a rejection, with the names on the path to the item. -/
inductive Explored (name : Item -> Name) (refers : Item -> Item -> Prop) (Good : Item -> Prop) :
    List Name -> Item -> Prop where
  | visit {path : List Name} {item : Item} (fresh : name item ∉ path) (good : Good item)
      (rest : ∀ other, refers item other -> Explored name refers Good (name item :: path) other) :
      Explored name refers Good path item

namespace Explored

variable {path : List Name} {item other : Item}

theorem fresh (explored : Explored name refers Good path item) : name item ∉ path := by
  cases explored with
  | visit fresh _ _ => exact fresh

theorem good (explored : Explored name refers Good path item) : Good item := by
  cases explored with
  | visit _ good _ => exact good

theorem next (explored : Explored name refers Good path item) (reference : refers item other) :
    Explored name refers Good (name item :: path) other := by
  cases explored with
  | visit _ _ rest => exact rest other reference

/-- The search goes on along a path, and the path remembers its beginning. -/
theorem along (explored : Explored name refers Good path item)
    (reached : Relation.ReflTransGen refers item other) :
    ∃ longer, Explored name refers Good longer other ∧ path.Subset longer := by
  induction reached with
  | refl => exact ⟨path, explored, List.Subset.refl path⟩
  | tail _ reference ih =>
    rcases ih with ⟨longer, here, kept⟩
    exact ⟨_, here.next reference, fun _ member => List.mem_cons_of_mem _ (kept member)⟩

theorem good_of_reached (explored : Explored name refers Good path item)
    (reached : Relation.ReflTransGen refers item other) : Good other := by
  rcases explored.along reached with ⟨_, here, _⟩
  exact here.good

/-- A path does not come back to the name of its beginning. -/
theorem name_ne (explored : Explored name refers Good path item)
    (reached : Relation.TransGen refers item other) : name other ≠ name item := by
  rcases Relation.TransGen.head'_iff.mp reached with ⟨second, reference, rest⟩
  rcases (explored.next reference).along rest with ⟨longer, here, kept⟩
  intro same
  exact here.fresh (same ▸ kept List.mem_cons_self)

end Explored

end Library
end FixLoop
