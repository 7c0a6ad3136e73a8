import Mathlib.Data.List.Sort

namespace FixLoop
namespace Library
namespace Sorting

/-!
# Sorting by a key

Where the keys are distinct the sorted list does not depend on the order of
the items.
-/

universe u v

variable {Item : Type u} {Rank : Type v} [LinearOrder Rank] (rank : Item -> Rank)

/-- `sorted(items, key=rank)`. -/
def sorted (items : List Item) : List Item :=
  items.mergeSort fun first second => decide (rank first ≤ rank second)

theorem sorted_perm (items : List Item) : (sorted rank items).Perm items := List.mergeSort_perm _ _

theorem sorted_pairwise (items : List Item) :
    (sorted rank items).Pairwise (fun first second => rank first ≤ rank second) := by
  refine List.Pairwise.imp of_decide_eq_true (List.pairwise_mergeSort ?_ ?_ items)
  · intro first second third below above
    exact decide_eq_true (le_trans (of_decide_eq_true below) (of_decide_eq_true above))
  · intro first second
    simpa using le_total (rank first) (rank second)

theorem sorted_lt {items : List Item} (distinct : (items.map rank).Nodup) :
    (sorted rank items).Pairwise (fun first second => rank first < rank second) := by
  have apart := List.pairwise_map.mp (((sorted_perm rank items).map rank).nodup_iff.mpr distinct)
  exact ((sorted_pairwise rank items).and apart).imp fun both => lt_of_le_of_ne both.1 both.2

theorem sorted_congr {items others : List Item} (distinct : (items.map rank).Nodup)
    (listed : items.Perm others) : sorted rank items = sorted rank others := by
  have shuffled := (sorted_perm rank items).trans (listed.trans (sorted_perm rank others).symm)
  refine shuffled.eq_of_pairwise ?_ (sorted_pairwise rank items) (sorted_pairwise rank others)
  intro first second member other below above
  have there := listed.mem_iff.mpr ((sorted_perm rank others).mem_iff.mp other)
  exact List.inj_on_of_nodup_map distinct ((sorted_perm rank items).mem_iff.mp member) there
    (le_antisymm below above)

end Sorting
end Library
end FixLoop
