import Mathlib.Data.List.DropRight

namespace FixLoop
namespace Library
namespace Recent

/-!
# The end of a list

A bounded log keeps the last entries only: `entries[-count:]` after every
entry.  Cutting after every entry or once at the end makes no difference.
-/

variable {Item Other : Type} (count : Nat)

theorem length_rtake (items : List Item) : (items.rtake count).length = min count items.length := by
  rw [List.rtake, List.length_drop]
  omega

theorem rtake_of_length_le {items : List Item} (short : items.length ≤ count) : items.rtake count = items := by
  rw [List.rtake, Nat.sub_eq_zero_of_le short, List.drop_zero]

theorem rtake_append_rtake (older newer : List Item) :
    (older.rtake count ++ newer).rtake count = (older ++ newer).rtake count := by
  apply List.ext_getElem?
  intro index
  simp only [List.rtake, List.getElem?_drop, List.getElem?_append, List.length_append, List.length_drop]
  split_ifs <;> first | omega | (congr 1; omega)

theorem map_rtake (read : Item -> Other) (items : List Item) :
    (items.rtake count).map read = (items.map read).rtake count := by
  rw [List.rtake, List.rtake, List.map_drop, List.length_map]

theorem getElem?_rtake (items : List Item) (index : Nat) :
    (items.rtake count)[index]? = items[index + (items.length - count)]? := by
  rw [List.rtake, List.getElem?_drop, Nat.add_comm]

theorem rtake_suffix (items : List Item) : items.rtake count <:+ items := List.drop_suffix _ _

/-- The last entries of a log that ends with some entries contain them if they
are not too many. -/
theorem suffix_rtake {recent items : List Item} (ends : recent <:+ items) (few : recent.length ≤ count) :
    recent <:+ items.rtake count := by
  apply List.suffix_of_suffix_length_le ends (rtake_suffix count items)
  rw [length_rtake]
  exact Nat.le_min.mpr ⟨few, ends.length_le⟩

theorem rtake_suffix_rtake {fewer more : Nat} (le : fewer ≤ more) (items : List Item) :
    items.rtake fewer <:+ items.rtake more := by
  apply suffix_rtake more (rtake_suffix fewer items)
  rw [length_rtake]
  omega

theorem mem_of_mem_rtake {items : List Item} {item : Item} (member : item ∈ items.rtake count) : item ∈ items :=
  List.mem_of_mem_drop member

end Recent
end Library
end FixLoop
