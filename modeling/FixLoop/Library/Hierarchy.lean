import Mathlib.Data.List.Infix

namespace FixLoop
namespace Library

/-!
# Hierarchical names

A name is a text whose parts stand between separators.  The names above it are
its proper beginnings up to a separator; they are nested, and each is shallower
than the names below it.
-/

namespace Hierarchy

variable {Symbol : Type} [DecidableEq Symbol]

/-- `separator.join(parts[:count]) for count in range(1, len(parts))`. -/
def parents (separator : Symbol) (name : List Symbol) : List (List Symbol) :=
  let parts := name.splitOn separator
  (List.range' 1 (parts.length - 1)).map fun count => [separator].intercalate (parts.take count)

/-- The number of separators. -/
def depth (separator : Symbol) (name : List Symbol) : Nat := name.count separator

variable {separator : Symbol} {name parent other : List Symbol}

omit [DecidableEq Symbol] in
theorem intercalate_append {first second : List (List Symbol)} (some : first ≠ []) (more : second ≠ []) :
    [separator].intercalate (first ++ second) =
      [separator].intercalate first ++ separator :: [separator].intercalate second := by
  induction first with
  | nil => exact absurd rfl some
  | cons head rest ih =>
    by_cases last : rest = []
    · subst last
      rw [List.singleton_append, List.intercalate_cons_of_ne_nil more, List.intercalate_singleton]
      simp
    · rw [List.cons_append, List.intercalate_cons_of_ne_nil (by simp [last]), ih last,
        List.intercalate_cons_of_ne_nil last]
      simp

/-- The names above a name are its beginnings before a separator. -/
theorem mem_parents_iff : parent ∈ parents separator name <-> (parent ++ [separator]).IsPrefix name := by
  unfold parents
  rw [List.mem_map]
  constructor
  · rintro ⟨count, bounds, rfl⟩
    rw [List.mem_range'_1] at bounds
    have split : [separator].intercalate (name.splitOn separator) = name := List.intercalate_splitOn separator
    rw [← List.take_append_drop count (name.splitOn separator), intercalate_append] at split
    · refine ⟨[separator].intercalate ((name.splitOn separator).drop count), ?_⟩
      rw [List.append_assoc, List.singleton_append]
      exact split
    · intro empty
      have short := congrArg List.length empty
      rw [List.length_take, List.length_nil] at short
      omega
    · intro empty
      have short := congrArg List.length empty
      rw [List.length_drop, List.length_nil] at short
      omega
  · rintro ⟨rest, rfl⟩
    rw [List.append_assoc, List.singleton_append, List.splitOn_append_cons_self]
    refine ⟨(parent.splitOn separator).length, ?_, ?_⟩
    · have first := List.length_pos_of_ne_nil (List.splitOn_ne_nil separator parent)
      have second := List.length_pos_of_ne_nil (List.splitOn_ne_nil separator rest)
      rw [List.mem_range'_1, List.length_append]
      omega
    · rw [List.take_left, List.intercalate_splitOn]

theorem depth_lt (above : parent ∈ parents separator name) : depth separator parent < depth separator name := by
  rcases mem_parents_iff.mp above with ⟨rest, rfl⟩
  simp [depth]

theorem mem_parents_trans (first : other ∈ parents separator parent) (second : parent ∈ parents separator name) :
    other ∈ parents separator name := by
  rw [mem_parents_iff] at first second ⊢
  exact first.trans ((List.prefix_append parent [separator]).trans second)

end Hierarchy

end Library
end FixLoop
