import Mathlib.Data.List.Basic

namespace FixLoop
namespace Library

universe u v

/-!
# Edit scripts on lists of lines

An edit replaces a contiguous block of lines.  Its body interleaves the lines
that both sides keep with those removed and those added, so both sides can be
read off it.  Positions count from zero, on the old side and on the new one.
`Realises` says that a list of edits, in order and disjoint, turns one list
into another.  It is symmetric up to reversal, and the old list determines the
new one.
-/

inductive Side where
  | kept
  | removed
  | added
deriving DecidableEq

namespace Side

def swap : Side -> Side
  | kept => kept
  | removed => added
  | added => removed

def inOld (side : Side) : Bool := side != added

def inNew (side : Side) : Bool := side != removed

@[simp] theorem inOld_swap (side : Side) : side.swap.inOld = side.inNew := by cases side <;> rfl

@[simp] theorem inNew_swap (side : Side) : side.swap.inNew = side.inOld := by cases side <;> rfl

end Side

structure Edit (Line : Type u) where
  oldStart : Nat
  oldCount : Nat
  newStart : Nat
  newCount : Nat
  body : List (Side × Line)

namespace Edit

variable {Line : Type u} {Other : Type v}

def oldLines (body : List (Side × Line)) : List Line :=
  (body.filter fun entry => entry.1.inOld).map Prod.snd

def newLines (body : List (Side × Line)) : List Line :=
  (body.filter fun entry => entry.1.inNew).map Prod.snd

def swapBody (body : List (Side × Line)) : List (Side × Line) :=
  body.map fun entry => (entry.1.swap, entry.2)

/-- Exchange the two sides. -/
def reverse (edit : Edit Line) : Edit Line :=
  ⟨edit.newStart, edit.newCount, edit.oldStart, edit.oldCount, swapBody edit.body⟩

def map (change : Line -> Other) (edit : Edit Line) : Edit Other :=
  ⟨edit.oldStart, edit.oldCount, edit.newStart, edit.newCount,
    edit.body.map fun entry => (entry.1, change entry.2)⟩

theorem oldLines_swapBody (body : List (Side × Line)) : oldLines (swapBody body) = newLines body := by
  rw [oldLines, swapBody, List.filter_map, List.map_map]
  simp only [Function.comp_def, Side.inOld_swap]
  rfl

theorem newLines_swapBody (body : List (Side × Line)) : newLines (swapBody body) = oldLines body := by
  rw [newLines, swapBody, List.filter_map, List.map_map]
  simp only [Function.comp_def, Side.inNew_swap]
  rfl

variable (change : Line -> Other) {side : Side}

theorem oldLines_map (body : List (Side × Line)) :
    oldLines (body.map fun entry => (entry.1, change entry.2)) = (oldLines body).map change := by
  rw [oldLines, List.filter_map, List.map_map, oldLines, List.map_map]
  rfl

theorem newLines_map (body : List (Side × Line)) :
    newLines (body.map fun entry => (entry.1, change entry.2)) = (newLines body).map change := by
  rw [newLines, List.filter_map, List.map_map, newLines, List.map_map]
  rfl

variable {body : List (Side × Line)} {line : Line} {i j : Nat} {edits : List (Edit Line)}
  {old new : List Line}

theorem mem_of_mem_newLines (member : line ∈ newLines body) : ∃ side, (side, line) ∈ body := by
  rcases List.mem_map.mp member with ⟨entry, kept, rfl⟩
  exact ⟨entry.1, (List.mem_filter.mp kept).1⟩

theorem mem_oldLines (inside : (side, line) ∈ body) (old : side.inOld = true) : line ∈ oldLines body :=
  List.mem_map_of_mem (List.mem_filter.mpr ⟨inside, old⟩)

theorem mem_newLines (inside : (side, line) ∈ body) (new : side.inNew = true) : line ∈ newLines body :=
  List.mem_map_of_mem (List.mem_filter.mpr ⟨inside, new⟩)

/-- The edits turn the rest of the old list from position `i` on into the
rest of the new list from position `j` on. -/
inductive Realises : Nat -> Nat -> List (Edit Line) -> List Line -> List Line -> Prop
  | done (i j : Nat) (rest : List Line) : Realises i j [] rest rest
  | edit {i j : Nat} {edit : Edit Line} {edits : List (Edit Line)} {old new : List Line}
      (skipped : List Line) (oldStart : edit.oldStart = i + skipped.length)
      (newStart : edit.newStart = j + skipped.length)
      (oldCount : edit.oldCount = (oldLines edit.body).length)
      (newCount : edit.newCount = (newLines edit.body).length)
      (later : Realises (edit.oldStart + edit.oldCount) (edit.newStart + edit.newCount) edits old new) :
      Realises i j (edit :: edits) (skipped ++ (oldLines edit.body ++ old))
        (skipped ++ (newLines edit.body ++ new))

theorem Realises.reverse (realises : Realises i j edits old new) :
    Realises j i (edits.map Edit.reverse) new old := by
  induction realises with
  | done i j rest => exact .done j i rest
  | @edit i j edit edits old new skipped oldStart newStart oldCount newCount later ih =>
    have removed : edit.reverse.oldCount = (oldLines edit.reverse.body).length :=
      newCount.trans (congrArg List.length (oldLines_swapBody edit.body).symm)
    have added : edit.reverse.newCount = (newLines edit.reverse.body).length :=
      oldCount.trans (congrArg List.length (newLines_swapBody edit.body).symm)
    have step := @Realises.edit Line j i edit.reverse (edits.map Edit.reverse) new old skipped
      newStart oldStart removed added ih
    change Realises j i _ (skipped ++ (oldLines (swapBody edit.body) ++ new))
      (skipped ++ (newLines (swapBody edit.body) ++ old)) at step
    rwa [oldLines_swapBody, newLines_swapBody] at step

theorem Realises.map (realises : Realises i j edits old new) (change : Line -> Other) :
    Realises i j (edits.map (Edit.map change)) (old.map change) (new.map change) := by
  induction realises with
  | done i j rest => exact .done i j (rest.map change)
  | @edit i j edit edits old new skipped oldStart newStart oldCount newCount later ih =>
    have removed : edit.oldCount = (oldLines (edit.map change).body).length := by
      rw [Edit.map, oldLines_map, List.length_map, oldCount]
    have added : edit.newCount = (newLines (edit.map change).body).length := by
      rw [Edit.map, newLines_map, List.length_map, newCount]
    have step := @Realises.edit Other i j (edit.map change) (edits.map (Edit.map change))
      (old.map change) (new.map change) (skipped.map change)
      (by rw [List.length_map]; exact oldStart) (by rw [List.length_map]; exact newStart)
      removed added ih
    change Realises i j _ (_ ++ (oldLines (edit.body.map _) ++ _))
      (_ ++ (newLines (edit.body.map _) ++ _)) at step
    rw [oldLines_map, newLines_map] at step
    simpa only [List.map_append, List.map_cons] using step

/-- A new line was there before or is in the body of an edit. -/
theorem Realises.mem_new (realises : Realises i j edits old new) (member : line ∈ new) :
    line ∈ old ∨ ∃ edit ∈ edits, ∃ side, (side, line) ∈ edit.body := by
  induction realises with
  | done i j rest => exact Or.inl member
  | @edit i j edit edits old new skipped oldStart newStart oldCount newCount later ih =>
    rcases List.mem_append.mp member with kept | member
    · exact Or.inl (List.mem_append_left _ kept)
    rcases List.mem_append.mp member with added | member
    · exact Or.inr ⟨edit, List.mem_cons_self, mem_of_mem_newLines added⟩
    · rcases ih member with before | ⟨other, listed, inside⟩
      · exact Or.inl (List.mem_append_right _ (List.mem_append_right _ before))
      · exact Or.inr ⟨other, List.mem_cons_of_mem edit listed, inside⟩

/-- What the body of an edit holds is on one of the two sides. -/
theorem Realises.mem_body (realises : Realises i j edits old new) {edit : Edit Line} (listed : edit ∈ edits)
    (inside : (side, line) ∈ edit.body) : line ∈ old ∨ line ∈ new := by
  induction realises with
  | done i j rest => exact False.elim (List.not_mem_nil listed)
  | @edit i j first edits old new skipped oldStart newStart oldCount newCount later ih =>
    rcases List.mem_cons.mp listed with rfl | listed
    · by_cases removed : side.inOld = true
      · exact Or.inl (List.mem_append_right _ (List.mem_append_left _ (mem_oldLines inside removed)))
      · have added : side.inNew = true := by
          cases side with
          | kept | removed => exact absurd rfl removed
          | added => rfl
        exact Or.inr (List.mem_append_right _ (List.mem_append_left _ (mem_newLines inside added)))
    · rcases ih listed with before | after
      · exact Or.inl (List.mem_append_right _ (List.mem_append_right _ before))
      · exact Or.inr (List.mem_append_right _ (List.mem_append_right _ after))

/-- The old list determines the new one. -/
theorem Realises.functional {first second : List Line} (left : Realises i j edits old first)
    (right : Realises i j edits old second) : first = second := by
  induction left generalizing second with
  | done i j rest =>
    cases right
    rfl
  | @edit i j edit edits old new skipped oldStart newStart oldCount newCount later ih =>
    generalize same : skipped ++ (oldLines edit.body ++ old) = whole at right
    cases right with
    | edit passed oldStart' newStart' _ _ later' =>
      have lengths : skipped.length = passed.length := by omega
      rcases List.append_inj same lengths with ⟨rfl, tails⟩
      cases List.append_cancel_left tails
      rw [ih later']

/-- The lines of a list whose positions, counted from `i`, lie in the old
range of no edit. -/
def outside (i : Nat) (edits : List (Edit Line)) (lines : List Line) : List Line :=
  ((lines.zipIdx i).filter (fun entry => edits.all (fun edit =>
    !decide (edit.oldStart ≤ entry.2 ∧ entry.2 < edit.oldStart + edit.oldCount)))).map Prod.fst

theorem outside_append (i : Nat) (edits : List (Edit Line)) (first second : List Line) :
    outside i edits (first ++ second) =
      outside i edits first ++ outside (i + first.length) edits second := by
  rw [outside, List.zipIdx_append, List.filter_append, List.map_append, outside, outside]

theorem outside_sublist (i : Nat) (edits : List (Edit Line)) (lines : List Line) :
    (outside i edits lines).Sublist lines := by
  have whole := (List.filter_sublist (l := lines.zipIdx i) (p := fun entry =>
    edits.all (fun edit => !decide (edit.oldStart ≤ entry.2 ∧
      entry.2 < edit.oldStart + edit.oldCount)))).map Prod.fst
  rwa [List.zipIdx_map_fst] at whole

theorem outside_cons_sublist (i : Nat) (edit : Edit Line) (edits : List (Edit Line))
    (lines : List Line) : (outside i (edit :: edits) lines).Sublist (outside i edits lines) := by
  refine (List.monotone_filter_right _ ?_).map Prod.fst
  intro entry covered
  rw [List.all_cons, Bool.and_eq_true] at covered
  exact covered.2

theorem outside_eq_nil {edit : Edit Line} {lines : List Line} (start : edit.oldStart ≤ i)
    (stop : i + lines.length ≤ edit.oldStart + edit.oldCount) : outside i (edit :: edits) lines = [] := by
  rw [outside, List.map_eq_nil_iff, List.filter_eq_nil_iff]
  intro entry member covered
  rw [List.all_cons, Bool.and_eq_true, Bool.not_eq_true', decide_eq_false_iff_not] at covered
  have place := List.mem_zipIdx member
  exact covered.1 ⟨by omega, by omega⟩

/-- The lines outside all old ranges survive in their order. -/
theorem Realises.outside_sublist (realises : Realises i j edits old new) :
    (outside i edits old).Sublist new := by
  induction realises with
  | done i j rest => exact Edit.outside_sublist i [] rest
  | @edit i j edit edits old new skipped oldStart newStart oldCount newCount later ih =>
    have removed : outside (i + skipped.length) (edit :: edits) (oldLines edit.body) = [] :=
      outside_eq_nil (by omega) (by omega)
    have place : i + skipped.length + (oldLines edit.body).length =
        edit.oldStart + edit.oldCount := by omega
    rw [outside_append, outside_append, removed, List.nil_append, place]
    refine (Edit.outside_sublist i _ skipped).append ?_
    exact ((outside_cons_sublist _ edit edits old).trans ih).trans (List.sublist_append_right _ _)

end Edit

end Library
end FixLoop
