import Mathlib.Data.List.Forall2

namespace FixLoop
namespace Library

universe u v w

/-!
# Computations that can fail

What is known of the parts of a computation that returned, and which errors a
computation can end with.
-/

namespace Fallible

variable {Error : Type u} {Value : Type v} {Result : Type v}

variable {first : Except Error Value} {next : Value -> Except Error Result} {change : Value -> Result}

theorem bind_ok {result : Result} (returned : (first >>= next) = .ok result) :
    ∃ value, first = .ok value ∧ next value = .ok result := by
  cases first with
  | error failure => cases returned
  | ok value => exact ⟨value, rfl, returned⟩

theorem bind_of_ok {value : Value} (returned : first = .ok value) : (first >>= next) = next value := by
  rw [returned]
  rfl

theorem map_ok {result : Result} (returned : first.map change = .ok result) :
    ∃ value, first = .ok value ∧ change value = result := by
  cases first with
  | error failure => cases returned
  | ok value => exact ⟨value, rfl, Except.ok.inj returned⟩

/-- Every error with which the computation ends is one of these. -/
def Raises (errors : Error -> Prop) (computation : Except Error Value) : Prop :=
  ∀ error, computation = .error error -> errors error

variable {errors : Error -> Prop}

theorem raises_ok (value : Value) : Raises errors (.ok value : Except Error Value) :=
  fun _ failed => nomatch failed

theorem raises_error {error : Error} (allowed : errors error) :
    Raises errors (.error error : Except Error Value) := by
  intro other failed
  cases failed
  exact allowed

theorem raises_bind (before : Raises errors first)
    (after : ∀ value, first = .ok value -> Raises errors (next value)) :
    Raises errors (first >>= next) := by
  cases first with
  | error failure =>
    intro other failed
    cases failed
    exact before failure rfl
  | ok value => exact after value rfl

theorem raises_map (before : Raises errors first) : Raises errors (first.map change) := by
  cases first with
  | error failure =>
    intro other failed
    cases failed
    exact before failure rfl
  | ok value => exact raises_ok (change value)

variable {Item : Type v} {items : List Item} {step : Item -> Except Error Value}

theorem raises_foldlM {State : Type v} {step : State -> Item -> Except Error State}
    (steps : ∀ state item, item ∈ items -> Raises errors (step state item)) (start : State) :
    Raises errors (items.foldlM step start) := by
  induction items generalizing start with
  | nil => exact raises_ok start
  | cons item rest ih =>
    rw [List.foldlM_cons]
    exact raises_bind (steps start item List.mem_cons_self) (fun state _ =>
      ih (fun state other member => steps state other (List.mem_cons_of_mem _ member)) state)

/-! ## Computations that return -/

def Returns (computation : Except Error Value) : Prop :=
  ∃ value, computation = .ok value

theorem returns_ok (value : Value) : Returns (.ok value : Except Error Value) :=
  ⟨value, rfl⟩

theorem returns_of_toBool {computation : Except Error Value} (returned : computation.toBool = true) :
    Returns computation := by
  cases computation with
  | error => cases returned
  | ok value => exact returns_ok value

theorem Returns.bind (before : Returns first)
    (after : ∀ value, first = .ok value -> Returns (next value)) : Returns (first >>= next) := by
  rcases before with ⟨value, returned⟩
  rw [bind_of_ok returned]
  exact after value returned

theorem Returns.map (before : Returns first) : Returns (first.map change) := by
  rcases before with ⟨value, rfl⟩
  exact returns_ok (change value)

theorem Returns.raises {computation : Except Error Value} (returned : Returns computation) :
    Raises errors computation := by
  rcases returned with ⟨value, rfl⟩
  exact raises_ok value

theorem returns_mapM (steps : ∀ item ∈ items, Returns (step item)) :
    Returns (items.mapM step) := by
  induction items with
  | nil => exact returns_ok []
  | cons item rest ih =>
    rw [List.mapM_cons]
    exact (steps item List.mem_cons_self).bind (fun _ _ =>
      (ih fun other member => steps other (List.mem_cons_of_mem _ member)).bind
        (fun _ _ => returns_ok _))

/-- A traversal returns exactly what its steps return. -/
theorem mapM_ok_iff {values : List Value} :
    items.mapM step = .ok values <-> List.Forall₂ (fun item value => step item = .ok value) items values := by
  induction items generalizing values with
  | nil =>
    rw [List.mapM_nil, List.forall₂_nil_left_iff]
    exact ⟨fun same => (Except.ok.inj same).symm, fun same => congrArg Except.ok same.symm⟩
  | cons item rest ih =>
    rw [List.mapM_cons]
    constructor
    · intro returned
      rcases bind_ok returned with ⟨value, here, returned⟩
      rcases bind_ok returned with ⟨others, later, returned⟩
      cases returned
      exact .cons here (ih.mp later)
    · intro each
      cases each with
      | cons here later =>
        rw [bind_of_ok here, bind_of_ok (ih.mpr later)]
        rfl

section Through

variable {Item Middle Last : Type*} {first : Item -> Middle -> Prop} {second : Middle -> Last -> Prop}
  {through : Item -> Last -> Prop}

variable {items : List Item}

variable {middles : List Middle} {lasts : List Last}

theorem exists_of_forall₂ (related : List.Forall₂ first items middles) {middle : Middle}
    (member : middle ∈ middles) : ∃ item, first item middle := by
  induction related with
  | nil => cases member
  | cons here _ ih =>
    rcases List.mem_cons.mp member with rfl | later
    · exact ⟨_, here⟩
    · exact ih later

theorem forall₂_through
    (composes : ∀ item ∈ items, ∀ middle last, first item middle -> second middle last -> through item last)
    (before : List.Forall₂ first items middles) (after : List.Forall₂ second middles lasts) :
    List.Forall₂ through items lasts := by
  induction before generalizing lasts with
  | nil =>
    cases after
    exact .nil
  | cons here _ ih =>
    cases after with
    | cons there later =>
      exact .cons (composes _ List.mem_cons_self _ _ here there)
        (ih (fun item member => composes item (List.mem_cons_of_mem _ member)) later)

theorem forall₂_between
    (splits : ∀ item ∈ items, ∀ last, through item last -> ∃ middle, first item middle ∧ second middle last)
    (whole : List.Forall₂ through items lasts) :
    ∃ middles, List.Forall₂ first items middles ∧ List.Forall₂ second middles lasts := by
  induction whole with
  | nil => exact ⟨[], .nil, .nil⟩
  | cons here _ ih =>
    rcases splits _ List.mem_cons_self _ here with ⟨middle, before, after⟩
    rcases ih (fun item member => splits item (List.mem_cons_of_mem _ member)) with ⟨middles, earlier, later⟩
    exact ⟨middle :: middles, .cons before earlier, .cons after later⟩

end Through

end Fallible

end Library
end FixLoop
