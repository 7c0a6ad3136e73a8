import Mathlib.Logic.Basic

namespace FixLoop
namespace Library

universe u v

/-!
# Machines driven by a list of inputs

A machine is a total step function.  A run feeds it a finite list of inputs,
so every interleaving of any number of callers is one such list.  Two kinds
of statement are packaged here.  The first says what every visited state has
in common, possibly only on runs whose steps meet a side condition.  The
second says exactly which runs stay inside a set of good states: those whose
every step meets a condition that is necessary and sufficient at one step.
-/

structure Machine (State : Type u) (Input : Type v) where
  step : State -> Input -> State

namespace Machine

variable {State : Type u} {Input : Type v} (machine : Machine State Input)

/-- The state after all inputs, the head being fed first. -/
def run (start : State) : List Input -> State
  | [] => start
  | input :: rest => run (machine.step start input) rest

/-- Every step of the run meets the condition, read at the state before it. -/
def Along (condition : State -> Input -> Prop) (start : State) : List Input -> Prop
  | [] => True
  | input :: rest => condition start input ∧ Along condition (machine.step start input) rest

/-- Every visited state, the first and the last included, is good. -/
def Visits (good : State -> Prop) (start : State) : List Input -> Prop
  | [] => good start
  | input :: rest => good start ∧ Visits good (machine.step start input) rest

@[simp] theorem run_nil (start : State) : machine.run start [] = start := rfl

@[simp] theorem run_cons (start : State) (input : Input) (rest : List Input) :
    machine.run start (input :: rest) = machine.run (machine.step start input) rest := rfl

theorem run_append (start : State) (first second : List Input) :
    machine.run start (first ++ second) = machine.run (machine.run start first) second := by
  induction first generalizing start with
  | nil => rfl
  | cons input rest ih => exact ih (machine.step start input)

variable {condition : State -> Input -> Prop} {start : State} {good invariant : State -> Prop}
  {inputs : List Input}

theorem along_append (start : State) (first second : List Input) :
    machine.Along condition start (first ++ second) <->
      machine.Along condition start first ∧
        machine.Along condition (machine.run start first) second := by
  induction first generalizing start with
  | nil => exact ⟨fun along => ⟨True.intro, along⟩, fun both => both.2⟩
  | cons input rest ih =>
    simp only [List.cons_append, Along, run_cons, ih, and_assoc]

/-- The invariant rule for runs whose steps meet a side condition. -/
theorem invariant_along {invariant : State -> Prop} {condition : State -> Input -> Prop}
    (preserved : ∀ state input, invariant state -> condition state input ->
      invariant (machine.step state input))
    {start : State} (initially : invariant start) (inputs : List Input)
    (along : machine.Along condition start inputs) :
    invariant (machine.run start inputs) := by
  induction inputs generalizing start with
  | nil => exact initially
  | cons input rest ih =>
    exact ih (preserved start input initially along.1) along.2

theorem along_of_forall (always : ∀ state input, condition state input) (start : State)
    (inputs : List Input) : machine.Along condition start inputs := by
  induction inputs generalizing start with
  | nil => exact True.intro
  | cons input rest ih => exact ⟨always start input, ih _⟩

theorem along_trivial (start : State) (inputs : List Input) : machine.Along (fun _ _ => True) start inputs :=
  machine.along_of_forall (fun _ _ => True.intro) start inputs

theorem invariant_run {invariant : State -> Prop}
    (preserved : ∀ state input, invariant state -> invariant (machine.step state input))
    {start : State} (initially : invariant start) (inputs : List Input) :
    invariant (machine.run start inputs) :=
  machine.invariant_along (fun state input holds _ => preserved state input holds) initially inputs
    (machine.along_trivial start inputs)

/-- A reflexive and transitive relation that every step satisfies relates
the two ends of every run. -/
theorem related_run (relation : State -> State -> Prop)
    (reflexive : ∀ state, relation state state)
    (transitive : ∀ first second third,
      relation first second -> relation second third -> relation first third)
    (stepwise : ∀ state input, relation state (machine.step state input))
    (start : State) (inputs : List Input) : relation start (machine.run start inputs) := by
  induction inputs generalizing start with
  | nil => exact reflexive start
  | cons input rest ih =>
    exact transitive _ _ _ (stepwise start input) (ih (machine.step start input))

/-- What is observed at the end of a run was there at its start or was
produced by one of its steps. -/
theorem traced_run {Fact : Type*} {observed : State -> Fact -> Prop}
    {produced : State -> Input -> Fact -> Prop}
    (stepwise : ∀ state input fact, observed (machine.step state input) fact ->
      observed state fact ∨ produced state input fact)
    (start : State) (inputs : List Input) (fact : Fact)
    (seen : observed (machine.run start inputs) fact) :
    observed start fact ∨ ∃ before input rest,
      inputs = before ++ input :: rest ∧ produced (machine.run start before) input fact := by
  induction inputs generalizing start with
  | nil => exact Or.inl seen
  | cons input rest ih =>
    rcases ih (machine.step start input) seen with here | ⟨before, later, after, split, made⟩
    · rcases stepwise start input fact here with earlier | made
      · exact Or.inl earlier
      · exact Or.inr ⟨[], input, rest, rfl, made⟩
    · exact Or.inr ⟨input :: before, later, after, by rw [split]; rfl, made⟩

theorem Visits.head (visits : machine.Visits good start inputs) : good start := by
  cases inputs with
  | nil => exact visits
  | cons input rest => exact visits.1

theorem visits_last (visits : machine.Visits good start inputs) : good (machine.run start inputs) := by
  induction inputs generalizing start with
  | nil => exact visits
  | cons input rest ih => exact ih visits.2

/-- A condition on every input may be read at every step. -/
theorem along_with {admissible : Input -> Prop} (all : ∀ input ∈ inputs, admissible input)
    (along : machine.Along condition start inputs) :
    machine.Along (fun state input => admissible input ∧ condition state input) start inputs := by
  induction inputs generalizing start with
  | nil => exact True.intro
  | cons input rest ih =>
    exact ⟨⟨all input List.mem_cons_self, along.1⟩,
      ih (fun other member => all other (List.mem_cons_of_mem input member)) along.2⟩

/-- Runs whose steps meet the side condition visit only states of which the
invariant holds. -/
theorem visits_along
    (preserved : ∀ state input, invariant state -> condition state input -> invariant (machine.step state input))
    (sufficient : ∀ state, invariant state -> good state) (initially : invariant start)
    (inputs : List Input) (along : machine.Along condition start inputs) :
    machine.Visits good start inputs := by
  induction inputs generalizing start with
  | nil => exact sufficient start initially
  | cons input rest ih =>
    exact ⟨sufficient start initially, ih (preserved start input initially along.1) along.2⟩

/-- Where one step from a good state ends in a good state exactly when a
condition holds, the runs through good states only are exactly the runs
whose steps all meet that condition.  The states reached may be known to have
an invariant, and the steps to meet a side condition. -/
theorem visits_iff_along_under {admissible : State -> Input -> Prop}
    (preserved : ∀ state input, invariant state -> admissible state input -> invariant (machine.step state input))
    (exact_step : ∀ state input, invariant state -> admissible state input -> good state -> (good (machine.step state input) <-> condition state input))
    (known : invariant start) (initially : good start) (inputs : List Input)
    (along : machine.Along admissible start inputs) :
    machine.Visits good start inputs <-> machine.Along condition start inputs := by
  induction inputs generalizing start with
  | nil => exact ⟨fun _ => True.intro, fun _ => initially⟩
  | cons input rest ih =>
    have later := preserved start input known along.1
    constructor
    · intro visits
      have next := Visits.head machine visits.2
      exact ⟨(exact_step start input known along.1 initially).mp next, (ih later next along.2).mp visits.2⟩
    · intro conditions
      have next := (exact_step start input known along.1 initially).mpr conditions.1
      exact ⟨initially, (ih later next along.2).mpr conditions.2⟩

/-- The rule for unrestricted runs. -/
theorem visits_iff_along {invariant good : State -> Prop} {condition : State -> Input -> Prop}
    (preserved : ∀ state input, invariant state -> invariant (machine.step state input))
    (exact_step : ∀ state input, invariant state -> good state ->
      (good (machine.step state input) <-> condition state input))
    {start : State} (known : invariant start) (initially : good start) (inputs : List Input) :
    machine.Visits good start inputs <-> machine.Along condition start inputs :=
  machine.visits_iff_along_under (fun state input holds _ => preserved state input holds)
    (fun state input holds _ => exact_step state input holds) known initially inputs
    (machine.along_trivial start inputs)

theorem along_and {first second : State -> Input -> Prop} :
    machine.Along (fun state input => first state input ∧ second state input) start inputs <->
      machine.Along first start inputs ∧ machine.Along second start inputs := by
  induction inputs generalizing start with
  | nil => exact ⟨fun _ => ⟨True.intro, True.intro⟩, fun _ => True.intro⟩
  | cons input rest ih =>
    simp only [Along, ih]
    exact and_and_and_comm

/-- Two conditions that agree in every state reached single out the same
runs. -/
theorem along_iff {first second : State -> Input -> Prop}
    (preserved : ∀ state input, invariant state -> invariant (machine.step state input))
    (agree : ∀ state input, invariant state -> (first state input <-> second state input))
    (known : invariant start) (inputs : List Input) :
    machine.Along first start inputs <-> machine.Along second start inputs := by
  induction inputs generalizing start with
  | nil => exact Iff.rfl
  | cons input rest ih => exact and_congr (agree start input known) (ih (preserved start input known))

end Machine

end Library
end FixLoop
