import Mathlib.Logic.Basic

namespace FixLoop
namespace Library

universe u v w

/-!
# Processes under interference

A process performs labelled atomic actions on a shared state and halts with a
result.  Between its actions, and after the last one, an environment may
change the state.  An execution keeps the states in which the process acted.
The rules below reduce a property of all executions to what the process knows
when it acts, as long as that knowledge is stable under the environment.
-/

inductive Process (State : Type u) (Label : Type v) (Result : Type w) where
  | halt (result : Result)
  | atomic (label : Label) (act : State -> State) (next : State -> Process State Label Result)

namespace Process

variable {State : Type u} {Label : Type v} {Result : Type w}

/-- The executions of a process, with the states in which it acted, the
result, and any state in which the environment leaves it afterwards. -/
inductive Executes (interferes : State -> State -> Prop) :
    Process State Label Result -> State -> List (Label × State) -> Result -> State -> Prop
  | halt (result : Result) (state : State) : Executes interferes (.halt result) state [] result state
  | act {label : Label} {act : State -> State} {next : State -> Process State Label Result}
      {state final : State} {trace : List (Label × State)} {result : Result}
      (rest : Executes interferes (next state) (act state) trace result final) :
      Executes interferes (.atomic label act next) state ((label, state) :: trace) result final
  | interference {process : Process State Label Result} {state middle final : State}
      {trace : List (Label × State)} {result : Result} (changed : interferes state middle)
      (rest : Executes interferes process middle trace result final) :
      Executes interferes process state trace result final

variable {interferes : State -> State -> Prop}

/-- Every execution of the process from the state meets the condition. -/
def Ensures (interferes : State -> State -> Prop) (process : Process State Label Result)
    (state : State) (post : List (Label × State) -> Result -> State -> Prop) : Prop :=
  ∀ trace result final, Executes interferes process state trace result final ->
    post trace result final

variable {result : Result} {state : State} (known : State -> Prop)

variable {final : State} {post : List (Label × State) -> Result -> State -> Prop} {act : State -> State}
  {next : State -> Process State Label Result} {process : Process State Label Result}

theorem Executes.of_halt {returned : Result} {trace : List (Label × State)}
    (execution : Executes interferes (.halt returned) state trace result final) :
    trace = [] ∧ result = returned := by
  generalize same : (Process.halt returned : Process State Label Result) = process at execution
  induction execution with
  | halt other state =>
    cases same
    exact ⟨rfl, rfl⟩
  | act rest ih => cases same
  | interference changed rest ih => exact ih same

theorem ensures_halt (stable : ∀ before after, interferes before after -> known before -> known after)
    (holds : known state) (enough : ∀ final, known final -> post [] result final) :
    Ensures interferes (.halt result) state post := by
  intro trace reached final execution
  generalize same : (Process.halt result : Process State Label Result) = process at execution
  induction execution with
  | halt other state =>
    cases same
    exact enough state holds
  | act rest ih => cases same
  | interference changed rest ih => exact ih (stable _ _ changed holds) same

theorem ensures_atomic
    (stable : ∀ before after, interferes before after -> known before -> known after) {label : Label}
    (holds : known state)
    (continues : ∀ before, known before -> Ensures interferes (next before) (act before) fun trace => post ((label, before) :: trace)) :
    Ensures interferes (.atomic label act next) state post := by
  intro trace result final execution
  generalize same : Process.atomic label act next = process at execution
  induction execution with
  | halt result state => cases same
  | act rest ih =>
    cases same
    exact continues _ holds _ _ _ rest
  | interference changed rest ih => exact ih (stable _ _ changed holds) same

theorem Executes.of_atomic
    (stable : ∀ before after, interferes before after -> known before -> known after) {label : Label}
    {trace : List (Label × State)} (holds : known state)
    (execution : Executes interferes (.atomic label act next) state trace result final) :
    ∃ before rest, known before ∧ trace = (label, before) :: rest ∧
      Executes interferes (next before) (act before) rest result final := by
  have first : Ensures interferes (.atomic label act next) state (fun trace result final =>
      ∃ before rest, known before ∧ trace = (label, before) :: rest ∧
        Executes interferes (next before) (act before) rest result final) :=
    ensures_atomic known stable holds fun before held rest _ _ later => ⟨before, rest, held, rfl, later⟩
  exact first trace result final execution

/-- The process acts under these labels, then under quiet ones, and returns; or it
stops on its way. -/
inductive Follows (quiet : Label -> Prop) (stops returns : Result -> Prop) :
    List Label -> Process State Label Result -> Prop
  | returned {result : Result} (returned : returns result) : Follows quiet stops returns [] (.halt result)
  | stopped {labels : List Label} {result : Result} (stopped : stops result) :
      Follows quiet stops returns labels (.halt result)
  | act {label : Label} {labels : List Label} {act : State -> State} {next : State -> Process State Label Result}
      (rest : ∀ state, Follows quiet stops returns labels (next state)) :
      Follows quiet stops returns (label :: labels) (.atomic label act next)
  | quiet {label : Label} {act : State -> State} {next : State -> Process State Label Result}
      (silent : quiet label) (rest : ∀ state, Follows quiet stops returns [] (next state)) :
      Follows quiet stops returns [] (.atomic label act next)

theorem Follows.trace {quiet : Label -> Prop} {stops returns : Result -> Prop} {labels : List Label}
    (follows : Follows quiet stops returns labels process) {trace : List (Label × State)}
    (execution : Executes interferes process state trace result final) :
    ∃ ending, (∀ label ∈ ending, quiet label) ∧
      (trace.map Prod.fst).IsPrefix (labels ++ ending) ∧
        (stops result ∨ trace.map Prod.fst = labels ++ ending ∧ returns result) := by
  have nothing : ∀ label ∈ ([] : List Label), quiet label := fun _ absent => absurd absent List.not_mem_nil
  induction follows generalizing state trace with
  | returned returned =>
    rcases execution.of_halt with ⟨rfl, rfl⟩
    exact ⟨[], nothing, List.nil_prefix, .inr ⟨rfl, returned⟩⟩
  | stopped stopped =>
    rcases execution.of_halt with ⟨rfl, rfl⟩
    exact ⟨[], nothing, List.nil_prefix, .inl stopped⟩
  | act rest ih =>
    rcases Executes.of_atomic (fun _ => True) (fun _ _ _ => id) True.intro execution with ⟨before, later, _, rfl, after⟩
    rcases ih before after with ⟨ending, silent, part, ends⟩
    refine ⟨ending, silent, List.cons_prefix_cons.mpr ⟨rfl, part⟩, ends.imp_right fun ends => ⟨?_, ends.2⟩⟩
    exact congrArg (List.cons _) ends.1
  | quiet silent rest ih =>
    rcases Executes.of_atomic (fun _ => True) (fun _ _ _ => id) True.intro execution with ⟨before, later, _, rfl, after⟩
    rcases ih before after with ⟨ending, silents, part, ends⟩
    refine ⟨_ :: ending, List.forall_mem_cons.mpr ⟨silent, silents⟩, List.cons_prefix_cons.mpr ⟨rfl, part⟩,
      ends.imp_right fun ends => ⟨congrArg (List.cons _) ends.1, ends.2⟩⟩

def result? : Process State Label Result -> Option Result
  | halt result => some result
  | atomic _ _ _ => none

theorem eq_halt_of_result? (halted : process.result? = some result) : process = .halt result := by
  cases process with
  | halt other => rw [Option.some.inj halted]
  | atomic label act next => cases halted

/-- Follow a schedule in which each entry is an action of the environment or,
if it is empty, the next action of the process. -/
def play (process : Process State Label Result) (state : State) :
    List (Option (State -> State)) -> List (Label × State) × Process State Label Result × State
  | [] => ([], process, state)
  | some change :: rest => process.play (change state) rest
  | none :: rest =>
    match process with
    | halt result => (halt result).play state rest
    | atomic label act next =>
      let later := (next state).play (act state) rest
      ((label, state) :: later.1, later.2)

theorem executes_play {schedule : List (Option (State -> State))}
    (allowed : ∀ change, some change ∈ schedule -> ∀ state, interferes state (change state))
    (process : Process State Label Result) (state : State)
    (halted : (process.play state schedule).2.1.result? = some result) :
    Executes interferes process state (process.play state schedule).1 result
      (process.play state schedule).2.2 := by
  induction schedule generalizing process state with
  | nil =>
    have last : process = .halt result := eq_halt_of_result? halted
    subst last
    exact .halt result state
  | cons entry rest ih =>
    have later := fun change member => allowed change (List.mem_cons_of_mem entry member)
    cases entry with
    | some change =>
      exact .interference (allowed change List.mem_cons_self state)
        (ih later process (change state) halted)
    | none =>
      cases process with
      | halt other => exact ih later (.halt other) state halted
      | atomic label act next => exact .act (ih later (next state) (act state) halted)

end Process

end Library
end FixLoop
