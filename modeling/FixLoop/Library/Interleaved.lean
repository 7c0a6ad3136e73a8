import Mathlib.Logic.Basic

namespace FixLoop
namespace Library

/-!
# Programs between the steps of other processes

A program makes one system call after another.  Before each call other
processes take any number of steps, and the system may refuse the call.  Both
come from a schedule, so a statement about every schedule covers every
interleaving and every point of failure.  Triples say what a program does from
the states that meet a condition, whether it returns or fails.
-/

namespace Interleaved

/-- What happens around one system call. -/
structure Turn (Event : Type) where
  events : List Event
  refused : Bool

/-- The steps of other processes, and what a refused call raises. -/
structure Surroundings (State Event Fault : Type) where
  act : Event -> State -> State
  refusal : Fault

/-- A program takes turns from a schedule and returns or fails. -/
def Process (State Event Fault Value : Type) :=
  State × List (Turn Event) -> Except Fault Value × (State × List (Turn Event))

namespace Process

variable {State Event Fault : Type}

instance : Monad (Process State Event Fault) where
  pure value := fun start => (.ok value, start)
  bind first next := fun start =>
    match first start with
    | (.ok value, middle) => next value middle
    | (.error fault, middle) => (.error fault, middle)

def raise {Value : Type} (fault : Fault) : Process State Event Fault Value :=
  fun start => (.error fault, start)

end Process

section

variable {State Event Fault : Type} {Value Result : Type}

/-- The state in which a call is made. -/
def met (around : Surroundings State Event Fault) (events : List Event) (state : State) : State :=
  events.foldl (fun state event => around.act event state) state

/-- One system call.  A schedule that has run out leaves the program alone. -/
def call (around : Surroundings State Event Fault) (effect : State -> Except Fault (Value × State))
    (refused : State -> State) : Process State Event Fault Value := fun start =>
  match start with
  | (state, []) =>
    match effect state with
    | .ok (value, after) => (.ok value, (after, []))
    | .error fault => (.error fault, (state, []))
  | (state, turn :: turns) =>
    if turn.refused then
      (.error around.refusal, (refused (met around turn.events state), turns))
    else
      match effect (met around turn.events state) with
      | .ok (value, after) => (.ok value, (after, turns))
      | .error fault => (.error fault, (met around turn.events state, turns))

/-- A step of the program itself, which takes no turn. -/
def change (update : State -> State) : Process State Event Fault Unit := fun start =>
  (.ok (), (update start.1, start.2))

/-- A look at the state of the program itself. -/
def peek (read : State -> Value) : Process State Event Fault Value := fun start => (.ok (read start.1), start)

/-- `try: body` with `finally: cleanup`. -/
def ensuring (body : Process State Event Fault Value) (cleanup : Process State Event Fault Unit) :
    Process State Event Fault Value := fun start =>
  match body start with
  | (result, after) =>
    match cleanup after with
    | (.ok (), last) => (result, last)
    | (.error fault, last) => (.error fault, last)

/-- `try: body` with `except: handler`, where the handler may pass on a fault. -/
def handling (body : Process State Event Fault Value)
    (handler : Fault -> Process State Event Fault Value) : Process State Event Fault Value := fun start =>
  match body start with
  | (.ok value, after) => (.ok value, after)
  | (.error fault, after) => handler fault after

/-! ## Triples -/

def Triple (pre : State -> Prop) (program : Process State Event Fault Value)
    (post : Value -> State -> Prop) (failed : Fault -> State -> Prop) : Prop :=
  ∀ start, pre start.1 ->
    match program start with
    | (.ok value, after) => post value after.1
    | (.error fault, after) => failed fault after.1

variable {pre weaker : State -> Prop} {post : Value -> State -> Prop} {failed : Fault -> State -> Prop}
  {program : Process State Event Fault Value}

variable {post' : Value -> State -> Prop} {failed' broken : Fault -> State -> Prop}
  {next : Value -> Process State Event Fault Result} {final : Result -> State -> Prop}
  {update : State -> State} {cleanup : Process State Event Fault Unit}
  {handler : Fault -> Process State Event Fault Value}

theorem Triple.mono (holds : Triple pre program post failed)
    (before : ∀ state, weaker state -> pre state)
    (after : ∀ value state, post value state -> post' value state)
    (failing : ∀ fault state, failed fault state -> failed' fault state) :
    Triple weaker program post' failed' := by
  intro start initially
  have outcome := holds start (before _ initially)
  rcases result : program start with ⟨value | value, last⟩
  · rw [result] at outcome
    exact failing _ _ outcome
  · rw [result] at outcome
    exact after _ _ outcome

theorem Triple.pure (value : Value) (post : Value -> State -> Prop) (failed : Fault -> State -> Prop) :
    Triple (post value) (Pure.pure value : Process State Event Fault Value) post failed :=
  fun _ initially => initially

theorem Triple.raise (fault : Fault) (post : Value -> State -> Prop) (failed : Fault -> State -> Prop) :
    Triple (failed fault) (Process.raise fault : Process State Event Fault Value) post failed :=
  fun _ initially => initially

theorem Triple.bind (first : Triple pre program post failed)
    (second : ∀ value, Triple (post value) (next value) final failed) :
    Triple pre (program >>= next) final failed := by
  intro start initially
  have outcome := first start initially
  rcases result : program start with ⟨fault | value, middle⟩
  · rw [result] at outcome
    have whole : (program >>= next) start = (.error fault, middle) := by
      simp only [Bind.bind, result]
    rw [whole]
    exact outcome
  · rw [result] at outcome
    have whole : (program >>= next) start = next value middle := by
      simp only [Bind.bind, result]
    rw [whole]
    exact second value middle outcome

theorem Triple.map {transform : Value -> Result} (first : Triple pre program post failed)
    (second : ∀ value state, post value state -> final (transform value) state) :
    Triple pre (program >>= fun value => Pure.pure (transform value)) final failed :=
  first.bind (fun value => (Triple.pure (transform value) final failed).mono (second value)
    (fun _ _ holds => holds) fun _ _ holds => holds)

/-- A program has one outcome, so what two triples say of it holds together. -/
theorem Triple.both {other : State -> Prop} (first : Triple pre program post failed)
    (second : Triple other program post' failed') :
    Triple (fun state => pre state ∧ other state) program
      (fun value state => post value state ∧ post' value state)
      (fun fault state => failed fault state ∧ failed' fault state) := by
  intro start initially
  have one := first start initially.1
  have two := second start initially.2
  rcases result : program start with ⟨fault | value, after⟩
  · rw [result] at one two
    exact ⟨one, two⟩
  · rw [result] at one two
    exact ⟨one, two⟩

theorem Triple.change {post : Unit -> State -> Prop}
    (updated : ∀ state, pre state -> post () (update state)) :
    Triple pre (Interleaved.change update : Process State Event Fault Unit) post failed :=
  fun start initially => updated start.1 initially

theorem Triple.peek {read : State -> Value} {post : Value -> State -> Prop}
    (known : ∀ state, pre state -> post (read state) state) :
    Triple pre (Interleaved.peek read : Process State Event Fault Value) post failed :=
  fun start initially => known start.1 initially

/-- What a body and then a cleanup establish, however the body ends. -/
theorem Triple.ensuring {middle : Value -> State -> Prop} (body : Triple pre program middle broken)
    (afterValue : ∀ value, Triple (middle value) cleanup (fun _ => post value) failed)
    (afterFault : ∀ fault, Triple (broken fault) cleanup (fun _ => failed fault) failed) :
    Triple pre (Interleaved.ensuring program cleanup) post failed := by
  intro start initially
  have outcome := body start initially
  rcases result : program start with ⟨fault | value, between⟩
  · rw [result] at outcome
    have last := afterFault fault between outcome
    rcases cleaned : cleanup between with ⟨other | ⟨⟩, final⟩
    · rw [cleaned] at last
      simp only [Interleaved.ensuring, result, cleaned]
      exact last
    · rw [cleaned] at last
      simp only [Interleaved.ensuring, result, cleaned]
      exact last
  · rw [result] at outcome
    have last := afterValue value between outcome
    rcases cleaned : cleanup between with ⟨other | ⟨⟩, final⟩
    · rw [cleaned] at last
      simp only [Interleaved.ensuring, result, cleaned]
      exact last
    · rw [cleaned] at last
      simp only [Interleaved.ensuring, result, cleaned]
      exact last

theorem Triple.handling (body : Triple pre program post broken)
    (handled : ∀ fault, Triple (broken fault) (handler fault) post failed) :
    Triple pre (Interleaved.handling program handler) post failed := by
  intro start initially
  have outcome := body start initially
  rcases result : program start with ⟨fault | value, between⟩
  · rw [result] at outcome
    have last := handled fault between outcome
    simp only [Interleaved.handling, result]
    exact last
  · rw [result] at outcome
    simp only [Interleaved.handling, result]
    exact outcome

variable {around : Surroundings State Event Fault}

/-- What other processes cannot break. -/
def Stable (around : Surroundings State Event Fault) (holds : State -> Prop) : Prop :=
  ∀ event state, holds state -> holds (around.act event state)

theorem Stable.met {holds : State -> Prop} (stable : Stable around holds) (events : List Event)
    (state : State) (initially : holds state) : holds (met around events state) := by
  induction events generalizing state with
  | nil => exact initially
  | cons event rest ih => exact ih _ (stable event state initially)

/-- A call from a condition that other processes keep. -/
theorem Triple.call {effect : State -> Except Fault (Value × State)} {refused : State -> State}
    (stable : Stable around pre)
    (works : ∀ state value after, pre state -> effect state = .ok (value, after) -> post value after)
    (fails : ∀ state fault, pre state -> effect state = .error fault -> failed fault state)
    (refuses : ∀ state, pre state -> failed around.refusal (refused state)) :
    Triple pre (Interleaved.call around effect refused) post failed := by
  rintro ⟨state, turns⟩ initially
  cases turns with
  | nil =>
    rcases result : effect state with fault | ⟨value, after⟩
    · simp only [Interleaved.call, result]
      exact fails state fault initially result
    · simp only [Interleaved.call, result]
      exact works state value after initially result
  | cons turn turns =>
    have here := stable.met turn.events state initially
    by_cases refusal : turn.refused = true
    · simp only [Interleaved.call, refusal, if_true]
      exact refuses _ here
    · rcases result : effect (met around turn.events state) with fault | ⟨value, after⟩
      · simp only [Interleaved.call, refusal, result]
        exact fails _ fault here result
      · simp only [Interleaved.call, refusal, result]
        exact works _ value after here result

def forEach {Item : Type} (body : Item -> Process State Event Fault Unit) :
    List Item -> Process State Event Fault Unit
  | [] => Pure.pure ()
  | item :: rest => body item >>= fun _ => forEach body rest

/-- An invariant that names the items still to come. -/
theorem Triple.forEach {Item : Type} {body : Item -> Process State Event Fault Unit}
    (invariant : List Item -> State -> Prop) (items : List Item)
    (each : ∀ item rest, item ∈ items -> Triple (invariant (item :: rest)) (body item)
      (fun _ => invariant rest) failed) :
    Triple (invariant items) (Interleaved.forEach body items) (fun _ => invariant []) failed := by
  induction items with
  | nil => exact Triple.pure () (fun _ => invariant []) failed
  | cons item rest ih =>
    refine (each item rest List.mem_cons_self).bind fun _ => ?_
    exact ih fun other later member => each other later (List.mem_cons_of_mem _ member)

/-! ## Programs all of whose calls are moves -/

/-- Every call of the program changes the state by moves, so the program keeps
what the moves and the other processes keep, wherever it stops. -/
def Moves (around : Surroundings State Event Fault) (move : State -> State -> Prop)
    (program : Process State Event Fault Value) : Prop :=
  ∀ holds : State -> Prop, Stable around holds ->
    (∀ state after, holds state -> move state after -> holds after) ->
    Triple holds program (fun _ => holds) fun _ => holds

variable {move : State -> State -> Prop}

theorem Moves.pure (value : Value) :
    Moves around move (Pure.pure value : Process State Event Fault Value) :=
  fun holds _ _ => Triple.pure value (fun _ => holds) fun _ => holds

theorem Moves.raise (fault : Fault) :
    Moves around move (Process.raise fault : Process State Event Fault Value) :=
  fun holds _ _ => Triple.raise fault (fun _ => holds) fun _ => holds

theorem Moves.bind (first : Moves around move program)
    (second : ∀ value, Moves around move (next value)) : Moves around move (program >>= next) :=
  fun holds stable closed =>
    (first holds stable closed).bind fun value => second value holds stable closed

theorem Moves.handling (body : Moves around move program)
    (handled : ∀ fault, Moves around move (handler fault)) :
    Moves around move (Interleaved.handling program handler) :=
  fun holds stable closed =>
    (body holds stable closed).handling fun fault => handled fault holds stable closed

theorem Moves.ensuring (body : Moves around move program) (last : Moves around move cleanup) :
    Moves around move (Interleaved.ensuring program cleanup) :=
  fun holds stable closed =>
    (body holds stable closed).ensuring (fun _ => last holds stable closed)
      (fun _ => last holds stable closed)

theorem Moves.call {effect : State -> Except Fault (Value × State)} {refused : State -> State}
    (works : ∀ state value after, effect state = .ok (value, after) -> move state after)
    (refuses : ∀ state, move state (refused state)) :
    Moves around move (Interleaved.call around effect refused) :=
  fun _ stable closed =>
    Triple.call stable (fun state _ after initially result => closed state after initially
        (works state _ after result))
      (fun _ _ initially _ => initially) fun state initially => closed _ _ initially (refuses state)

theorem Moves.peek (read : State -> Value) :
    Moves around move (Interleaved.peek read : Process State Event Fault Value) :=
  fun _ _ _ => Triple.peek fun _ holds => holds

theorem Moves.change (moves : ∀ state, move state (update state)) :
    Moves around move (Interleaved.change update : Process State Event Fault Unit) :=
  fun _ _ closed => Triple.change fun state holds => closed state _ holds (moves state)

theorem Moves.mono {wider : State -> State -> Prop} (moves : Moves around move program)
    (within : ∀ state after, move state after -> wider state after) :
    Moves around wider program :=
  fun holds stable closed =>
    moves holds stable (fun state after initially moved => closed state after initially
      (within state after moved))

end

end Interleaved

end Library
end FixLoop
