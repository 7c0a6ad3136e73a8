import Mathlib.Logic.Basic

namespace FixLoop
namespace Library

universe u

/-!
# Programs over an append-only journal

A program appends entries to a durable journal, reads it back, and asks its
surroundings questions.  It ends with a result or fails.  A crash may come
between any two appends and leaves what has been appended so far, so what
matters for the runs that survive crashes is every journal that a program
passes through.  `Keeps` is the weakest precondition of an assertion about all
appended transactions, each with the journal before it, and about the result,
under any answers that are admitted.  Its rules follow the constructs of a
program, and the theorems on soundness connect them with executions.
-/

inductive Program (Entry : Type) (Query : Type) (Reply : Query -> Type) (Fault : Type)
    (Result : Type u) where
  | halt (result : Result)
  | fail (fault : Fault)
  | append (entries : List Entry) (next : Program Entry Query Reply Fault Result)
  | read (next : List Entry -> Program Entry Query Reply Fault Result)
  | ask (query : Query) (next : Reply query -> Program Entry Query Reply Fault Result)

namespace Program

variable {Entry Query Fault : Type} {Reply : Query -> Type}

section Sequencing

variable {Result Other : Type u}

def bind (program : Program Entry Query Reply Fault Result)
    (next : Result -> Program Entry Query Reply Fault Other) : Program Entry Query Reply Fault Other :=
  match program with
  | halt result => next result
  | fail fault => fail fault
  | append entries rest => append entries (rest.bind next)
  | read rest => read fun journal => (rest journal).bind next
  | ask query rest => ask query fun reply => (rest reply).bind next

instance : Monad (Program Entry Query Reply Fault) where
  pure := halt
  bind := bind

end Sequencing

/-- Append one entry. -/
def write (entry : Entry) : Program Entry Query Reply Fault PUnit.{u + 1} :=
  append [entry] (halt PUnit.unit)

def journal : Program Entry Query Reply Fault (List Entry) := read halt

def question (query : Query) : Program Entry Query Reply Fault (Reply query) := ask query halt

/-- Go on with a computed value or fail. -/
def ofExcept {Result : Type u} : Except Fault Result -> Program Entry Query Reply Fault Result
  | .ok result => halt result
  | .error fault => fail fault

/-! ## Executions -/

/-- The answers to all questions of an execution, by their number. -/
def Answers (Query : Type) (Reply : Query -> Type) := Nat -> (query : Query) -> Reply query

/-- The transactions that an execution appends, and how it ends. -/
def execute {Result : Type u} (answers : Answers Query Reply) (asked : Nat) (journal : List Entry) :
    Program Entry Query Reply Fault Result -> List (List Entry) × Except Fault Result
  | halt result => ([], .ok result)
  | fail fault => ([], .error fault)
  | append entries next =>
    let later := next.execute answers asked (journal ++ entries)
    (entries :: later.1, later.2)
  | read next => (next journal).execute answers asked journal
  | ask query next => (next (answers asked query)).execute answers (asked + 1) journal

/-- The questions that an execution asks, with the replies. -/
def transcript {Result : Type u} (answers : Answers Query Reply) (asked : Nat) (journal : List Entry) :
    Program Entry Query Reply Fault Result -> List ((query : Query) × Reply query)
  | halt _ => []
  | fail _ => []
  | append entries next => next.transcript answers asked (journal ++ entries)
  | read next => (next journal).transcript answers asked journal
  | ask query next =>
    ⟨query, answers asked query⟩ :: (next (answers asked query)).transcript answers (asked + 1) journal

/-- The execution asks the question and is given the reply. -/
def Asked {Result : Type u} (program : Program Entry Query Reply Fault Result)
    (answers : Answers Query Reply) (journal : List Entry) (query : Query) (reply : Reply query) : Prop :=
  ⟨query, reply⟩ ∈ program.transcript answers 0 journal

/-- The journal after the first transactions of an execution. -/
def after {Result : Type u} (program : Program Entry Query Reply Fault Result)
    (answers : Answers Query Reply) (journal : List Entry) (transactions : Nat) : List Entry :=
  journal ++ ((program.execute answers 0 journal).1.take transactions).flatten

/-- The journal at the end of an execution. -/
def final {Result : Type u} (program : Program Entry Query Reply Fault Result)
    (answers : Answers Query Reply) (journal : List Entry) : List Entry :=
  journal ++ (program.execute answers 0 journal).1.flatten

/-- How an execution ends. -/
def outcome {Result : Type u} (program : Program Entry Query Reply Fault Result)
    (answers : Answers Query Reply) (journal : List Entry) : Except Fault Result :=
  (program.execute answers 0 journal).2

section Assertions

variable (admits : ∀ query, Reply query -> Prop) (permits : List Entry -> List Entry -> Prop)

/-- Under admitted answers, every transaction of the program is permitted
after the journal before it, and its result meets the postcondition. -/
def Keeps {Result : Type u} (journal : List Entry) (post : Result -> List Entry -> Prop) :
    Program Entry Query Reply Fault Result -> Prop
  | halt result => post result journal
  | fail _ => True
  | append entries next =>
    permits journal entries ∧ next.Keeps (journal ++ entries) post
  | read next => (next journal).Keeps journal post
  | ask query next => ∀ reply : Reply query, admits query reply -> (next reply).Keeps journal post

end Assertions

section Rules

variable {Result Other : Type u} {admits : ∀ query, Reply query -> Prop}
  {permits : List Entry -> List Entry -> Prop} {journal : List Entry}
  {post : Result -> List Entry -> Prop}

variable {program : Program Entry Query Reply Fault Result}

theorem Keeps.mono {weaker : Result -> List Entry -> Prop}
    (keeps : Keeps admits permits journal post program)
    (weakens : ∀ result journal, post result journal -> weaker result journal) :
    Keeps admits permits journal weaker program := by
  induction program generalizing journal with
  | halt result => exact weakens result journal keeps
  | fail fault => exact True.intro
  | append entries next ih => exact ⟨keeps.1, ih keeps.2⟩
  | read next ih => exact ih journal keeps
  | ask query next ih => exact fun reply admitted => ih reply (keeps reply admitted)

theorem Keeps.permitting {more : List Entry -> List Entry -> Prop}
    (keeps : Keeps admits permits journal post program)
    (weakens : ∀ journal entries, permits journal entries -> more journal entries) :
    Keeps admits more journal post program := by
  induction program generalizing journal with
  | halt result => exact keeps
  | fail fault => exact True.intro
  | append entries next ih => exact ⟨weakens _ _ keeps.1, ih keeps.2⟩
  | read next ih => exact ih journal keeps
  | ask query next ih => exact fun reply admitted => ih reply (keeps reply admitted)

/-- Two specifications hold together. -/
theorem Keeps.and {others : List Entry -> List Entry -> Prop} {other : Result -> List Entry -> Prop}
    (keeps : Keeps admits permits journal post program) (also : Keeps admits others journal other program) :
    Keeps admits (fun journal entries => permits journal entries ∧ others journal entries) journal
      (fun result journal => post result journal ∧ other result journal) program := by
  induction program generalizing journal with
  | halt result => exact ⟨keeps, also⟩
  | fail fault => exact True.intro
  | append entries next ih => exact ⟨⟨keeps.1, also.1⟩, ih keeps.2 also.2⟩
  | read next ih => exact ih journal keeps also
  | ask query next ih =>
    exact fun reply admitted => ih reply (keeps reply admitted) (also reply admitted)

/-- The rule of sequencing. -/
@[simp] theorem keeps_bind {program : Program Entry Query Reply Fault Result}
    {next : Result -> Program Entry Query Reply Fault Other} {last : Other -> List Entry -> Prop} :
    Keeps admits permits journal last (program >>= next) <->
      Keeps admits permits journal
        (fun result journal => Keeps admits permits journal last (next result)) program := by
  induction program generalizing journal with
  | halt result => exact Iff.rfl
  | fail fault => exact Iff.rfl
  | append entries rest ih => exact and_congr_right fun _ => ih
  | read rest ih => exact ih journal
  | ask query rest ih => exact forall_congr' fun reply => imp_congr_right fun _ => ih reply

/-- Sequencing with a known specification of the first part. -/
theorem Keeps.bind {next : Result -> Program Entry Query Reply Fault Other}
    {last : Other -> List Entry -> Prop} (first : Keeps admits permits journal post program)
    (rest : ∀ result journal, post result journal -> Keeps admits permits journal last (next result)) :
    Keeps admits permits journal last (program >>= next) :=
  keeps_bind.mpr (first.mono rest)

@[simp] theorem keeps_write {entry : Entry} {after : PUnit.{u + 1} -> List Entry -> Prop} :
    Keeps admits permits journal after
      (write entry : Program Entry Query Reply Fault PUnit.{u + 1}) <->
      permits journal [entry] ∧ after PUnit.unit (journal ++ [entry]) :=
  Iff.rfl

@[simp] theorem keeps_journal {after : List Entry -> List Entry -> Prop} :
    Keeps admits permits journal after
      (Program.journal : Program Entry Query Reply Fault (List Entry)) <-> after journal journal :=
  Iff.rfl

@[simp] theorem keeps_question {query : Query} {after : Reply query -> List Entry -> Prop} :
    Keeps admits permits journal after
      (question query : Program Entry Query Reply Fault (Reply query)) <->
        ∀ reply, admits query reply -> after reply journal :=
  Iff.rfl

@[simp] theorem keeps_ofExcept {value : Except Fault Result} :
    Keeps admits permits journal post
      (ofExcept value : Program Entry Query Reply Fault Result) <->
      ∀ result, value = .ok result -> post result journal := by
  cases value with
  | ok result =>
    constructor
    · intro keeps other same
      cases same
      exact keeps
    · exact fun keeps => keeps result rfl
  | error fault =>
    constructor
    · intro _ other impossible
      cases impossible
    · exact fun _ => True.intro

/-- The rule of a loop over a list: what holds with an item still to come
holds without it after its turn. -/
theorem keeps_foldlM {Item : Type} {H : List Item -> Result -> List Entry -> Prop}
    {step : Result -> Item -> Program Entry Query Reply Fault Result}
    (stepwise : ∀ item rest result journal, H (item :: rest) result journal ->
      Keeps admits permits journal (H rest) (step result item))
    {items : List Item} {start : Result} (initially : H items start journal) :
    Keeps admits permits journal (H []) (items.foldlM step start) := by
  induction items generalizing start journal with
  | nil => exact initially
  | cons item rest ih =>
    rw [List.foldlM_cons]
    exact (stepwise item rest start journal initially).bind fun result journal reached => ih reached

/-- The rule of a loop over a list that every turn leaves as it was. -/
theorem keeps_forM {Item : Type} {H : List Entry -> Prop}
    {step : Item -> Program Entry Query Reply Fault PUnit.{u + 1}} {items : List Item}
    (stepwise : ∀ item journal, item ∈ items -> H journal ->
      Keeps admits permits journal (fun _ journal => H journal) (step item))
    (initially : H journal) :
    Keeps admits permits journal (fun _ journal => H journal) (items.forM step) := by
  induction items generalizing journal with
  | nil => exact initially
  | cons item rest ih =>
    change Keeps admits permits journal _ (step item >>= fun _ => rest.forM step)
    refine (stepwise item journal List.mem_cons_self initially).bind ?_
    intro _ journal reached
    exact ih (fun item journal member => stepwise item journal (List.mem_cons_of_mem _ member))
      reached

end Rules

section Frames

variable {Result Other : Type u} {allowed : Entry -> Prop}

/-- Every entry that the program appends is allowed. -/
def Appends {Result : Type u} (allowed : Entry -> Prop) :
    Program Entry Query Reply Fault Result -> Prop
  | halt _ => True
  | fail _ => True
  | append entries next => (∀ entry ∈ entries, allowed entry) ∧ next.Appends allowed
  | read next => ∀ journal, (next journal).Appends allowed
  | ask query next => ∀ reply : Reply query, (next reply).Appends allowed

theorem appends_pure (result : Result) :
    Appends allowed (pure result : Program Entry Query Reply Fault Result) := True.intro

theorem appends_fail (fault : Fault) :
    Appends allowed (fail fault : Program Entry Query Reply Fault Result) := True.intro

theorem appends_write {entry : Entry} (permitted : allowed entry) :
    Appends allowed (write entry : Program Entry Query Reply Fault PUnit.{u + 1}) :=
  ⟨fun _ member => List.mem_singleton.mp member ▸ permitted, True.intro⟩

theorem appends_journal :
    Appends allowed (Program.journal : Program Entry Query Reply Fault (List Entry)) :=
  fun _ => True.intro

theorem appends_question (query : Query) :
    Appends allowed (question query : Program Entry Query Reply Fault (Reply query)) :=
  fun _ => True.intro

theorem appends_ofExcept (value : Except Fault Result) :
    Appends allowed (ofExcept value : Program Entry Query Reply Fault Result) := by
  cases value with
  | ok result => exact True.intro
  | error fault => exact True.intro

theorem Appends.bind {program : Program Entry Query Reply Fault Result}
    {next : Result -> Program Entry Query Reply Fault Other} (first : Appends allowed program)
    (rest : ∀ result, Appends allowed (next result)) : Appends allowed (program >>= next) := by
  induction program with
  | halt result => exact rest result
  | fail fault => exact True.intro
  | append entries program ih => exact ⟨first.1, ih first.2⟩
  | read program ih => exact fun journal => ih journal (first journal)
  | ask query program ih => exact fun reply => ih reply (first reply)

theorem appends_ite {condition : Prop} [Decidable condition]
    {first second : Program Entry Query Reply Fault Result} (left : Appends allowed first)
    (right : Appends allowed second) :
    Appends allowed (if condition then first else second) := by
  split
  · exact left
  · exact right

theorem appends_forM {Item : Type} {step : Item -> Program Entry Query Reply Fault PUnit.{u + 1}}
    {items : List Item} (stepwise : ∀ item, Appends allowed (step item)) :
    Appends allowed (items.forM step) := by
  induction items with
  | nil => exact True.intro
  | cons item rest ih =>
    change Appends allowed (step item >>= fun _ => rest.forM step)
    exact (stepwise item).bind fun _ => ih

/-- What the allowed entries do not affect holds throughout. -/
theorem Appends.keeps {admits : ∀ query, Reply query -> Prop}
    {permits : List Entry -> List Entry -> Prop} {holds : List Entry -> Prop}
    {program : Program Entry Query Reply Fault Result} {journal : List Entry}
    (appends : Appends allowed program)
    (unaffected : ∀ journal entries, (∀ entry ∈ entries, allowed entry) ->
      holds journal -> permits journal entries ∧ holds (journal ++ entries))
    (initially : holds journal) :
    Keeps admits permits journal (fun _ journal => holds journal) program := by
  induction program generalizing journal with
  | halt result => exact initially
  | fail fault => exact True.intro
  | append entries program ih =>
    rcases unaffected journal entries appends.1 initially with ⟨permitted, reached⟩
    exact ⟨permitted, ih appends.2 reached⟩
  | read program ih => exact ih journal (appends journal) initially
  | ask query program ih => exact fun reply _ => ih reply (appends reply) initially

end Frames

section Soundness

variable {Result : Type u} {admits : ∀ query, Reply query -> Prop}
  {permits : List Entry -> List Entry -> Prop} {post : Result -> List Entry -> Prop}

variable {program : Program Entry Query Reply Fault Result} {answers : Answers Query Reply}

theorem Keeps.execution {journal : List Entry} (keeps : Keeps admits permits journal post program)
    (asked : Nat)
    (admitted : ∀ query reply, ⟨query, reply⟩ ∈ program.transcript answers asked journal -> admits query reply) :
    (∀ before entries rest, (program.execute answers asked journal).1 = before ++ entries :: rest ->
        permits (journal ++ before.flatten) entries) ∧
    ∀ result, (program.execute answers asked journal).2 = .ok result ->
      post result (journal ++ (program.execute answers asked journal).1.flatten) := by
  induction program generalizing journal asked with
  | halt result =>
    refine ⟨?_, ?_⟩
    · intro before entries rest impossible
      exact absurd impossible (List.append_ne_nil_of_right_ne_nil before (List.cons_ne_nil _ _)).symm
    · intro other same
      cases same
      rw [execute, List.flatten_nil, List.append_nil]
      exact keeps
  | fail fault =>
    refine ⟨?_, ?_⟩
    · intro before entries rest impossible
      exact absurd impossible (List.append_ne_nil_of_right_ne_nil before (List.cons_ne_nil _ _)).symm
    · intro other same
      cases same
  | append entries next ih =>
    rcases ih keeps.2 asked admitted with ⟨visited, finished⟩
    refine ⟨?_, ?_⟩
    · intro before appended rest split
      cases before with
      | nil =>
        rw [execute, List.nil_append, List.cons.injEq] at split
        rw [List.flatten_nil, List.append_nil, ← split.1]
        exact keeps.1
      | cons first before =>
        rw [execute, List.cons_append, List.cons.injEq] at split
        rw [List.flatten_cons, ← List.append_assoc, ← split.1]
        exact visited before appended rest split.2
    · intro result ended
      rw [execute, List.flatten_cons, ← List.append_assoc]
      exact finished result ended
  | read next ih => exact ih journal keeps asked admitted
  | ask query next ih =>
    exact ih (answers asked query) (keeps _ (admitted query _ List.mem_cons_self)) (asked + 1)
      (fun query reply later => admitted query reply (List.mem_cons_of_mem _ later))

/-- Every transaction of an execution is permitted. -/
theorem Keeps.permitted {journal : List Entry} (keeps : Keeps admits permits journal post program)
    (admitted : ∀ query reply, program.Asked answers journal query reply -> admits query reply)
    {before rest : List (List Entry)} {entries : List Entry}
    (split : (program.execute answers 0 journal).1 = before ++ entries :: rest) :
    permits (journal ++ before.flatten) entries :=
  (keeps.execution 0 admitted).1 before entries rest split

/-- An execution that ends with a result meets the postcondition. -/
theorem Keeps.returned {journal : List Entry} (keeps : Keeps admits permits journal post program)
    (admitted : ∀ query reply, program.Asked answers journal query reply -> admits query reply)
    {result : Result} (ended : program.outcome answers journal = .ok result) :
    post result (program.final answers journal) :=
  (keeps.execution 0 admitted).2 result ended

/-- An execution without a result that meets the postcondition fails. -/
theorem Keeps.fails {journal : List Entry} (keeps : Keeps admits permits journal (fun _ _ => False) program)
    (admitted : ∀ query reply, program.Asked answers journal query reply -> admits query reply) :
    ∃ fault, program.outcome answers journal = .error fault := by
  cases ended : program.outcome answers journal with
  | ok result => exact (keeps.returned admitted ended).elim
  | error fault => exact ⟨fault, rfl⟩

/-- What holds of the entries of every permitted transaction holds of all
entries that are appended. -/
theorem Keeps.appended {journal : List Entry} (keeps : Keeps admits permits journal post program)
    (admitted : ∀ query reply, program.Asked answers journal query reply -> admits query reply)
    {allowed : Entry -> Prop}
    (allows : ∀ journal entries, permits journal entries -> ∀ entry ∈ entries, allowed entry)
    {entry : Entry} (member : entry ∈ (program.execute answers 0 journal).1.flatten) : allowed entry := by
  rcases List.mem_flatten.mp member with ⟨entries, listed, inside⟩
  rcases List.append_of_mem listed with ⟨before, rest, split⟩
  exact allows _ _ (keeps.permitted admitted split) entry inside

/-- What permitted transactions preserve holds of every journal in which a
crash can leave an execution. -/
theorem Keeps.visited {journal : List Entry} (keeps : Keeps admits permits journal post program)
    (admitted : ∀ query reply, program.Asked answers journal query reply -> admits query reply)
    {invariant : List Entry -> Prop}
    (preserved : ∀ journal entries, permits journal entries -> invariant journal -> invariant (journal ++ entries))
    (initially : invariant journal) (transactions : Nat) :
    invariant (program.after answers journal transactions) := by
  induction transactions with
  | zero =>
    rw [after, List.take_zero, List.flatten_nil, List.append_nil]
    exact initially
  | succ transactions ih =>
    rw [after] at ih ⊢
    by_cases more : transactions < (program.execute answers 0 journal).1.length
    · have split := (List.take_append_drop transactions (program.execute answers 0 journal).1).symm
      rw [List.drop_eq_getElem_cons more] at split
      have permitted := keeps.permitted admitted split
      rw [List.take_add_one, List.getElem?_eq_getElem more, Option.toList_some,
        List.flatten_append, ← List.append_assoc, List.flatten_singleton]
      exact preserved _ _ permitted ih
    · rw [List.take_of_length_le (Nat.le_succ_of_le (Nat.not_lt.mp more))]
      rw [List.take_of_length_le (Nat.not_lt.mp more)] at ih
      exact ih

/-- A whole execution is its execution after all of its transactions. -/
theorem final_eq_after (program : Program Entry Query Reply Fault Result)
    (answers : Answers Query Reply) (journal : List Entry) :
    program.final answers journal =
      program.after answers journal (program.execute answers 0 journal).1.length := by
  rw [final, after, List.take_length]

end Soundness

end Program

/-!
# Programs whose faults are caught

`caught` runs a program to its end and hands its fault on as a value, so that
a handler can go on with it.  The transactions are those of the program.  An
assertion about a caught program speaks of both of its ends, and the rule of
sequencing lets the second program speak only where the first has not failed.
-/

namespace Program

variable {Entry Query Fault : Type} {Reply : Query -> Type} {Result Other : Type u}

/-- The program with its fault as a result. -/
def caught : Program Entry Query Reply Fault Result ->
    Program Entry Query Reply Fault (Except Fault Result)
  | halt result => halt (.ok result)
  | fail fault => halt (.error fault)
  | append entries next => append entries next.caught
  | read next => read fun journal => (next journal).caught
  | ask query next => ask query fun reply => (next reply).caught

section Rules

variable {admits : ∀ query, Reply query -> Prop} {permits : List Entry -> List Entry -> Prop}
  {journal : List Entry}

variable {program : Program Entry Query Reply Fault Result}

variable {next : Result -> Program Entry Query Reply Fault Other}
  {post : Except Fault Result -> List Entry -> Prop}

/-- The rule of sequencing: a fault of the first program is the fault of both. -/
theorem keeps_caught_bind {post : Except Fault Other -> List Entry -> Prop} :
    Keeps admits permits journal post (program >>= next).caught <->
      Keeps admits permits journal (fun ended journal =>
        match ended with
        | .ok result => Keeps admits permits journal post (next result).caught
        | .error fault => post (.error fault) journal) program.caught := by
  induction program generalizing journal with
  | halt result => exact Iff.rfl
  | fail fault => exact Iff.rfl
  | append entries rest ih => exact and_congr_right fun _ => ih
  | read rest ih => exact ih journal
  | ask query rest ih => exact forall_congr' fun reply => imp_congr_right fun _ => ih reply

/-- Sequencing with a known specification of the first part. -/
theorem Keeps.bindCaught {first : Except Fault Result -> List Entry -> Prop}
    {post : Except Fault Other -> List Entry -> Prop}
    (keeps : Keeps admits permits journal first program.caught)
    (rest : ∀ result journal, first (.ok result) journal -> Keeps admits permits journal post (next result).caught)
    (failed : ∀ fault journal, first (.error fault) journal -> post (.error fault) journal) :
    Keeps admits permits journal post (program >>= next).caught := by
  refine keeps_caught_bind.mpr (keeps.mono ?_)
  intro ended journal reached
  cases ended with
  | ok result => exact rest result journal reached
  | error fault => exact failed fault journal reached

/-- A value that may be missing is caught at once. -/
theorem keeps_caught_ofExcept {value : Except Fault Result} (reached : post value journal) :
    Keeps admits permits journal post
      (ofExcept value : Program Entry Query Reply Fault Result).caught := by
  cases value with
  | ok result => exact reached
  | error fault => exact reached

/-- What is known of both ends is known of the program's own. -/
theorem Keeps.ofCaught (keeps : Keeps admits permits journal post program.caught) :
    Keeps admits permits journal (fun result journal => post (.ok result) journal) program := by
  induction program generalizing journal with
  | halt result => exact keeps
  | fail fault => exact True.intro
  | append entries next ih => exact ⟨keeps.1, ih keeps.2⟩
  | read next ih => exact ih journal keeps
  | ask query next ih => exact fun reply admitted => ih reply (keeps reply admitted)

/-- What every permitted transaction preserves holds at the end. -/
theorem Keeps.preserving {post : Result -> List Entry -> Prop} {invariant : List Entry -> Prop}
    (keeps : Keeps admits permits journal post program)
    (preserved : ∀ journal entries, permits journal entries -> invariant journal -> invariant (journal ++ entries))
    (initially : invariant journal) :
    Keeps admits permits journal (fun result journal => post result journal ∧ invariant journal)
      program := by
  induction program generalizing journal with
  | halt result => exact ⟨keeps, initially⟩
  | fail fault => exact True.intro
  | append entries next ih => exact ⟨keeps.1, ih keeps.2 (preserved _ _ keeps.1 initially)⟩
  | read next ih => exact ih journal keeps initially
  | ask query next ih => exact fun reply admitted => ih reply (keeps reply admitted) initially

theorem Appends.caught {allowed : Entry -> Prop} (appends : Appends allowed program) :
    Appends allowed program.caught := by
  induction program with
  | halt result => exact True.intro
  | fail fault => exact True.intro
  | append entries next ih => exact ⟨appends.1, ih appends.2⟩
  | read next ih => exact fun journal => ih journal (appends journal)
  | ask query next ih => exact fun reply => ih reply (appends reply)

end Rules

end Program

end Library
end FixLoop
