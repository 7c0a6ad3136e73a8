import Mathlib.Tactic.ByContra

namespace FixLoop
namespace Library

/-!
# Transactional programs

A program reads and writes a store statement by statement and may raise.  What
it wrote before raising stays in the store until the transaction around it
rolls back.
-/

/-- A program over a store that returns a value or raises a fault. -/
abbrev Statement (Store Fault Value : Type) := EStateM Fault Store Value

namespace Statement

variable {Store Fault Value Result : Type}

/-- A read that may raise. -/
def query (read : Store -> Except Fault Value) : Statement Store Fault Value :=
  fun store =>
    match read store with
    | .ok value => .ok value store
    | .error fault => .error fault store

/-- Raise the fault unless the condition holds. -/
def require (condition : Store -> Bool) (fault : Fault) : Statement Store Fault Unit :=
  query fun store => if condition store then .ok () else .error fault

def write (change : Store -> Store) : Statement Store Fault Unit :=
  fun store => .ok () (change store)

def onlyIf (condition : Bool) (program : Statement Store Fault Unit) : Statement Store Fault Unit :=
  if condition then program else pure ()

def ifGiven (value : Option Value) (program : Value -> Statement Store Fault Unit) :
    Statement Store Fault Unit :=
  match value with
  | none => pure ()
  | some value => program value

/-- Run the body and commit what it wrote if the deferred constraints hold;
otherwise, and if it raises, roll back. -/
def transaction (deferred : Store -> Bool) (violated : Fault) (body : Statement Store Fault Value) :
    Statement Store Fault Value :=
  fun store =>
    match body store with
    | .ok value after => if deferred after then .ok value after else .error violated store
    | .error fault _ => .error fault store

variable {first : Statement Store Fault Value} {next : Value -> Statement Store Fault Result}
  {store after : Store} {value : Value} {fault : Fault} {change : Value -> Result}

theorem bind_of_ok {middle : Store} (ran : first store = .ok value middle) :
    (first >>= next) store = next value middle := by
  simp only [bind, EStateM.bind, ran]

theorem bind_of_error {middle : Store} (ran : first store = .error fault middle) :
    (first >>= next) store = .error fault middle := by
  simp only [bind, EStateM.bind, ran]

theorem map_of_ok (ran : first store = .ok value after) :
    (change <$> first) store = .ok (change value) after := by
  simp only [Functor.map, EStateM.map, ran]

theorem map_of_error (ran : first store = .error fault after) :
    (change <$> first) store = .error fault after := by
  simp only [Functor.map, EStateM.map, ran]

/-! ## What is known of a program that returned -/

theorem bind_ok {result : Result} (returned : (first >>= next) store = .ok result after) :
    ∃ value middle, first store = .ok value middle ∧ next value middle = .ok result after := by
  cases ran : first store with
  | ok value middle =>
    rw [bind_of_ok ran] at returned
    exact ⟨value, middle, rfl, returned⟩
  | error fault middle =>
    rw [bind_of_error ran] at returned
    cases returned

section Reads

variable {result : Result} (returned : (first >>= next) store = .ok result after)

include returned

/-- A first statement that only reads leaves the store to the rest. -/
theorem reads_ok {seen : Value -> Prop}
    (reads : ∀ {value middle}, first store = .ok value middle -> seen value ∧ store = middle) :
    ∃ value, seen value ∧ next value store = .ok result after := by
  rcases bind_ok returned with ⟨value, middle, ran, returned⟩
  rcases reads ran with ⟨fact, rfl⟩
  exact ⟨value, fact, returned⟩

theorem skips_ok (skips : ∀ {value middle}, first store = .ok value middle -> store = middle) :
    ∃ value, next value store = .ok result after := by
  rcases bind_ok returned with ⟨value, middle, ran, returned⟩
  cases skips ran
  exact ⟨value, returned⟩

end Reads

theorem pure_ok {result : Value}
    (returned : (pure value : Statement Store Fault Value) store = .ok result after) :
    result = value ∧ store = after := by
  cases returned
  exact ⟨rfl, rfl⟩

theorem map_ok {result : Result} (returned : (change <$> first) store = .ok result after) :
    ∃ value, first store = .ok value after ∧ change value = result := by
  cases ran : first store with
  | ok value middle =>
    rw [map_of_ok ran] at returned
    cases returned
    exact ⟨value, rfl, rfl⟩
  | error fault middle =>
    rw [map_of_error ran] at returned
    cases returned

theorem of_map_ok {result : Result} {motive : Prop} (returned : (change <$> first) store = .ok result after)
    (ran : ∀ {value}, first store = .ok value after -> motive) : motive := by
  rcases map_ok returned with ⟨value, returned, -⟩
  exact ran returned

theorem query_ok {read : Store -> Except Fault Value} (returned : query read store = .ok value after) :
    read store = .ok value ∧ store = after := by
  cases known : read store with
  | ok other =>
    simp only [query, known] at returned
    cases returned
    exact ⟨rfl, rfl⟩
  | error fault =>
    simp only [query, known] at returned
    cases returned

theorem require_ok {condition : Store -> Bool} {value : Unit}
    (returned : require condition fault store = .ok value after) :
    condition store = true ∧ store = after := by
  rcases query_ok returned with ⟨checked, same⟩
  refine ⟨?_, same⟩
  by_contra refused
  rw [if_neg refused] at checked
  cases checked

theorem write_ok {change : Store -> Store} {value : Unit}
    (returned : (write change : Statement Store Fault Unit) store = .ok value after) :
    after = change store := by
  cases returned
  rfl

theorem transaction_ok {deferred : Store -> Bool} {violated : Fault} {body : Statement Store Fault Value}
    (committed : transaction deferred violated body store = .ok value after) :
    body store = .ok value after ∧ deferred after = true := by
  cases ran : body store with
  | error fault middle =>
    simp only [transaction, ran] at committed
    cases committed
  | ok other middle =>
    simp only [transaction, ran] at committed
    by_cases kept : deferred middle = true
    · rw [if_pos kept] at committed
      cases committed
      exact ⟨rfl, kept⟩
    · rw [if_neg kept] at committed
      cases committed

/-! ## Atomicity -/

/-- A program that raises leaves the store as it was. -/
def Atomic (program : Statement Store Fault Value) : Prop :=
  ∀ store fault after, program store = .error fault after -> after = store

theorem atomic_query (read : Store -> Except Fault Value) : Atomic (query read) := by
  intro store fault after raised
  cases known : read store with
  | ok value =>
    simp only [query, known] at raised
    cases raised
  | error other =>
    simp only [query, known] at raised
    cases raised
    rfl

theorem atomic_transaction (deferred : Store -> Bool) (violated : Fault)
    (body : Statement Store Fault Value) : Atomic (transaction deferred violated body) := by
  intro store fault after raised
  cases ran : body store with
  | error other middle =>
    simp only [transaction, ran] at raised
    cases raised
    rfl
  | ok value middle =>
    simp only [transaction, ran] at raised
    by_cases kept : deferred middle = true
    · rw [if_pos kept] at raised
      cases raised
    · rw [if_neg kept] at raised
      cases raised
      rfl

/-- Checks may precede an atomic program. -/
theorem atomic_after_query {read : Store -> Except Fault Value} (later : ∀ value, Atomic (next value)) :
    Atomic (query read >>= next) := by
  intro store fault after raised
  cases ran : query read store with
  | ok value middle =>
    rw [bind_of_ok ran, <- (query_ok ran).2] at raised
    exact later value store fault after raised
  | error other middle =>
    rw [bind_of_error ran] at raised
    cases raised
    exact atomic_query read store fault after ran

theorem atomic_map {program : Statement Store Fault Value} (atomic : Atomic program) :
    Atomic (change <$> program) := by
  intro store fault after raised
  cases ran : program store with
  | ok value middle =>
    rw [map_of_ok ran] at raised
    cases raised
  | error other middle =>
    rw [map_of_error ran] at raised
    cases raised
    exact atomic store fault after ran

end Statement

end Library
end FixLoop

namespace FixLoop
namespace Library

universe u v

/-!
# Optimistic concurrency

Callers send requests one after the other; a request commits and changes the
state or is refused.  A point that, once passed, stays passed serialises the
requests that hold a ticket for it: if such a request commits only before the
point, and its commit passes it, then at most one of them ever commits.
-/

namespace Optimistic

variable {State : Type u} {Request : Type v} (commit? : State -> Request -> Option State)

/-- The requests that commit, each with the state it met. -/
def commits (state : State) : List Request -> List (State × Request)
  | [] => []
  | request :: rest =>
    match commit? state request with
    | some after => (state, request) :: commits after rest
    | none => commits state rest

variable {invariant passed : State -> Prop} {ticket : State × Request -> Bool}

/-- Behind the point, no request that holds a ticket for it commits. -/
theorem commits_passed
    (kept : ∀ state request after, invariant state -> commit? state request = some after ->
      invariant after)
    (stays : ∀ state request after, invariant state -> commit? state request = some after ->
      passed state -> passed after)
    (held : ∀ state request after, invariant state -> commit? state request = some after ->
      ticket (state, request) = true -> ¬passed state)
    (requests : List Request) (state : State) (holds : invariant state) (behind : passed state) :
    (commits commit? state requests).filter ticket = [] := by
  induction requests generalizing state with
  | nil => rfl
  | cons request rest ih =>
    cases committed : commit? state request with
    | none =>
      simp only [commits, committed]
      exact ih state holds behind
    | some after =>
      simp only [commits, committed]
      have unheld : ticket (state, request) ≠ true :=
        fun has => held state request after holds committed has behind
      rw [List.filter_cons_of_neg unheld]
      exact ih after (kept state request after holds committed)
        (stays state request after holds committed behind)

/-- At most one request that holds a ticket for the point commits. -/
theorem commits_once
    (kept : ∀ state request after, invariant state -> commit? state request = some after ->
      invariant after)
    (stays : ∀ state request after, invariant state -> commit? state request = some after ->
      passed state -> passed after)
    (held : ∀ state request after, invariant state -> commit? state request = some after ->
      ticket (state, request) = true -> ¬passed state)
    (passes : ∀ state request after, invariant state -> commit? state request = some after ->
      ticket (state, request) = true -> passed after)
    (requests : List Request) (state : State) (holds : invariant state) :
    ((commits commit? state requests).filter ticket).length ≤ 1 := by
  induction requests generalizing state with
  | nil => exact Nat.zero_le 1
  | cons request rest ih =>
    cases committed : commit? state request with
    | none =>
      simp only [commits, committed]
      exact ih state holds
    | some after =>
      simp only [commits, committed]
      have next := kept state request after holds committed
      by_cases has : ticket (state, request) = true
      · rw [List.filter_cons_of_pos has, commits_passed commit? kept stays held rest after next
          (passes state request after holds committed has)]
        exact Nat.le_refl 1
      · rw [List.filter_cons_of_neg has]
        exact ih after next

end Optimistic

end Library
end FixLoop
