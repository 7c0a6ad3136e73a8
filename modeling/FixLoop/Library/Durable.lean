import Mathlib.Logic.Basic

namespace FixLoop
namespace Library

/-!
# Programs whose writes may fail or be cut off

A program reads and writes a store.  A write takes effect or not, and after
either the program goes on, fails, or is cut off by a crash.  Nothing handles a
crash, and the store is left as the crash found it.  Triples say what a program
does from the states that meet a condition, whichever way it ends.
-/

namespace Durable

/-- What becomes of a write; a late fault or crash comes after its effect. -/
inductive Fate where
  | done
  | failed
  | failedLate
  | crashed
  | crashedLate
deriving DecidableEq

/-- The write took effect. -/
def Fate.takes : Fate -> Bool
  | .done => true
  | .failedLate => true
  | .crashedLate => true
  | _ => false

inductive Ending (Fault Value : Type) where
  | returned (value : Value)
  | raised (fault : Fault)
  | crashed

/-- A program ends in some way and leaves a store. -/
def Program (Store Fault Value : Type) := Store -> Ending Fault Value × Store

section

variable {Store Fault Value Result : Type}

instance : Monad (Program Store Fault) where
  pure value := fun store => (.returned value, store)
  bind first next := fun store =>
    match first store with
    | (.returned value, middle) => next value middle
    | (.raised fault, middle) => (.raised fault, middle)
    | (.crashed, middle) => (.crashed, middle)

def raise (fault : Fault) : Program Store Fault Value := fun store => (.raised fault, store)

def look (read : Store -> Value) : Program Store Fault Value := fun store => (.returned (read store), store)

/-- A write, and what it raises where it fails. -/
def write (lost : Fault) (fate : Fate) (update : Store -> Store) : Program Store Fault Unit := fun store =>
  match fate with
  | .done => (.returned (), update store)
  | .failed => (.raised lost, store)
  | .failedLate => (.raised lost, update store)
  | .crashed => (.crashed, store)
  | .crashedLate => (.crashed, update store)

/-- `try: body` with `except: handler`; a crash is not an exception. -/
def handling (body : Program Store Fault Value) (handler : Fault -> Program Store Fault Value) :
    Program Store Fault Value := fun store =>
  match body store with
  | (.returned value, after) => (.returned value, after)
  | (.raised fault, after) => handler fault after
  | (.crashed, after) => (.crashed, after)

/-! ## Triples -/

/-- From the condition the program returns as stated, or stops as stated. -/
def Triple (pre : Store -> Prop) (program : Program Store Fault Value) (post : Value -> Store -> Prop)
    (stopped : Store -> Prop) : Prop :=
  ∀ store, pre store ->
    match program store with
    | (.returned value, after) => post value after
    | (.raised _, after) => stopped after
    | (.crashed, after) => stopped after

variable {pre : Store -> Prop} {post : Value -> Store -> Prop} {stopped : Store -> Prop}
  {program : Program Store Fault Value}

theorem Triple.mono {weaker : Store -> Prop} {post' : Value -> Store -> Prop} {stopped' : Store -> Prop}
    (holds : Triple pre program post stopped) (before : ∀ store, weaker store -> pre store)
    (after : ∀ value store, post value store -> post' value store)
    (stopping : ∀ store, stopped store -> stopped' store) : Triple weaker program post' stopped' := by
  intro store initially
  have outcome := holds store (before store initially)
  rcases result : program store with ⟨value | fault | _, last⟩
  · rw [result] at outcome
    exact after value last outcome
  · rw [result] at outcome
    exact stopping last outcome
  · rw [result] at outcome
    exact stopping last outcome

theorem Triple.pure (value : Value) (post : Value -> Store -> Prop) (stopped : Store -> Prop) :
    Triple (post value) (Pure.pure value : Program Store Fault Value) post stopped :=
  fun _ initially => initially

theorem Triple.raise (fault : Fault) (post : Value -> Store -> Prop) (stopped : Store -> Prop) :
    Triple stopped (Durable.raise fault : Program Store Fault Value) post stopped :=
  fun _ initially => initially

variable {next : Value -> Program Store Fault Result}

theorem Triple.bind {final : Result -> Store -> Prop} (first : Triple pre program post stopped)
    (second : ∀ value, Triple (post value) (next value) final stopped) :
    Triple pre (program >>= next) final stopped := by
  intro store initially
  have outcome := first store initially
  rcases result : program store with ⟨value | fault | _, middle⟩
  · rw [result] at outcome
    have whole : (program >>= next) store = next value middle := by
      simp only [Bind.bind, result]
    rw [whole]
    exact second value middle outcome
  · rw [result] at outcome
    have whole : (program >>= next) store = (.raised fault, middle) := by
      simp only [Bind.bind, result]
    rw [whole]
    exact outcome
  · rw [result] at outcome
    have whole : (program >>= next) store = (.crashed, middle) := by
      simp only [Bind.bind, result]
    rw [whole]
    exact outcome

/-- A write leaves the store as it is or updates it. -/
theorem Triple.write {lost : Fault} {fate : Fate} {update : Store -> Store} {post : Unit -> Store -> Prop}
    (works : fate = .done -> ∀ store, pre store -> post () (update store))
    (kept : fate.takes = false -> ∀ store, pre store -> stopped store)
    (late : fate ≠ .done -> fate.takes = true -> ∀ store, pre store -> stopped (update store)) :
    Triple pre (Durable.write lost fate update) post stopped := by
  intro store initially
  cases fate with
  | done => exact works rfl store initially
  | failed | crashed => exact kept rfl store initially
  | failedLate | crashedLate => exact late (fun same => by cases same) rfl store initially

theorem Triple.handling {handler : Fault -> Program Store Fault Value} (body : Triple pre program post stopped)
    (handled : ∀ fault, Triple stopped (handler fault) post stopped) :
    Triple pre (Durable.handling program handler) post stopped := by
  intro store initially
  have outcome := body store initially
  rcases result : program store with ⟨value | fault | _, after⟩
  · rw [result] at outcome
    simp only [Durable.handling, result]
    exact outcome
  · rw [result] at outcome
    have last := handled fault after outcome
    simp only [Durable.handling, result]
    exact last
  · rw [result] at outcome
    simp only [Durable.handling, result]
    exact outcome

/-- The store at the end, whichever way the program ends. -/
theorem Triple.leaves {holds : Store -> Prop} (triple : Triple pre program (fun _ => holds) holds) {store : Store}
    (initially : pre store) : holds (program store).2 := by
  have outcome := triple store initially
  rcases result : program store with ⟨value | fault | _, after⟩
  · rw [result] at outcome
    exact outcome
  · rw [result] at outcome
    exact outcome
  · rw [result] at outcome
    exact outcome

/-- A program that only reads leaves the store as it is. -/
def ReadOnly (program : Program Store Fault Value) : Prop := ∀ store, (program store).2 = store

/-- What is known after a program that only reads is that it returned. -/
theorem Triple.reads (reads : ReadOnly program) (holds : Store -> Prop) :
    Triple holds program (fun value store => holds store ∧ program store = (.returned value, store)) holds := by
  intro store initially
  have same := reads store
  rcases result : program store with ⟨value | fault | _, after⟩
  · rw [result] at same
    cases same
    exact ⟨initially, result⟩
  · rw [result] at same
    cases same
    exact initially
  · rw [result] at same
    cases same
    exact initially

theorem ReadOnly.pure (value : Value) : ReadOnly (Pure.pure value : Program Store Fault Value) := fun _ => rfl

theorem ReadOnly.raise (fault : Fault) : ReadOnly (Durable.raise fault : Program Store Fault Value) := fun _ => rfl

theorem ReadOnly.look (read : Store -> Value) : ReadOnly (Durable.look read : Program Store Fault Value) := fun _ => rfl

theorem ReadOnly.bind (first : ReadOnly program) (second : ∀ value, ReadOnly (next value)) :
    ReadOnly (program >>= next) := by
  intro store
  have same := first store
  rcases result : program store with ⟨value | fault | _, middle⟩
  · rw [result] at same
    have whole : (program >>= next) store = next value middle := by
      simp only [Bind.bind, result]
    rw [whole, second value middle]
    exact same
  · rw [result] at same
    have whole : (program >>= next) store = (.raised fault, middle) := by
      simp only [Bind.bind, result]
    rw [whole]
    exact same
  · rw [result] at same
    have whole : (program >>= next) store = (.crashed, middle) := by
      simp only [Bind.bind, result]
    rw [whole]
    exact same

theorem bind_returned {store after : Store} {result : Result}
    (returned : (program >>= next) store = (.returned result, after)) :
    ∃ value middle,
      program store = (.returned value, middle) ∧ next value middle = (.returned result, after) := by
  rcases ran : program store with ⟨value | fault | _, middle⟩
  · refine ⟨value, middle, rfl, ?_⟩
    simp only [Bind.bind, ran] at returned
    exact returned
  · simp only [Bind.bind, ran] at returned
    cases returned
  · simp only [Bind.bind, ran] at returned
    cases returned

theorem bind_of_returned {store middle : Store} {value : Value}
    (ran : program store = (.returned value, middle)) : (program >>= next) store = next value middle := by
  simp only [Bind.bind, ran]

end

end Durable

end Library
end FixLoop
