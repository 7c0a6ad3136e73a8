import Mathlib.Data.Finset.Disjoint
import Mathlib.Data.Finset.Lattice.Lemmas
import Mathlib.Data.Finset.SDiff

namespace FixLoop
namespace Library

universe u v

/-!
# Requests and their replies

An event replies to some requests and makes others.  A ledger keeps the
requests that are pending and all that were made: a reply answers a pending
request, and a request is made once.  A block of events that leaves nothing
pending can be taken out of a run, or replaced by events that neither reply
nor request, and the run is still one.
-/

/-- What an event replies to and what it requests. -/
structure Exchange (Id : Type u) where
  replies : List Id
  requests : List Id
deriving DecidableEq

structure Ledger (Id : Type u) where
  pending : Finset Id
  made : Finset Id

variable {Id : Type u} {Event : Type v} [DecidableEq Id]

namespace Ledger

def empty : Ledger Id := ⟨∅, ∅⟩

def Allows (ledger : Ledger Id) (exchange : Exchange Id) : Prop :=
  (exchange.replies.Nodup ∧ exchange.replies.toFinset ⊆ ledger.pending) ∧
    exchange.requests.Nodup ∧ Disjoint exchange.requests.toFinset ledger.made

instance (ledger : Ledger Id) (exchange : Exchange Id) : Decidable (ledger.Allows exchange) :=
  inferInstanceAs (Decidable (_ ∧ _))

def settle (ledger : Ledger Id) (replies : List Id) : Ledger Id :=
  { ledger with pending := ledger.pending \ replies.toFinset }

def request (ledger : Ledger Id) (requests : List Id) : Ledger Id :=
  ⟨ledger.pending ∪ requests.toFinset, ledger.made ∪ requests.toFinset⟩

variable (view : Event -> Option (Exchange Id))

/-- Enter an event, if it has a view that the ledger allows. -/
def advance (ledger : Ledger Id) (event : Event) : Option (Ledger Id) :=
  (view event).bind (fun exchange =>
    if ledger.Allows exchange then some ((ledger.settle exchange.replies).request exchange.requests)
    else none)

def run (ledger : Ledger Id) (events : List Event) : Option (Ledger Id) :=
  events.foldlM (advance view) ledger

/-- An event that neither replies nor requests. -/
def Silent (event : Event) : Prop :=
  view event = some ⟨[], []⟩

instance (event : Event) : Decidable (Silent view event) :=
  inferInstanceAs (Decidable (_ = _))

/-- The events that reply or request. -/
def spoken (events : List Event) : List Event :=
  events.filter fun event => !decide (Silent view event)

variable {view}

variable {after : Ledger Id} {event : Event} (ledger : Ledger Id) {made : Finset Id} {events : List Event}
  {blocks : List (List Event)}

theorem advance_eq {ledger : Ledger Id} (advanced : ledger.advance view event = some after) :
    ∃ exchange, view event = some exchange ∧ ledger.Allows exchange ∧
        after = (ledger.settle exchange.replies).request exchange.requests := by
  rcases Option.bind_eq_some_iff.mp advanced with ⟨exchange, viewed, entered⟩
  by_cases allowed : ledger.Allows exchange
  · rw [if_pos allowed] at entered
    exact ⟨exchange, viewed, allowed, (Option.some.inj entered).symm⟩
  · rw [if_neg allowed] at entered
    cases entered

theorem advance_allowed {ledger : Ledger Id} {exchange : Exchange Id} (viewed : view event = some exchange)
    (allowed : ledger.Allows exchange) :
    ledger.advance view event =
      some ((ledger.settle exchange.replies).request exchange.requests) := by
  rw [advance, viewed, Option.bind_some, if_pos allowed]

theorem advance_silent (silent : Silent view event) : ledger.advance view event = some ledger := by
  have allowed : ledger.Allows ⟨[], []⟩ :=
    ⟨⟨List.nodup_nil, Finset.empty_subset _⟩, List.nodup_nil, Finset.disjoint_empty_left _⟩
  rw [advance_allowed silent allowed]
  simp only [settle, request, List.toFinset_nil, Finset.sdiff_empty, Finset.union_empty]

theorem advance_made {ledger : Ledger Id} (advanced : ledger.advance view event = some after) :
    ledger.made ⊆ after.made := by
  rcases advance_eq advanced with ⟨exchange, -, -, rfl⟩
  exact Finset.subset_union_left

/-- An event that is entered is also entered where fewer requests were made. -/
theorem advance_fewer {pending fewer : Finset Id} (subset : fewer ⊆ made)
    (advanced : (Ledger.mk pending made).advance view event = some after) :
    ∃ less, less ⊆ after.made ∧
      (Ledger.mk pending fewer).advance view event = some ⟨after.pending, less⟩ := by
  rcases advance_eq advanced with ⟨exchange, viewed, ⟨replied, unique, fresh⟩, rfl⟩
  have allowed : (Ledger.mk pending fewer).Allows exchange :=
    ⟨replied, unique, Finset.disjoint_of_subset_right subset fresh⟩
  exact ⟨_, Finset.union_subset_union_left subset, advance_allowed viewed allowed⟩

/-! ## Runs -/

@[simp] theorem run_nil (ledger : Ledger Id) : ledger.run view [] = some ledger :=
  rfl

@[simp] theorem run_cons (ledger : Ledger Id) (event : Event) (rest : List Event) :
    ledger.run view (event :: rest) =
      (ledger.advance view event).bind (fun middle => middle.run view rest) := by
  rw [run, List.foldlM_cons]
  rfl

theorem run_append (first second : List Event) :
    ledger.run view (first ++ second) =
      (ledger.run view first).bind (fun middle => middle.run view second) := by
  rw [run, List.foldlM_append]
  rfl

theorem run_append_some {ledger middle : Ledger Id} {first second : List Event}
    (ran : ledger.run view first = some middle) (then_ : middle.run view second = some after) :
    ledger.run view (first ++ second) = some after := by
  rw [run_append, ran, Option.bind_some, then_]

theorem run_made {ledger : Ledger Id} (ran : ledger.run view events = some after) :
    ledger.made ⊆ after.made := by
  induction events generalizing ledger with
  | nil =>
    cases ran
    exact subset_rfl
  | cons event rest ih =>
    rw [run_cons] at ran
    rcases Option.bind_eq_some_iff.mp ran with ⟨middle, advanced, continued⟩
    exact (advance_made advanced).trans (ih continued)

theorem run_fewer {pending fewer : Finset Id} (subset : fewer ⊆ made)
    (ran : (Ledger.mk pending made).run view events = some after) :
    ∃ less, less ⊆ after.made ∧
      (Ledger.mk pending fewer).run view events = some ⟨after.pending, less⟩ := by
  induction events generalizing pending made fewer with
  | nil =>
    cases ran
    exact ⟨fewer, subset, rfl⟩
  | cons event rest ih =>
    rw [run_cons] at ran
    rcases Option.bind_eq_some_iff.mp ran with ⟨middle, advanced, continued⟩
    rcases advance_fewer subset advanced with ⟨less, smaller, entered⟩
    rcases ih smaller continued with ⟨least, smallest, finished⟩
    refine ⟨least, smallest, ?_⟩
    rw [run_cons, entered, Option.bind_some, finished]

/-- The silent events do not matter to a run. -/
theorem run_spoken (events : List Event) : ledger.run view (spoken view events) = ledger.run view events := by
  induction events generalizing ledger with
  | nil => rfl
  | cons event rest ih =>
    by_cases silent : Silent view event
    · have dropped : spoken view (event :: rest) = spoken view rest :=
        List.filter_cons_of_neg (by simp only [decide_eq_true silent, Bool.not_true, Bool.false_eq_true,
          not_false_eq_true])
      rw [dropped, ih, run_cons, advance_silent ledger silent, Option.bind_some]
    · have kept : spoken view (event :: rest) = event :: spoken view rest :=
        List.filter_cons_of_pos (by simp only [decide_eq_false silent, Bool.not_false])
      rw [kept, run_cons, run_cons]
      exact congrArg _ (funext ih)

theorem spoken_of_silent (silent : ∀ event ∈ events, Silent view event) :
    spoken view events = [] := by
  refine List.filter_eq_nil_iff.mpr fun event member => ?_
  simp only [decide_eq_true (silent event member), Bool.not_true, Bool.false_eq_true, not_false_eq_true]

theorem spoken_filter {keep : Event -> Bool}
    (silent : ∀ event ∈ events, keep event = false -> Silent view event) :
    spoken view (events.filter keep) = spoken view events := by
  rw [spoken, spoken, List.filter_filter]
  refine List.filter_congr fun event member => ?_
  cases kept : keep event with
  | true => exact Bool.and_true _
  | false =>
    rw [Bool.and_false, decide_eq_true (silent event member kept), Bool.not_true]

/-- Events may be exchanged for others with the same view. -/
theorem run_same {others : List Event}
    (same : List.Forall₂ (fun event other => view other = view event) events others) :
    ledger.run view others = ledger.run view events := by
  induction same generalizing ledger with
  | nil => rfl
  | @cons event other rest later equal _ ih =>
    have head : ledger.advance view other = ledger.advance view event := by
      rw [advance, advance, equal]
    rw [run_cons, run_cons, head]
    exact congrArg _ (funext ih)

/-- Where nothing is pending and nothing is requested, every event is silent. -/
theorem run_silent
    (quiet : ∀ event ∈ events, ∀ exchange, view event = some exchange -> exchange.requests = [])
    (ran : (Ledger.mk ∅ made).run view events = some after) :
    ∀ event ∈ events, Silent view event := by
  induction events with
  | nil => nofun
  | cons event rest ih =>
    rw [run_cons] at ran
    rcases Option.bind_eq_some_iff.mp ran with ⟨middle, advanced, continued⟩
    rcases advance_eq advanced with ⟨exchange, viewed, ⟨replied, -⟩, -⟩
    have nothing : exchange.replies = [] :=
      (List.toFinset_eq_empty_iff _).mp (Finset.subset_empty.mp replied.2)
    have silent : Silent view event := by
      rw [Silent, viewed]
      exact congrArg some (congrArg₂ Exchange.mk nothing (quiet event List.mem_cons_self exchange viewed))
    rw [advance_silent _ silent] at advanced
    cases advanced
    refine List.forall_mem_cons.mpr ⟨silent, ih (fun other member =>
      quiet other (List.mem_cons_of_mem _ member)) continued⟩

/-! ## Blocks that leave nothing pending -/

variable (view)

/-- Each of the blocks starts and ends with nothing pending. -/
def Settles : Finset Id -> List (List Event) -> Finset Id -> Prop
  | made, [], after => made = after
  | made, block :: rest, after => ∃ middle,
    (Ledger.mk ∅ made).run view block = some ⟨∅, middle⟩ ∧ Settles middle rest after

/-- A block that replies and requests as the other one does, or not at all. -/
def Thinned (block other : List Event) : Prop :=
  spoken view other = spoken view block ∨ spoken view other = []

variable {view}

theorem Settles.append_block {middle after : Finset Id} {block : List Event}
    (settled : Settles view made blocks middle)
    (ran : (Ledger.mk ∅ middle).run view block = some ⟨∅, after⟩) :
    Settles view made (blocks ++ [block]) after := by
  induction blocks generalizing made with
  | nil =>
    cases settled
    exact ⟨after, ran, rfl⟩
  | cons first rest ih =>
    rcases settled with ⟨between, begun, continued⟩
    exact ⟨between, begun, ih continued⟩

theorem Settles.run {after : Finset Id} (settled : Settles view made blocks after) :
    (Ledger.mk ∅ made).run view blocks.flatten = some ⟨∅, after⟩ := by
  induction blocks generalizing made with
  | nil =>
    cases settled
    rfl
  | cons block rest ih =>
    rcases settled with ⟨middle, begun, continued⟩
    rw [List.flatten_cons]
    exact run_append_some begun (ih continued)

theorem Thinned.refl (block : List Event) : Thinned view block block :=
  Or.inl rfl

theorem Thinned.of_silent {block other : List Event}
    (silent : ∀ event ∈ other, Silent view event) : Thinned view block other :=
  Or.inr (spoken_of_silent silent)

theorem Thinned.trans {first second third : List Event} (before : Thinned view first second)
    (after : Thinned view second third) : Thinned view first third := by
  rcases after with same | nothing
  · rw [Thinned, same]
    exact before
  · exact Or.inr nothing

theorem Settles.thinned {fewer after : Finset Id} {others : List (List Event)}
    (settled : Settles view made blocks after) (subset : fewer ⊆ made)
    (thinned : List.Forall₂ (Thinned view) blocks others) :
    ∃ less, Settles view fewer others less := by
  induction thinned generalizing made fewer with
  | nil => exact ⟨fewer, rfl⟩
  | @cons block other rest later thin _ ih =>
    rcases settled with ⟨middle, begun, continued⟩
    rcases thin with same | nothing
    · rcases run_fewer subset begun with ⟨less, smaller, ran⟩
      rcases ih continued smaller with ⟨least, settles⟩
      refine ⟨least, less, ?_, settles⟩
      rw [← run_spoken, same, run_spoken, ran]
    · rcases ih continued (subset.trans (run_made begun)) with ⟨least, settles⟩
      refine ⟨least, fewer, ?_, settles⟩
      rw [← run_spoken, nothing, run_nil]

end Ledger

end Library
end FixLoop
