import Mathlib.Data.List.Perm.Basic
import FixLoop.Library.Machine

namespace FixLoop
namespace Cancellation

open Library

universe u

/-!
# The callbacks of a cancellation token

The locked sections are atomic, and callbacks run between them.  Calls that are
under way are a bag of frames, which advance in any order: so are the calls of
any number of threads, and those that a callback makes.
-/

section Token

variable {Callback : Type u} [DecidableEq Callback]

/-- A call under way. -/
inductive Frame (Callback : Type u) where
  /-- A drain with the callbacks that it has not started. -/
  | draining (rest : List Callback)
  /-- `add_callback` that is to run the callback now. -/
  | invoking (callback : Callback)
  /-- `add_callback` that is about to return. -/
  | returning (callback : Callback)
  /-- `add_callback` whose callback has raised. -/
  | failing (callback : Callback)
deriving DecidableEq

/-- How a callback ends.  A drain goes on after an `Exception` only. -/
inductive Outcome where
  | returns
  | raises
  | aborts
deriving DecidableEq

inductive Event (Callback : Type u) where
  | request
  | cancel
  | runPendingCallbacks
  | addCallback (callback : Callback)
  | unsubscribe (callback : Callback)
  | advance (index : Nat) (outcome : Outcome)

/-- The token with the calls under way and, behind them, what has happened:
the callbacks that were started, those that were registered by a call that has
returned, those for which `unsubscribe` was called, the calls of `cancel` and
`run_pending_callbacks` that have completed, the lists that drains have taken,
each with whether `run_pending_callbacks` did, and whether one of them was gone
through to its end. -/
structure CancellationToken (Callback : Type u) where
  cancelled : Bool := false
  callbacksRun : Bool := false
  callbacks : List Callback := []
  frames : List (Frame Callback) := []
  started : List Callback := []
  registered : List Callback := []
  unsubscribed : List Callback := []
  completed : Nat := 0
  taken : List (Bool × List Callback) := []
  drained : Bool := false

namespace CancellationToken

/-- The token after a drain has taken the list. -/
def take (token : CancellationToken Callback) (cancelled pending : Bool) :
    CancellationToken Callback :=
  { token with
    cancelled := cancelled
    callbacksRun := true
    frames := .draining token.callbacks :: token.frames
    taken := token.taken ++ [(pending, token.callbacks)] }

/-- The step of a frame, which is not among the others any more. -/
def proceed (token : CancellationToken Callback) (outcome : Outcome) (others : List (Frame Callback)) :
    Frame Callback -> CancellationToken Callback
  | .draining [] => { token with frames := others, completed := token.completed + 1, drained := true }
  | .draining (callback :: rest) =>
    { token with
      frames := if outcome = .aborts then others else .draining rest :: others
      started := callback :: token.started }
  | .invoking callback =>
    { token with
      frames := (if outcome = .returns then .returning callback else .failing callback) :: others
      started := callback :: token.started }
  | .returning callback => { token with frames := others, registered := callback :: token.registered }
  | .failing callback => { token with frames := others, callbacks := token.callbacks.erase callback }

def step (token : CancellationToken Callback) : Event Callback -> CancellationToken Callback
  | .request => { token with cancelled := true }
  | .cancel => token.take true false
  | .runPendingCallbacks =>
    if token.callbacksRun || !token.cancelled then { token with completed := token.completed + 1 }
    else token.take token.cancelled true
  | .addCallback callback =>
    { token with
      callbacks := token.callbacks ++ [callback]
      frames := (if token.cancelled && token.callbacksRun then .invoking callback else .returning callback) ::
        token.frames }
  | .unsubscribe callback =>
    { token with
      callbacks := token.callbacks.erase callback
      unsubscribed := callback :: token.unsubscribed }
  | .advance index outcome =>
    match token.frames[index]? with
    | none => token
    | some frame => token.proceed outcome (token.frames.eraseIdx index) frame

end CancellationToken

def tokenMachine : Machine (CancellationToken Callback) (Event Callback) := ⟨CancellationToken.step⟩

open CancellationToken

/-- The registrations of a callback that are under way. -/
def Frame.registers (callback : Callback) (frames : List (Frame Callback)) : Nat :=
  frames.count (.invoking callback) + frames.count (.returning callback) + frames.count (.failing callback)

/-- A drain that has come this far, if not for calls of `add_callback` that are
still to run the callback, has started it. -/
def Served (token : CancellationToken Callback) (rest : List Callback) : Prop :=
  ∀ callback, callback ∈ token.started ∨ callback ∈ rest ∨
    token.callbacks.count callback ≤ token.frames.count (.invoking callback)

structure Sound (token : CancellationToken Callback) : Prop where
  kept : ∀ callback, token.registered.count callback + Frame.registers callback token.frames ≤
    token.callbacks.count callback + token.unsubscribed.count callback
  latched : (token.drained = true ∨ ∃ rest, .draining rest ∈ token.frames) ->
    token.cancelled = true ∧ token.callbacksRun = true
  draining : ∀ rest, .draining rest ∈ token.frames -> Served token rest
  drained : token.drained = true -> Served token []
  untaken : token.callbacksRun = false -> token.taken = []
  first : ∀ before list after, token.taken = before ++ (true, list) :: after -> before = []

variable {token : CancellationToken Callback}

variable {next : CancellationToken Callback} {frame : Frame Callback}

theorem Served.mono {rest : List Callback} (served : Served token rest)
    (started : token.started.Subset next.started)
    (fewer : ∀ callback, token.callbacks.count callback ≤ token.frames.count (.invoking callback) -> callback ∈ next.started ∨ next.callbacks.count callback ≤ next.frames.count (.invoking callback)) :
    Served next rest := by
  intro callback
  rcases served callback with known | waits | few
  · exact .inl (started known)
  · exact .inr (.inl waits)
  · exact (fewer callback few).imp_right .inr

/-- A step that leaves the drains and what they took. -/
theorem Sound.keep (sound : Sound token) (cancelled : token.cancelled = true -> next.cancelled = true)
    (run : next.callbacksRun = token.callbacksRun) (taken : next.taken = token.taken)
    (drained : next.drained = token.drained)
    (drains : ∀ rest, .draining rest ∈ next.frames -> .draining rest ∈ token.frames)
    (kept : ∀ callback, next.registered.count callback + Frame.registers callback next.frames ≤ next.callbacks.count callback + next.unsubscribed.count callback)
    (serves : ∀ rest, token.callbacksRun = true -> token.cancelled = true -> Served token rest -> Served next rest) :
    Sound next := by
  have earlier : (next.drained = true ∨ ∃ rest, .draining rest ∈ next.frames) ->
      token.cancelled = true ∧ token.callbacksRun = true := by
    rintro (over_ | ⟨rest, member⟩)
    · exact sound.latched (.inl (drained ▸ over_))
    · exact sound.latched (.inr ⟨rest, drains rest member⟩)
  refine ⟨kept, ?_, ?_, ?_, ?_, ?_⟩
  · intro under
    rcases earlier under with ⟨requested, ran⟩
    exact ⟨cancelled requested, run.trans ran⟩
  · intro rest member
    rcases earlier (.inr ⟨rest, member⟩) with ⟨requested, ran⟩
    exact serves rest ran requested (sound.draining rest (drains rest member))
  · intro over_
    rcases earlier (.inl over_) with ⟨requested, ran⟩
    exact serves [] ran requested (sound.drained (drained ▸ over_))
  · intro unrun
    rw [taken, sound.untaken (run ▸ unrun)]
  · rw [taken]
    exact sound.first

theorem Sound.take (sound : Sound token) {cancelled pending : Bool} (requested : cancelled = true)
    (first : pending = true -> token.callbacksRun = false) : Sound (token.take cancelled pending) := by
  have serves : ∀ rest, Served token rest -> Served (token.take cancelled pending) rest := by
    intro rest served
    refine served.mono (List.Subset.refl _) fun callback few => .inr ?_
    rw [CancellationToken.take, List.count_cons_of_ne (by nofun)]
    exact few
  refine ⟨fun callback => ?_, fun _ => ⟨requested, rfl⟩, ?_, fun over_ => serves [] (sound.drained over_), nofun, ?_⟩
  · have kept := sound.kept callback
    rw [CancellationToken.take, Frame.registers, List.count_cons_of_ne (by nofun), List.count_cons_of_ne (by nofun),
      List.count_cons_of_ne (by nofun)]
    exact kept
  · intro rest member
    rcases List.mem_cons.mp member with same | listed
    · cases same
      intro callback
      by_cases known : callback ∈ token.callbacks
      · exact .inr (.inl known)
      · exact .inr (.inr (Nat.le_trans (Nat.le_of_eq (List.count_eq_zero_of_not_mem known)) (Nat.zero_le _)))
    · exact serves rest (sound.draining rest listed)
  · intro before list after split
    rcases List.append_eq_append_iff.mp split with ⟨more, rfl, last⟩ | ⟨more, earlier, last⟩
    · cases more with
      | nil =>
        rw [List.append_nil]
        cases last
        exact sound.untaken (first rfl)
      | cons _ _ =>
        exact absurd (List.cons.inj last).2.symm
          (List.append_ne_nil_of_right_ne_nil _ (List.cons_ne_nil _ _))
    · cases more with
      | nil =>
        rw [List.append_nil] at earlier
        cases last
        rw [<- earlier]
        exact sound.untaken (first rfl)
      | cons entry more =>
        cases last
        exact sound.first before list more earlier

omit [DecidableEq Callback] in
theorem frames_perm {frames : List (Frame Callback)} {index : Nat} (found : frames[index]? = some frame) :
    frames.Perm (frame :: frames.eraseIdx index) := by
  rcases List.getElem?_eq_some_iff.mp found with ⟨bound, rfl⟩
  exact (List.getElem_cons_eraseIdx_perm bound).symm

theorem Sound.proceed (sound : Sound token) (outcome : Outcome) {others : List (Frame Callback)}
    (split : token.frames.Perm (frame :: others)) : Sound (token.proceed outcome others frame) := by
  have counts : ∀ other, token.frames.count other = (frame :: others).count other :=
    fun other => split.count_eq other
  have left : ∀ {other : Frame Callback}, other ∈ others -> other ∈ token.frames :=
    fun member => split.mem_iff.mpr (List.mem_cons_of_mem _ member)
  have here : frame ∈ token.frames := split.mem_iff.mpr List.mem_cons_self
  have kept := sound.kept
  simp only [Frame.registers, counts, List.count_cons] at kept
  -- What is invoked besides a frame that does not invoke.
  have besides : (∀ callback, frame ≠ .invoking callback) -> ∀ callback,
      token.frames.count (.invoking callback) = others.count (.invoking callback) := by
    intro apart callback
    rw [counts, List.count_cons_of_ne (apart callback)]
  cases frame with
  | draining rest =>
    have invoked := besides nofun
    cases rest with
    | nil =>
      have serves : ∀ rest, Served token rest -> Served (token.proceed outcome others (.draining [])) rest :=
        fun rest served => served.mono (List.Subset.refl _) fun callback few => .inr (invoked callback ▸ few)
      refine ⟨fun callback => by
        simpa [CancellationToken.proceed, Frame.registers] using kept callback, fun _ => sound.latched (.inr ⟨_, here⟩),
        fun rest member => serves rest (sound.draining rest (left member)), fun _ => serves [] (sound.draining [] here),
        sound.untaken, sound.first⟩
    | cons first rest =>
      have frames : ∀ other ∈ (token.proceed outcome others (.draining (first :: rest))).frames,
          other = .draining rest ∨ other ∈ others := by
        intro other member
        change other ∈ if outcome = .aborts then others else _ at member
        split at member
        · exact .inr member
        · exact List.mem_cons.mp member
      have more : token.started.Subset (first :: token.started) := List.subset_cons_self _ _
      have same : ∀ callback, (token.proceed outcome others (.draining (first :: rest))).frames.count
          (.invoking callback) = others.count (.invoking callback) := by
        intro callback
        change List.count _ (if outcome = .aborts then others else _) = _
        split
        · rfl
        · exact List.count_cons_of_ne (by nofun)
      have serves : ∀ waits, Served token waits ->
          Served (token.proceed outcome others (.draining (first :: rest))) waits :=
        fun waits served => served.mono more (fun callback few => .inr (by
          rw [same, <- invoked]
          exact few))
      refine ⟨fun callback => ?_, fun _ => sound.latched (.inr ⟨_, here⟩), fun waits member => ?_,
        fun over_ => serves [] (sound.drained over_), sound.untaken, sound.first⟩
      · have held := kept callback
        simp only [CancellationToken.proceed]
        split
        · simpa [Frame.registers] using held
        · simpa [Frame.registers, List.count_cons] using held
      · rcases frames _ member with equal | listed
        · cases equal
          intro callback
          rcases serves _ (sound.draining _ here) callback with known | waits | few
          · exact .inl known
          · rcases List.mem_cons.mp waits with rfl | waits
            · exact .inl List.mem_cons_self
            · exact .inr (.inl waits)
          · exact .inr (.inr few)
        · exact serves waits (sound.draining waits (left listed))
  | invoking called =>
    refine sound.keep id rfl rfl rfl (fun rest member => ?_) (fun callback => ?_) fun rest _ _ served => ?_
    · change _ ∈ (if outcome = .returns then _ else _) :: others at member
      split at member
      · exact left ((List.mem_cons.mp member).resolve_left nofun)
      · exact left ((List.mem_cons.mp member).resolve_left nofun)
    · have held := kept callback
      simp only [CancellationToken.proceed]
      split
      · simp [Frame.registers, List.count_cons] at held ⊢
        omega
      · simp [Frame.registers, List.count_cons] at held ⊢
        omega
    · refine served.mono (List.subset_cons_self _ _) fun callback few => ?_
      by_cases same : callback = called
      · exact .inl (same ▸ List.mem_cons_self)
      · refine .inr ?_
        rw [counts, List.count_cons_of_ne (by simpa using Ne.symm same)] at few
        simp only [CancellationToken.proceed]
        split
        · simpa [List.count_cons] using few
        · simpa [List.count_cons] using few
  | returning called =>
    have invoked := besides nofun
    refine sound.keep id rfl rfl rfl (fun rest member => left member) (fun callback => ?_) (fun rest _ _ served =>
      served.mono (List.Subset.refl _) fun callback few => .inr (invoked callback ▸ few))
    have held := kept callback
    simp [CancellationToken.proceed, Frame.registers, List.count_cons] at held ⊢
    omega
  | failing called =>
    have invoked := besides nofun
    have fewer : ∀ callback, (token.callbacks.erase called).count callback ≤ token.callbacks.count callback :=
      fun callback => List.erase_sublist.count_le _
    refine sound.keep id rfl rfl rfl (fun rest member => left member) (fun callback => ?_) (fun rest _ _ served =>
      served.mono (List.Subset.refl _) fun callback few => .inr ?_)
    · have held := kept callback
      simp [CancellationToken.proceed, Frame.registers, List.count_erase] at held ⊢
      split at held
      · next same =>
          simp [same]
          omega
      · next apart =>
          simp [apart]
          omega
    · exact Nat.le_trans (fewer callback) (invoked callback ▸ few)

theorem Sound.step (sound : Sound token) (event : Event Callback) : Sound (token.step event) := by
  cases event with
  | request =>
    exact sound.keep (fun _ => rfl) rfl rfl rfl (fun _ => id) sound.kept (fun _ _ _ served =>
      served.mono (List.Subset.refl _) fun _ few => .inr few)
  | cancel => exact sound.take rfl nofun
  | runPendingCallbacks =>
    simp only [CancellationToken.step]
    split
    · exact sound.keep id rfl rfl rfl (fun _ => id) sound.kept (fun _ _ _ served =>
        served.mono (List.Subset.refl _) fun _ few => .inr few)
    · next proceeds =>
        rw [Bool.or_eq_true, not_or, Bool.not_eq_true, Bool.not_eq_true', Bool.not_eq_false] at proceeds
        exact sound.take proceeds.2 fun _ => proceeds.1
  | addCallback added =>
    refine sound.keep id rfl rfl rfl (fun rest member => ?_) (fun callback => ?_) fun rest ran requested served => ?_
    · simp only [CancellationToken.step] at member
      split at member
      · exact (List.mem_cons.mp member).resolve_left nofun
      · exact (List.mem_cons.mp member).resolve_left nofun
    · have held := sound.kept callback
      simp only [CancellationToken.step]
      split
      · simp [Frame.registers, List.count_cons] at held ⊢
        omega
      · simp [Frame.registers, List.count_cons] at held ⊢
        omega
    · refine served.mono (List.Subset.refl _) fun callback few => .inr ?_
      simp [CancellationToken.step, ran, requested, List.count_cons]
      exact few
  | unsubscribe gone =>
    refine sound.keep id rfl rfl rfl (fun _ => id) (fun callback => ?_) (fun _ _ _ served =>
      served.mono (List.Subset.refl _) fun callback few => .inr ?_)
    · have held := sound.kept callback
      simp [CancellationToken.step, Frame.registers, List.count_erase, List.count_cons] at held ⊢
      omega
    · exact Nat.le_trans (List.erase_sublist.count_le _) few
  | advance index outcome =>
    simp only [CancellationToken.step]
    split
    · exact sound
    · next frame found => exact sound.proceed outcome (frames_perm found)

theorem Sound.initial : Sound ({} : CancellationToken Callback) where
  kept := fun _ => Nat.le_refl _
  latched := by
    rintro (over_ | ⟨_, member⟩)
    · cases over_
    · cases member
  draining := nofun
  drained := nofun
  untaken := fun _ => rfl
  first := fun before _ _ split => absurd split.symm (List.append_ne_nil_of_right_ne_nil _ (List.cons_ne_nil _ _))

/-- Once a drain has gone through its list, every callback that is registered more
often than it was unsubscribed has been started.  Only the first drain is one of
`run_pending_callbacks`, and a token stays cancelled. -/
theorem callbacks_started (events later : List (Event Callback)) :
    ((tokenMachine.run {} events).drained = true -> ∀ callback,
      (tokenMachine.run {} events).unsubscribed.count callback < (tokenMachine.run {} events).registered.count callback ->
        callback ∈ (tokenMachine.run {} events).started) ∧
    (∀ before list after, (tokenMachine.run {} events).taken = before ++ (true, list) :: after -> before = []) ∧
    ((tokenMachine.run ({} : CancellationToken Callback) events).cancelled = true ->
      (tokenMachine.run {} (events ++ later)).cancelled = true) := by
  have sound : Sound (tokenMachine.run {} events) :=
    tokenMachine.invariant_run (fun _ event holds => holds.step event) Sound.initial events
  refine ⟨fun drained callback more => ?_, sound.first, ?_⟩
  · rcases sound.drained drained callback with known | waits | few
    · exact known
    · cases waits
    · have kept := sound.kept callback
      rw [Frame.registers] at kept
      omega
  · rw [tokenMachine.run_append]
    refine tokenMachine.related_run (fun first second => first.cancelled = true -> second.cancelled = true)
      (fun _ => id) (fun _ _ _ before after first => after (before first)) (fun token event requested => ?_) _ later
    cases event with
    | request => rfl
    | cancel => rfl
    | runPendingCallbacks =>
      change CancellationToken.cancelled (if _ then _ else _) = true
      split
      · exact requested
      · exact requested
    | addCallback _ => exact requested
    | unsubscribe _ => exact requested
    | advance index outcome =>
      change CancellationToken.cancelled (token.step (.advance index outcome)) = true
      simp only [CancellationToken.step]
      split
      · exact requested
      · next frame _ =>
          rcases frame with (_ | _) | _ | _ | _
          all_goals exact requested

end Token

/-- `run_pending_callbacks` returns before the token is cancelled, or while another
thread is about to run the callbacks. -/
theorem early_return_starts_nothing :
    ¬∀ events : List (Event Unit), (tokenMachine.run {} events).cancelled = true ->
      0 < (tokenMachine.run {} events).completed -> ∀ callback,
        (tokenMachine.run {} events).unsubscribed.count callback < (tokenMachine.run {} events).registered.count callback ->
          callback ∈ (tokenMachine.run {} events).started := by
  intro claimed
  have started := claimed [.addCallback (), .advance 0 .returns, .runPendingCallbacks, .request] (by decide) (by decide) ()
    (by decide)
  revert started
  decide

end Cancellation
end FixLoop
