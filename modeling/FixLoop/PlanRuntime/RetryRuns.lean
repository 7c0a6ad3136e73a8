import FixLoop.PlanRuntime.RetryBooks

namespace FixLoop
namespace PlanRuntime

open Library Program

/-!
# Runs of the plan binding

The binding creates the first plan from the planner's nodes, and replaces it
only in a retry after a failed verification.  A run mixes these calls and the
reconciliation of requests with all other calls of the session, crashes and
restarts.  The books are in order after every transaction.
-/

/-- The call leaves the plans and the requests to the binding. -/
def Call.Apart : Call -> Prop
  | create _ => False
  | replan _ _ _ => False
  | note entry => entry.kind ≠ "replan_request"
  | _ => True

inductive BindingCall where
  | session (call : Call) (apart : call.Apart)
  | create (planId : String) (nodes : List PlanNode) (createdAt : ℚ)
  | reconcileReplans
  | retryFromVerification (reading : RetryReading)

/-- The calls after which no request may be open. -/
def BindingCall.Settles : BindingCall -> Prop
  | reconcileReplans => True
  | retryFromVerification _ => True
  | _ => False

def BindingCall.taken (memory : Memory) : BindingCall -> Memory
  | session call _ => call.taken memory
  | _ => memory

/-- A program of the binding, which has an open session. -/
def whileOpen (memory : Memory) (program : SessionM (Except Fault Unit)) :
    SessionM (Except Fault Gain) :=
  if memory.isOpen then do
    let ended <- program
    pure (ended.map fun _ => {})
  else pure (.ok {})

section Decoded

variable [Hashing] [Decoding] [RepairLoop.Texts]

def BindingCall.program (session : PlanSession) (memory : Memory) :
    BindingCall -> SessionM (Except Fault Gain)
  | .session call _ => do
      let gain <- call.program session memory
      pure (.ok gain)
  | .create planId nodes createdAt => whileOpen memory do
      session.create (session.plannedOn planId nodes createdAt)
      pure (.ok ())
  | .reconcileReplans => whileOpen memory do
      session.reconcileReplans
      pure (.ok ())
  | .retryFromVerification reading => whileOpen memory (session.retryFromVerification reading)

structure BindingInput where
  call : BindingCall
  answers : Answers Query Query.Reply
  crash : Option Nat

def Runtime.bindingStep (session : PlanSession) (state : Runtime) (input : BindingInput) : Runtime :=
  let program := input.call.program session state.memory
  match input.crash with
  | some transactions => ⟨program.after input.answers state.journal transactions, Memory.empty⟩
  | none =>
    ⟨program.final input.answers state.journal,
      match program.outcome input.answers state.journal with
      | .ok (.ok gain) => (input.call.taken state.memory).gained gain
      | _ => input.call.taken state.memory⟩

def bindingMachine (session : PlanSession) : Machine Runtime BindingInput where
  step state input := state.bindingStep session input

/-- The call settles the requests of an open session and runs to its own end,
which may be an exception of its own. -/
def BindingInput.Completes (session : PlanSession) (state : Runtime) (input : BindingInput) : Prop :=
  input.call.Settles ∧ state.memory.isOpen = true ∧ input.crash = none ∧ ∃ ending,
    (input.call.program session state.memory).outcome input.answers state.journal = .ok ending

/-! ## Steps -/

omit [Hashing] [Decoding] [RepairLoop.Texts] in
theorem onHeld_ordinary {Item : Type} {held : Option Item} {use : Item -> SessionM Gain}
    (ordinary : ∀ item, Ordinary (use item)) : Ordinary (onHeld held use) := by
  cases held with
  | none => exact (quiet_pure _).ordinary
  | some item => exact ordinary item

variable (session : PlanSession)

omit [RepairLoop.Texts] in
/-- A call of the session apart from the binding's is ordinary. -/
theorem call_ordinary (memory : Memory) {call : Call} (apart : call.Apart) :
    Ordinary (call.program session memory) := by
  have unit : ∀ {Result : Type} {program : SessionM Result} {gain : Gain}, Ordinary program ->
      Ordinary (program >>= fun _ => pure gain) :=
    fun ordinary => ordinary.bind fun _ => (quiet_pure _).ordinary
  unfold Call.program
  split
  · cases call with
    | create plan | replan candidate reason evidenceRefs => exact apart.elim
    | openSession => exact (quiet_pure _).ordinary
    | refresh => exact unit refresh_ordinary
    | prepare nodeId => exact (prepare_ordinary nodeId).bind fun _ => (quiet_pure _).ordinary
    | runNode nodeId => exact (runNode_ordinary nodeId).bind fun _ => (quiet_pure _).ordinary
    | preplanRead allowedTools => exact (quiet_preplanRead _).then fun _ => (quiet_pure _).ordinary
    | preplanSettle attempt => exact onHeld_ordinary fun held => unit (quiet_preplanSettle held).ordinary
    | toolPrepare attempt name arguments callId? =>
      exact onHeld_ordinary (fun held => (quiet_toolPrepare held name arguments callId?).then
        (fun _ => (quiet_pure _).ordinary))
    | toolDispatch operation =>
      exact onHeld_ordinary fun held => unit (quiet_toolDispatch held.1 held.2).ordinary
    | toolSettle operation arguments result =>
      exact onHeld_ordinary fun held => unit (quiet_toolSettle held arguments result).ordinary
    | recordResult attempt result =>
      exact onHeld_ordinary (fun held => (quiet_recordResult held result).then
        (fun _ => (quiet_pure _).ordinary))
    | settle attempt => exact onHeld_ordinary fun held => unit (settle_ordinary held)
    | recover probed => exact unit (recover_ordinary probed)
    | emit event payload => exact unit (quiet_emit event payload).ordinary
    | note entry =>
      refine unit ?_
      unfold whenever
      split
      · rename_i silent
        refine (quiet_write ⟨silent.plan?, ?_⟩).ordinary
        cases entry with
        | other kind payload => exact if_neg apart
        | _ => rfl
      · exact (quiet_pure _).ordinary
  · split
    · exact unit quiet_openSession.ordinary
    · exact (quiet_pure _).ordinary

omit [RepairLoop.Texts] in
/-- The binding creates the first version of a plan. -/
theorem create_booked (journal : Journal) (planId : String) (nodes : List PlanNode) (createdAt : ℚ) :
    Booked (session.create (session.plannedOn planId nodes createdAt)) journal (fun _ _ => True) := by
  refine keeps_bind.mpr ?_
  change Booked (refuseIf _ _ >>= _) journal _
  refine keeps_bind.mpr (keeps_ofExcept.mpr fun _ absent => ?_)
  have absent : journal.books.plan? = none := Option.not_isSome_iff_eq_none.mp (raiseIf_ok absent)
  refine (quiet_refuseIf _ _).followed rfl fun _ later known => ?_
  refine Keeps.bind (commit_booked known (.created _ absent rfl rfl)) ?_
  intro _ last _
  exact (((quiet_emit _ _).bind fun _ => quiet_checkpoint).booked last).mono fun _ _ _ => True.intro

/-- Every transaction of a call keeps the books in order, and a call that
settles the requests leaves none open. -/
theorem program_booked (state : Runtime) (order : state.journal.books.InOrder) (call : BindingCall) :
    Booked (call.program session state.memory) state.journal (fun _ later =>
      call.Settles -> state.memory.isOpen = true -> Closed later.books) := by
  have opened : ∀ {program : SessionM (Except Fault Unit)},
      Booked program state.journal (fun _ later => call.Settles -> Closed later.books) ->
      Booked (whileOpen state.memory program) state.journal (fun _ later =>
        call.Settles -> state.memory.isOpen = true -> Closed later.books) := by
    intro program booked
    unfold whileOpen
    split
    · exact Keeps.bind booked fun _ _ closed settles _ => closed settles
    · rename_i shut
      exact fun _ present => absurd present shut
  cases call with
  | session call apart =>
    refine Keeps.bind (call_ordinary session state.memory apart state.journal) ?_
    exact fun _ _ _ settles => settles.elim
  | create planId nodes createdAt =>
    refine opened (Keeps.bind (create_booked session state.journal planId nodes createdAt) ?_)
    exact fun _ _ _ settles => settles.elim
  | reconcileReplans =>
    exact opened (Keeps.bind (reconcileReplans_booked order) fun _ _ closed _ => closed)
  | retryFromVerification reading =>
    exact opened ((retryFromVerification_booked order reading).mono fun _ _ closed _ => closed)

/-- A step leaves the books in order, wherever it crashes. -/
theorem bindingStep_inOrder (state : Runtime) (input : BindingInput) (order : state.journal.books.InOrder) :
    (state.bindingStep session input).journal.books.InOrder := by
  have visited : ∀ transactions, (Journal.books ((input.call.program session state.memory).after
      input.answers state.journal transactions)).InOrder :=
    (program_booked session state order input.call).visited (fun _ _ _ => True.intro)
      (fun _ _ => Booking.inOrder) order
  unfold Runtime.bindingStep
  split
  · exact visited _
  · dsimp only
    rw [final_eq_after]
    exact visited _

/-- A completed call that settles the requests leaves none open. -/
theorem bindingStep_settled (state : Runtime) (input : BindingInput) (order : state.journal.books.InOrder)
    (completes : input.Completes session state) :
    (state.bindingStep session input).journal.books.Settled := by
  rcases completes with ⟨settles, opened, calm, ending, ended⟩
  have closed := (program_booked session state order input.call).returned
    (fun _ _ _ => True.intro) ended settles opened
  unfold Runtime.bindingStep
  rw [calm]
  exact closed.2

omit [Hashing] [Decoding] [RepairLoop.Texts] in
theorem inOrder_empty : (Journal.books []).InOrder := by
  refine ⟨⟨nofun, by decide, rfl, nofun⟩, ⟨nofun, ?_, nofun⟩, ⟨nofun, ?_, nofun, nofun⟩⟩
  · rintro request ⟨last, _⟩
    cases last
  · rintro request ⟨last, _⟩
    cases last

theorem binding_inOrder (inputs : List BindingInput) :
    ((bindingMachine session).run Runtime.fresh inputs).journal.books.InOrder :=
  (bindingMachine session).invariant_run
    (fun state input order => bindingStep_inOrder session state input order) inOrder_empty inputs

end Decoded

section Opened

attribute [local instance] Hashing.alternating Decoding.emptyDict

local instance : RepairLoop.Texts := ⟨id, id⟩

end Opened

end PlanRuntime
end FixLoop
