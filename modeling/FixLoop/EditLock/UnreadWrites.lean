import FixLoop.EditLock.State

namespace FixLoop
namespace EditLock

open Library

/-!
# No unread writes

Every call is a sequence of moves of four kinds, and what the lock knows about
a path is justified by the history after each of them.
-/

/-! ## What the history says -/

/-- Something granted the path for the operation. -/
def Granted (rel : Text) (operation : String) (history : List Entry) : Prop :=
  .expanded rel operation ∈ history ∨
    operation = "modify" ∧ (.seeded rel ∈ history ∨ .allowed rel ∈ history)

/-- A read of the path was accepted after the latest expansion that granted it
any operation. -/
def ReadSince (rel : Text) (history : List Entry) : Prop :=
  ∃ newer older, history = newer ++ .read rel :: older ∧
    ∀ operation, .expanded rel operation ∉ newer

def Entry.expansion : Entry -> Bool
  | .expanded _ _ => true
  | _ => false

variable {history : List Entry}

theorem Granted.later {rel : Text} {operation : String} (entry : Entry)
    (granted : Granted rel operation history) : Granted rel operation (entry :: history) := by
  rcases granted with expanded | ⟨modify, seeded | allowed⟩
  · exact .inl (List.mem_cons_of_mem _ expanded)
  · exact .inr ⟨modify, .inl (List.mem_cons_of_mem _ seeded)⟩
  · exact .inr ⟨modify, .inr (List.mem_cons_of_mem _ allowed)⟩

theorem readSince_now (rel : Text) (history : List Entry) : ReadSince rel (.read rel :: history) :=
  ⟨[], history, rfl, fun _ => List.not_mem_nil⟩

theorem ReadSince.later {rel : Text} {entry : Entry}
    (other : ∀ operation, entry ≠ .expanded rel operation) (since : ReadSince rel history) :
    ReadSince rel (entry :: history) := by
  rcases since with ⟨newer, older, split, unexpanded⟩
  refine ⟨entry :: newer, older, by rw [split, List.cons_append], ?_⟩
  intro operation expanded
  rcases List.mem_cons.mp expanded with here | earlier
  · exact other operation here.symm
  · exact unexpanded operation earlier

namespace EditLockState

/-- The path becomes granted for the operation. -/
def grant (rel : Text) (operation : String) (lock : EditLockState) : EditLockState :=
  if operation = "modify" then { lock with allowedEdit := insert rel lock.allowedEdit }
  else if operation = "create" then { lock with allowedCreate := insert rel lock.allowedCreate }
  else { lock with allowedDelete := insert rel lock.allowedDelete }

/-- Nothing but the sets of granted paths changes. -/
theorem grant_eq (rel : Text) (operation : String) (lock : EditLockState) :
    ∃ edit create delete, lock.grant rel operation =
      { lock with allowedEdit := edit, allowedCreate := create, allowedDelete := delete } := by
  unfold grant
  split
  · exact ⟨_, _, _, rfl⟩
  · split
    · exact ⟨_, _, _, rfl⟩
    · exact ⟨_, _, _, rfl⟩

theorem granted_grant (lock : EditLockState) (rel other : Text) {operation : String} (asked : String)
    (known : operation = "modify" ∨ operation = "create" ∨ operation = "delete")
    (member : other ∈ (lock.grant rel operation).granted asked) :
    other ∈ lock.granted asked ∨ other = rel ∧ asked = operation := by
  rcases known with rfl | rfl | rfl
  · by_cases modify : asked = "modify"
    · subst asked
      exact (Finset.mem_insert.mp member).symm.imp_right fun same => ⟨same, rfl⟩
    · refine .inl ?_
      simpa [granted, grant, modify] using member
  · by_cases create : asked = "create"
    · subst asked
      exact (Finset.mem_insert.mp member).symm.imp_right fun same => ⟨same, rfl⟩
    · refine .inl ?_
      simpa [granted, grant, create] using member
  · by_cases delete : asked = "delete"
    · subst asked
      exact (Finset.mem_insert.mp member).symm.imp_right fun same => ⟨same, rfl⟩
    · refine .inl ?_
      simpa [granted, grant, delete] using member

end EditLockState

/-! ## What is known of a lock -/

structure Guarded (lock : EditLockState) : Prop where
  grants : ∀ rel operation, rel ∈ lock.granted operation -> Granted rel operation lock.history
  reads : ∀ rel, lock.unread rel = false -> ReadSince rel lock.history
  behind : ∀ rel generation, lock.readGeneration rel = some generation ->
    generation ≤ lock.generation
  required : ∀ rel, lock.requiredReadGeneration rel ≤ lock.generation
  counted : lock.history.countP Entry.expansion = lock.expandCount
  bounded : lock.expandCount ≤ lock.maxExpand

namespace EditLockState

theorem unread_eq_false {lock : EditLockState} {rel : Text} :
    lock.unread rel = false <-> rel ∈ lock.readSet ∧ ∃ generation,
      lock.readGeneration rel = some generation ∧ lock.requiredReadGeneration rel ≤ generation := by
  unfold unread
  cases stored : lock.readGeneration rel with
  | none => simp
  | some generation => simp

end EditLockState

namespace Guarded

variable {lock : EditLockState}

theorem seeded (guarded : Guarded lock) (rel : Text) :
    Guarded { lock with
      allowedEdit := insert rel lock.allowedEdit
      history := .seeded rel :: lock.history } := by
  refine ⟨?_, ?_, guarded.behind, guarded.required, guarded.counted, guarded.bounded⟩
  · intro other operation member
    rcases EditLockState.granted_grant lock rel other operation (.inl rfl) member with earlier | ⟨rfl, rfl⟩
    · exact (guarded.grants other operation earlier).later _
    · exact .inr ⟨rfl, .inl List.mem_cons_self⟩
  · intro other read
    exact (guarded.reads other read).later fun _ same => Entry.noConfusion same

theorem allowed (guarded : Guarded lock) (rel : Text) :
    Guarded { lock with
      allowedEdit := insert rel lock.allowedEdit
      history := .allowed rel :: lock.history } := by
  refine ⟨?_, ?_, guarded.behind, guarded.required, guarded.counted, guarded.bounded⟩
  · intro other operation member
    rcases EditLockState.granted_grant lock rel other operation (.inl rfl) member with earlier | ⟨rfl, rfl⟩
    · exact (guarded.grants other operation earlier).later _
    · exact .inr ⟨rfl, .inr List.mem_cons_self⟩
  · intro other read
    exact (guarded.reads other read).later fun _ same => Entry.noConfusion same

theorem read (guarded : Guarded lock) (rel : Text) :
    Guarded { lock with
      readSet := insert rel lock.readSet
      readGeneration := Function.update lock.readGeneration rel (some (lock.requiredReadGeneration rel))
      history := .read rel :: lock.history } := by
  refine ⟨?_, ?_, ?_, guarded.required, guarded.counted, guarded.bounded⟩
  · exact fun other operation member => (guarded.grants other operation member).later _
  · intro other known
    by_cases same : other = rel
    · rw [same]
      exact readSince_now rel lock.history
    · rcases EditLockState.unread_eq_false.mp known with ⟨member, generation, stored, enough⟩
      have earlier : lock.unread other = false :=
        EditLockState.unread_eq_false.mpr ⟨Finset.mem_of_mem_insert_of_ne member same, generation,
          by rw [← stored]; exact (Function.update_of_ne same _ _).symm, enough⟩
      exact (guarded.reads other earlier).later fun _ same => Entry.noConfusion same
  · intro other generation stored
    dsimp only at stored
    by_cases same : other = rel
    · subst same
      rw [Function.update_self, Option.some.injEq] at stored
      exact stored ▸ guarded.required other
    · rw [Function.update_of_ne same] at stored
      exact guarded.behind other generation stored

/-- No generation that has been read is as late as the one that an expansion
requires. -/
theorem expanded (guarded : Guarded lock) (rel : Text) {operation : String}
    (known : operation = "modify" ∨ operation = "create" ∨ operation = "delete")
    (room : lock.expandCount < lock.maxExpand) :
    Guarded ((lock.grant rel operation).expand rel operation) := by
  have grants (other : Text) (asked : String) := EditLockState.granted_grant lock rel other asked known
  rcases lock.grant_eq rel operation with ⟨edit, create, delete, same⟩
  rw [same] at grants ⊢
  refine ⟨?_, ?_, ?_, ?_, ?_, room⟩
  · intro other asked member
    rcases grants other asked member with earlier | ⟨rfl, rfl⟩
    · exact (guarded.grants other asked earlier).later _
    · exact .inl List.mem_cons_self
  · intro other known
    rcases EditLockState.unread_eq_false.mp known with ⟨member, generation, stored, enough⟩
    by_cases same : other = rel
    · subst same
      have late : lock.generation + 1 ≤ generation := by
        simpa only [EditLockState.expand, Function.update_self] using enough
      exact absurd (guarded.behind other generation stored) (by omega)
    · have earlier : lock.unread other = false :=
        EditLockState.unread_eq_false.mpr ⟨member, generation, stored, by
          simpa only [EditLockState.expand, Function.update_of_ne same] using enough⟩
      exact (guarded.reads other earlier).later fun _ fresh => same (Entry.expanded.inj fresh).1.symm
  · exact fun other generation stored => Nat.le_succ_of_le (guarded.behind other generation stored)
  · intro other
    by_cases same : other = rel
    · subst same
      exact Nat.le_of_eq (Function.update_self _ _ _)
    · exact (Nat.le_of_eq (Function.update_of_ne same _ _)).trans (Nat.le_succ_of_le (guarded.required other))
  · show (Entry.expanded rel operation :: lock.history).countP Entry.expansion = lock.expandCount + 1
    rw [List.countP_cons, guarded.counted]
    rfl

end Guarded

theorem guarded_construct (world : World) (allowedEdit : List Text) (maxExpand maxAutoAllow : Int)
    (sandboxOnly : Bool) :
    Guarded (EditLockState.construct world allowedEdit maxExpand maxAutoAllow sandboxOnly) := by
  refine ⟨?_, ?_, ?_, fun _ => Nat.le_refl 0, ?_, Nat.zero_le _⟩
  · intro rel operation member
    unfold EditLockState.granted at member
    split at member
    · next modify => exact .inr ⟨modify, .inl (List.mem_map_of_mem (List.mem_toFinset.mp member))⟩
    · split at member
      · exact absurd member (Finset.notMem_empty rel)
      · split at member
        all_goals exact absurd member (Finset.notMem_empty rel)
  · intro rel read
    exact absurd (EditLockState.unread_eq_false.mp read).1 (Finset.notMem_empty rel)
  · intro rel generation stored
    cases stored
  · show ((_ : List Text).map Entry.seeded).countP Entry.expansion = 0
    rw [List.countP_map]
    exact List.countP_eq_zero.mpr fun _ _ => Bool.false_ne_true

section Letters

variable [Lettering]

/-! ## Moves -/

inductive Move (lock : EditLockState) : EditLockState -> Prop
  | settings (unread applied : Nat) (required : Bool) :
      Move lock { lock with
        unreadWriteRejectCount := unread
        applyPathRejectCount := applied
        requireExpandBeforeAuto := required }
  | read (rel : Text) (autoAllowImpl : Bool) : Move lock (lock.acceptRead rel autoAllowImpl)
  | seeded (rel : Text) :
      Move lock { lock with
        allowedEdit := insert rel lock.allowedEdit
        history := .seeded rel :: lock.history }
  | expanded (rel : Text) (operation : String)
      (known : operation = "modify" ∨ operation = "create" ∨ operation = "delete")
      (room : lock.expandCount < lock.maxExpand) :
      Move lock ((lock.grant rel operation).expand rel operation)

abbrev Moves : EditLockState -> EditLockState -> Prop := Relation.ReflTransGen Move

namespace EditLockState

variable {lock : EditLockState}

variable (world : World) (path : Text)

theorem markRead_moves (path : Text) (autoAllowImpl : Bool) :
    Moves lock (lock.markRead world path autoAllowImpl).1 := by
  unfold markRead
  dsimp only
  split
  · exact .refl
  · split
    · exact .refl
    · split
      · exact .single (.read _ autoAllowImpl)
      · exact .refl

theorem seed_moves (path : Text) : Moves lock (lock.seed world path) := by
  unfold seed
  dsimp only
  split
  · exact .refl
  · split
    · exact .single (.seeded _)
    · exact Relation.ReflTransGen.head (.seeded _) (markRead_moves world _ false)

theorem seedAndPreread_moves (paths : List (World × Text)) : Moves lock (lock.seedAndPreread paths) := by
  induction paths generalizing lock with
  | nil => exact .refl
  | cons entry rest ih => exact (seed_moves entry.1 entry.2).trans ih

theorem markReadEvidence_moves (evidence : Evidence) (autoAllowImpl : Bool) :
    Moves lock (lock.markReadEvidence path evidence autoAllowImpl).1 := by
  unfold markReadEvidence
  split
  · exact .refl
  · exact .single (.read _ autoAllowImpl)

theorem expandChecked_moves (rel : Text) : Moves lock (lock.expandChecked rel).1 := by
  unfold expandChecked
  split
  · exact .refl
  · split
    · exact .refl
    · next room => exact .single (.expanded rel "modify" (.inl rfl) (Nat.lt_of_not_le room))

theorem grantOperation_moves (rel : Text) (operation : String) :
    Moves lock (lock.grantOperation rel operation).1 := by
  unfold grantOperation
  split
  · split
    · exact .refl
    · split
      · exact .refl
      · next room => exact .single (.expanded rel "create" (.inr (.inl rfl)) (Nat.lt_of_not_le room))
  · split
    · split
      · exact .refl
      · split
        · exact .refl
        · next room => exact .single (.expanded rel "delete" (.inr (.inr rfl)) (Nat.lt_of_not_le room))
    · exact .refl

theorem expandLock_moves (path : Text) (operation : String) :
    Moves lock (lock.expandLock world path operation).1 := by
  unfold expandLock
  dsimp only
  split
  · exact .refl
  · split
    · exact .refl
    · split
      · exact .refl
      · split
        · split
          all_goals first | exact .refl | exact grantOperation_moves _ operation
        · split
          · split
            all_goals first | exact .refl | exact grantOperation_moves _ operation
          · split
            · exact .refl
            · split
              · exact .refl
              · split
                all_goals first | exact .refl | exact expandChecked_moves _

theorem expandLockEvidence_moves (evidence : Evidence) :
    Moves lock (lock.expandLockEvidence path evidence).1 := by
  unfold expandLockEvidence
  split
  · exact .refl
  · exact expandChecked_moves _

theorem expandOperationEvidence_moves (evidence : Evidence) (operation : String) :
    Moves lock (lock.expandOperationEvidence path evidence operation).1 := by
  unfold expandOperationEvidence
  split
  · exact .refl
  · split
    · exact .refl
    · split
      · exact .refl
      · split
        · exact .refl
        · exact grantOperation_moves _ operation

theorem checkWrite_moves (path : Text) (operation : String) :
    Moves lock (lock.checkWrite world path operation).1 := by
  have refused (reason : String) : Moves lock (lock.refusePath reason).1 :=
    .single (.settings _ _ _)
  unfold checkWrite
  dsimp only
  split
  · exact refused _
  · split
    · exact refused _
    · split
      · exact refused _
      · split
        · split
          · exact .refl
          · split
            all_goals exact .refl
        · split
          · exact .single (.settings _ _ _)
          · exact .refl

end EditLockState

open EditLockState in
theorem step_moves (lock : EditLockState) (call : Call) : Moves lock (step lock call) := by
  cases call with
  | requireExpandBeforeAuto value => exact .single (.settings _ _ value)
  | seedAndPreread paths => exact seedAndPreread_moves paths
  | markRead world path autoAllowImpl => exact markRead_moves world path autoAllowImpl
  | markReadEvidence path evidence autoAllowImpl => exact markReadEvidence_moves path evidence autoAllowImpl
  | expandLock world path operation => exact expandLock_moves world path operation
  | expandLockEvidence path evidence => exact expandLockEvidence_moves path evidence
  | expandOperationEvidence path evidence operation => exact expandOperationEvidence_moves path evidence operation
  | checkWrite world path operation => exact checkWrite_moves world path operation

/-! ## Runs of moves -/

namespace Guarded

variable {lock after : EditLockState}

theorem acceptRead (guarded : Guarded lock) (rel : Text) (autoAllowImpl : Bool) :
    Guarded (lock.acceptRead rel autoAllowImpl) := by
  unfold EditLockState.acceptRead
  split
  · exact (guarded.read rel).allowed rel
  · exact guarded.read rel

theorem move (guarded : Guarded lock) (move : Move lock after) : Guarded after := by
  cases move with
  | settings unread applied required =>
    exact ⟨guarded.grants, guarded.reads, guarded.behind, guarded.required, guarded.counted, guarded.bounded⟩
  | read rel autoAllowImpl => exact guarded.acceptRead rel autoAllowImpl
  | seeded rel => exact guarded.seeded rel
  | expanded rel operation known room => exact guarded.expanded rel known room

theorem moves (guarded : Guarded lock) (moves : Moves lock after) : Guarded after := by
  induction moves with
  | refl => exact guarded
  | tail _ last ih => exact ih.move last

end Guarded

/-- The limits are those of the construction. -/
def Limited (maxExpand maxAutoAllow : Nat) (lock : EditLockState) : Prop :=
  lock.maxExpand = maxExpand ∧ lock.maxAutoAllow = maxAutoAllow

theorem Limited.moves {maxExpand maxAutoAllow : Nat} {lock after : EditLockState}
    (limited : Limited maxExpand maxAutoAllow lock) (moves : Moves lock after) :
    Limited maxExpand maxAutoAllow after := by
  induction moves with
  | refl => exact limited
  | tail _ last ih =>
    cases last with
    | settings unread applied required => exact ih
    | read rel autoAllowImpl =>
      unfold EditLockState.acceptRead
      split
      · exact ih
      · exact ih
    | seeded rel => exact ih
    | expanded rel operation known room =>
      rcases EditLockState.grant_eq rel operation _ with ⟨edit, create, delete, same⟩
      rw [same]
      exact ih

section Runs

variable (world : World) (allowedEdit : List Text) (maxExpand maxAutoAllow : Int) (sandboxOnly : Bool)

theorem guarded_run (calls : List Call) :
    Guarded (machine.run (EditLockState.construct world allowedEdit maxExpand maxAutoAllow sandboxOnly) calls) :=
  machine.invariant_run (fun lock call guarded => guarded.moves (step_moves lock call))
    (guarded_construct world allowedEdit maxExpand maxAutoAllow sandboxOnly) calls

theorem limited_run (calls : List Call) :
    Limited maxExpand.toNat maxAutoAllow.toNat
      (machine.run (EditLockState.construct world allowedEdit maxExpand maxAutoAllow sandboxOnly) calls) :=
  machine.invariant_run (fun lock call limited => limited.moves (step_moves lock call)) ⟨rfl, rfl⟩ calls

end Runs

/-! ## Answers -/

namespace EditLockState

variable {lock : EditLockState}

theorem checkWrite_accepted {world : World} {path : Text} {operation reason : String}
    (created : operation ≠ "create")
    (accepted : (lock.checkWrite world path operation).2 = .ok (true, reason)) :
    isSensitivePath (normalizeRepoRel world.resolved path) = false ∧
      normalizeRepoRel world.resolved path ∈ lock.granted operation ∧
      lock.unread (normalizeRepoRel world.resolved path) = false := by
  unfold checkWrite at accepted
  dsimp only at accepted
  split at accepted
  · cases accepted
  · split at accepted
    · cases accepted
    · next insensitive =>
        split at accepted
        · cases accepted
        · next member =>
            split at accepted
            · cases accepted
            · next read => exact ⟨eq_false_of_ne_true insensitive, not_not.mp member, eq_false_of_ne_true read⟩

theorem acceptRead_limited (rel : Text) (autoAllowImpl : Bool) :
    (lock.acceptRead rel autoAllowImpl).allowedEdit = lock.allowedEdit ∨
      (lock.acceptRead rel autoAllowImpl).allowedEdit.card ≤ lock.maxAutoAllow := by
  unfold acceptRead
  split
  · next allowed =>
      refine .inr ((Finset.card_insert_le rel lock.allowedEdit).trans ?_)
      simp only [allows, Bool.and_eq_true, decide_eq_true_eq] at allowed
      exact allowed.2.2
  · exact .inl rfl

end EditLockState

def Call.reading : Call -> Bool
  | .markRead _ _ _ => true
  | .markReadEvidence _ _ _ => true
  | _ => false

theorem reading_limited (lock : EditLockState) {call : Call} (reading : call.reading = true) :
    (step lock call).allowedEdit = lock.allowedEdit ∨
      (step lock call).allowedEdit.card ≤ lock.maxAutoAllow := by
  cases call with
  | markRead world path autoAllowImpl =>
    show (lock.markRead world path autoAllowImpl).1.allowedEdit = _ ∨
      (lock.markRead world path autoAllowImpl).1.allowedEdit.card ≤ _
    unfold EditLockState.markRead
    dsimp only
    split
    · exact .inl rfl
    · split
      · exact .inl rfl
      · split
        · exact EditLockState.acceptRead_limited _ autoAllowImpl
        · exact .inl rfl
  | markReadEvidence path evidence autoAllowImpl =>
    show (lock.markReadEvidence path evidence autoAllowImpl).1.allowedEdit = _ ∨
      (lock.markReadEvidence path evidence autoAllowImpl).1.allowedEdit.card ≤ _
    unfold EditLockState.markReadEvidence
    split
    · exact .inl rfl
    · exact EditLockState.acceptRead_limited _ autoAllowImpl
  | _ => cases reading

/-- After any calls, a path may be modified or deleted only if it was granted
for that, is not sensitive and was read after the latest expansion that
granted it anything; expansions stay below their limit, and no read leaves
more paths editable than the limit of automatic grants unless it grants
nothing. -/
theorem no_unread_writes (world : World) (allowedEdit : List Text) (maxExpand maxAutoAllow : Int)
    (sandboxOnly : Bool) (calls : List Call) :
    let start := EditLockState.construct world allowedEdit maxExpand maxAutoAllow sandboxOnly
    let lock := machine.run start calls
    (∀ (now : World) (path : Text) (operation reason : String),
      operation = "modify" ∨ operation = "delete" ->
      (lock.checkWrite now path operation).2 = .ok (true, reason) ->
      Granted (normalizeRepoRel now.resolved path) operation lock.history ∧
        isSensitivePath (normalizeRepoRel now.resolved path) = false ∧
        ReadSince (normalizeRepoRel now.resolved path) lock.history) ∧
    lock.history.countP Entry.expansion ≤ maxExpand.toNat ∧
    ∀ call : Call, call.reading = true ->
      (step lock call).allowedEdit = lock.allowedEdit ∨
        (step lock call).allowedEdit.card ≤ maxAutoAllow.toNat := by
  intro start lock
  have guarded : Guarded lock := guarded_run world allowedEdit maxExpand maxAutoAllow sandboxOnly calls
  have limited := limited_run world allowedEdit maxExpand maxAutoAllow sandboxOnly calls
  refine ⟨?_, ?_, ?_⟩
  · intro now path operation reason kind accepted
    have created : operation ≠ "create" := by
      rcases kind with rfl | rfl
      · decide
      · decide
    rcases EditLockState.checkWrite_accepted created accepted with ⟨insensitive, member, read⟩
    exact ⟨guarded.grants _ operation member, insensitive, guarded.reads _ read⟩
  · rw [guarded.counted, <- limited.1]
    exact guarded.bounded
  · intro call reading
    rw [<- limited.2]
    exact reading_limited lock reading

end Letters

def everyFile : World where
  resolved := fun _ => none
  isFile := fun _ => .ok true
  present := fun _ => .ok true
  linked := fun _ => .ok false
  contained := fun _ => .ok true

/-- A path that is expanded and then read may be modified. -/
theorem modified_after_read :
    let lock := (@machine asciiLettering).run (EditLockState.construct everyFile [] 2 5 false)
      [.expandLock everyFile "./a.py".toList "modify", .markRead everyFile "a.py".toList false]
    (@EditLockState.checkWrite asciiLettering everyFile "a.py".toList "modify" lock).2 = .ok (true, "") ∧
      ReadSince "a.py".toList lock.history :=
  ⟨rfl, ((@no_unread_writes asciiLettering everyFile [] 2 5 false _).1 everyFile "a.py".toList "modify" ""
    (.inl rfl) rfl).2.2⟩

end EditLock
end FixLoop
