import FixLoop.Library.CycleSearch
import FixLoop.Library.Fallible
import FixLoop.Library.Keyed
import FixLoop.Library.Machine
import FixLoop.Collaboration.Contracts

namespace FixLoop
namespace Collaboration

open Library

/-!
# The graph of tasks

A graph holds tasks under their names.  A task enters it after the tasks that
it depends on, or with a snapshot whose dependencies are checked as a whole.
`cancel_dependents` asks the status of a task, and not the task, whether it is
terminal; a status has no such attribute.
-/

/-- `list(dict.fromkeys(str(item) for item in items if item))`. -/
def uniqueTexts (items : List String) : List String := Keyed.ofItems id (items.filter fun item => item != "")

/-- A list that `uniqueTexts` gives back. -/
def UniqueTexts (items : List String) : Prop := items.Nodup ∧ "" ∉ items

/-- The dictionary of a task, with the fields that nothing here reads together. -/
structure TaskData where
  taskId : String
  role : String
  kind : String
  inputRefs : List String
  dependsOn : List String
  priority : Int
  deadlineAt : ℚ
  attempt : Int
  maxAttempts : Int
  status : String
  version : Int
  createdAt : ℚ
  others : Record

/-- An `AgentTask` with the fields that its construction makes of them. -/
structure DagTask where
  taskId : String
  role : String
  kind : String
  inputRefs : List String
  dependsOn : List String
  priority : Int
  deadlineAt : ℚ
  attempt : Nat
  maxAttempts : Nat
  status : TaskStatus
  version : Nat
  createdAt : ℚ
  others : Record
  references : UniqueTexts inputRefs
  dependencies : UniqueTexts dependsOn
  attempted : 1 ≤ maxAttempts

inductive DagFault where
  | invalid (errors : List String)
  | duplicate (taskId : String)
  | unknownDependencies (ids : List String)
  | cycle
  | unknownTask (taskId : String)
  | invalidTransition (before target : TaskStatus)
  | invalidStatus (value : String)
  | attribute (name : String)

/-- `TaskStatus(value)`. -/
def TaskStatus.read (value : String) : Except DagFault TaskStatus :=
  match [TaskStatus.pending, .ready, .running, .blocked, .completed, .failed, .cancelled, .expired].find?
      (fun status => status.value == value) with
  | some status => .ok status
  | none => .error (.invalidStatus value)

theorem TaskStatus.read_value (status : TaskStatus) : TaskStatus.read status.value = .ok status := by
  cases status <;> rfl

theorem uniqueTexts_unique (items : List String) : UniqueTexts (uniqueTexts items) := by
  have distinct := @Keyed.distinct_ofItems _ _ _ id (items.filter fun item => item != "")
  rw [Keyed.Distinct, List.map_id] at distinct
  refine ⟨distinct, fun member => ?_⟩
  have kept := (List.mem_filter.mp (Keyed.mem_ofItems member)).2
  exact absurd kept (by decide)

theorem uniqueTexts_of_unique {items : List String} (unique : UniqueTexts items) : uniqueTexts items = items := by
  have kept : items.filter (fun item => item != "") = items := by
    refine List.filter_eq_self.mpr fun item member => bne_iff_ne.mpr ?_
    exact fun empty => unique.2 (empty ▸ member)
  have distinct : Keyed.Distinct id items := by
    rw [Keyed.Distinct, List.map_id]
    exact unique.1
  rw [uniqueTexts, kept, Keyed.ofItems_of_distinct distinct]

namespace DagTask

/-- `AgentTask.from_dict(data)`. -/
def fromDict (data : TaskData) : Except DagFault DagTask :=
  (TaskStatus.read data.status).map (fun status =>
    { data with
      inputRefs := uniqueTexts data.inputRefs
      dependsOn := uniqueTexts data.dependsOn
      attempt := data.attempt.toNat
      maxAttempts := max 1 data.maxAttempts.toNat
      status := status
      version := data.version.toNat
      references := uniqueTexts_unique data.inputRefs
      dependencies := uniqueTexts_unique data.dependsOn
      attempted := Nat.le_max_left _ _ })

def toDict (task : DagTask) : TaskData :=
  { task with attempt := task.attempt, maxAttempts := task.maxAttempts, status := task.status.value, version := task.version }

def terminal (task : DagTask) : Bool := [TaskStatus.completed, .failed, .cancelled, .expired].contains task.status

def validate (task : DagTask) : List String :=
  (if task.taskId = "" then ["task_id is required"] else []) ++
    (if task.role = "" then ["role is required"] else []) ++
    (if task.kind = "" then ["kind is required"] else []) ++
    (if task.maxAttempts < task.attempt then ["attempt must be <= max_attempts"] else []) ++
    (if task.deadlineAt ≠ 0 ∧ task.deadlineAt < task.createdAt then
      ["deadline_at must not precede created_at"] else []) ++
    (if task.taskId ∈ task.dependsOn then ["task cannot depend on itself"] else [])

theorem fromDict_toDict (task : DagTask) : fromDict task.toDict = .ok task := by
  rw [fromDict, toDict]
  dsimp only
  rw [TaskStatus.read_value, Except.map]
  have attempts : max 1 task.maxAttempts = task.maxAttempts := max_eq_right task.attempted
  simp only [uniqueTexts_of_unique task.references, uniqueTexts_of_unique task.dependencies, Int.toNat_natCast, attempts]

end DagTask

structure TaskDAG where
  tasks : List DagTask
  distinct : Keyed.Distinct DagTask.taskId tasks

namespace TaskDAG

def empty : TaskDAG := ⟨[], List.nodup_nil⟩

def ids (dag : TaskDAG) : List String := dag.tasks.map DagTask.taskId

/-- The dependencies of a task that are in the graph. -/
def dependencies (dag : TaskDAG) (taskId : String) : List String :=
  (((Keyed.find? DagTask.taskId taskId dag.tasks).map DagTask.dependsOn).getD []).filter dag.ids.contains

def hasCycle (dag : TaskDAG) : Bool := (CycleSearch.search dag.dependencies dag.ids).isNone

/-- `tasks[task.task_id] = task`. -/
def put (dag : TaskDAG) (task : DagTask) : TaskDAG :=
  ⟨Keyed.store DagTask.taskId task dag.tasks, Keyed.distinct_store task dag.distinct⟩

def add (dag : TaskDAG) (task : DagTask) : Except DagFault TaskDAG :=
  if task.validate ≠ [] then .error (.invalid task.validate)
  else if dag.ids.contains task.taskId then .error (.duplicate task.taskId)
  else if task.dependsOn.filter (fun id => !dag.ids.contains id) ≠ [] then
    .error (.unknownDependencies (task.dependsOn.filter fun id => !dag.ids.contains id))
  else if (dag.put task).hasCycle then .error .cycle
  else .ok (dag.put task)

def allowed : TaskStatus -> List TaskStatus
  | .pending => [.ready, .running, .blocked, .cancelled, .expired]
  | .ready => [.running, .blocked, .cancelled, .expired]
  | .running => [.completed, .failed, .cancelled, .expired, .ready]
  | .blocked => [.ready, .cancelled]
  | _ => []

/-- `self.tasks[task_id].status = status`. -/
def setStatus (dag : TaskDAG) (taskId : String) (status : TaskStatus) : TaskDAG where
  tasks := dag.tasks.map (fun task => if task.taskId = taskId then { task with status := status } else task)
  distinct := by
    have same : DagTask.taskId ∘ (fun task : DagTask => if task.taskId = taskId then { task with status := status } else task) =
        DagTask.taskId := by
      funext task
      rw [Function.comp_apply]
      split
      · rfl
      · rfl
    rw [Keyed.Distinct, List.map_map, same]
    exact dag.distinct

/-- The graph and the action and the reason of the decision. -/
def transition (dag : TaskDAG) (taskId status : String) : Except DagFault (TaskDAG × TaskStatus × String) :=
  match Keyed.find? DagTask.taskId taskId dag.tasks with
  | none => .error (.unknownTask taskId)
  | some task =>
    (TaskStatus.read status).bind (fun target =>
      if task.status = target then .ok (dag, target, "idempotent")
      else if !(allowed task.status).contains target then .error (.invalidTransition task.status target)
      else .ok (dag.setStatus taskId target, target, "accepted"))

/-- The loop reads `task.status.terminal` of its first task. -/
def cancelDependents (dag : TaskDAG) (_taskId : String) : TaskDAG × Except DagFault (List String) :=
  match dag.tasks with
  | [] => (dag, .ok [])
  | _ :: _ => (dag, .error (.attribute "terminal"))

def snapshot (dag : TaskDAG) : List (String × TaskData) := dag.tasks.map fun task => (task.taskId, task.toDict)

/-- The tasks of a snapshot enter one after another. -/
def load : TaskDAG -> List DagTask -> Except DagFault TaskDAG
  | dag, [] => .ok dag
  | dag, task :: rest => if task.validate ≠ [] then .error (.invalid task.validate) else load (dag.put task) rest

/-- The dependencies that are not in the graph. -/
def unknown (dag : TaskDAG) : List String :=
  (dag.tasks.flatMap DagTask.dependsOn).filter fun id => !dag.ids.contains id

def fromSnapshot (snapshot : List (String × TaskData)) : Except DagFault TaskDAG :=
  snapshot.mapM (fun item => DagTask.fromDict item.2) >>= fun pending => load empty pending >>= fun dag =>
    if dag.unknown ≠ [] then .error (.unknownDependencies dag.unknown)
    else if dag.hasCycle then .error .cycle
    else .ok dag

variable {dag : TaskDAG}

/-- The task of the first name depends on the second name. -/
def Depends (dag : TaskDAG) (taskId other : String) : Prop :=
  ∃ task ∈ dag.tasks, task.taskId = taskId ∧ other ∈ task.dependsOn

structure Governed (dag : TaskDAG) : Prop where
  closed : ∀ taskId other, dag.Depends taskId other -> other ∈ dag.ids
  acyclic : ∀ taskId, ¬Relation.TransGen dag.Depends taskId taskId
  valid : ∀ task ∈ dag.tasks, task.validate = []

variable {taskId other : String}

theorem mem_dependencies :
    other ∈ dag.dependencies taskId <-> dag.Depends taskId other ∧ other ∈ dag.ids := by
  rw [dependencies, List.mem_filter, List.contains_iff_mem]
  refine and_congr_left fun _ => ⟨fun listed => ?_, fun depends => ?_⟩
  · cases found : Keyed.find? DagTask.taskId taskId dag.tasks with
    | none =>
      rw [found] at listed
      exact absurd listed List.not_mem_nil
    | some task =>
      rw [found] at listed
      exact ⟨task, (Keyed.find?_some found).1, (Keyed.find?_some found).2, listed⟩
  · rcases depends with ⟨task, member, rfl, listed⟩
    rw [Keyed.find?_of_mem dag.distinct member]
    exact listed

theorem Depends.mem (depends : dag.Depends taskId other) : taskId ∈ dag.ids := by
  rcases depends with ⟨task, member, rfl, _⟩
  exact List.mem_map_of_mem member

/-- The search finds no cycle exactly if there is none. -/
theorem hasCycle_iff (closed : ∀ taskId other, dag.Depends taskId other -> other ∈ dag.ids) :
    dag.hasCycle = false <-> ∀ taskId, ¬Relation.TransGen dag.Depends taskId taskId := by
  have edges : CycleSearch.Edge dag.dependencies = dag.Depends := by
    funext taskId other
    exact propext ⟨fun edge => (mem_dependencies.mp edge).1, fun depends => mem_dependencies.mpr ⟨depends, closed _ _ depends⟩⟩
  have search := @CycleSearch.search_isSome_iff _ _ dag.dependencies dag.ids
    (fun taskId other edge => ⟨(mem_dependencies.mp edge).1.mem, (mem_dependencies.mp edge).2⟩)
  rw [hasCycle, <- Option.not_isSome, Bool.not_eq_false', search, CycleSearch.Acyclic, edges]

/-! ## What the calls keep -/

theorem governed_empty : Governed empty where
  closed := fun _ _ depends => by
    rcases depends with ⟨task, member, _⟩
    cases member
  acyclic := (hasCycle_iff (fun _ _ depends => by
    rcases depends with ⟨task, member, _⟩
    cases member)).mp rfl
  valid := fun _ member => by cases member

/-- Changes in place that keep the names, the dependencies and what is checked
of the tasks. -/
theorem Governed.inPlace {after : TaskDAG} (governed : dag.Governed) {change : DagTask -> DagTask}
    (mapped : after.tasks = dag.tasks.map change) (named : ∀ task, (change task).taskId = task.taskId)
    (depends : ∀ task, (change task).dependsOn = task.dependsOn)
    (checked : ∀ task, (change task).validate = task.validate) : after.Governed := by
  have ids : after.ids = dag.ids := by
    rw [TaskDAG.ids, mapped, List.map_map]
    exact List.map_congr_left fun task _ => named task
  have relation : after.Depends = dag.Depends := by
    funext taskId other
    apply propext
    constructor
    · rintro ⟨task, member, rfl, listed⟩
      rw [mapped] at member
      rcases List.mem_map.mp member with ⟨before, known, rfl⟩
      exact ⟨before, known, (named before).symm, depends before ▸ listed⟩
    · rintro ⟨task, member, rfl, listed⟩
      exact ⟨change task, mapped ▸ List.mem_map_of_mem member, named task, (depends task).symm ▸ listed⟩
  refine ⟨?_, ?_, ?_⟩
  · rw [relation, ids]
    exact governed.closed
  · rw [relation]
    exact governed.acyclic
  · intro task member
    rw [mapped] at member
    rcases List.mem_map.mp member with ⟨before, known, rfl⟩
    exact (checked before).trans (governed.valid before known)

theorem Governed.add {after : TaskDAG} {task : DagTask} (governed : dag.Governed) (added : dag.add task = .ok after) :
    after.Governed := by
  rw [TaskDAG.add] at added
  split_ifs at added with invalid known dangling cyclic
  cases added
  have fresh : ∀ other ∈ dag.tasks, other.taskId ≠ task.taskId := by
    intro other member same
    exact known (List.contains_iff_mem.mpr (same ▸ List.mem_map_of_mem member))
  have listed : (dag.put task).tasks = dag.tasks ++ [task] := Keyed.store_of_missing (Keyed.find?_none.mpr fresh)
  have ids : (dag.put task).ids = dag.ids ++ [task.taskId] := by
    rw [TaskDAG.ids, listed, List.map_append]
    rfl
  have closed : ∀ taskId other, (dag.put task).Depends taskId other -> other ∈ (dag.put task).ids := by
    rintro taskId other ⟨found, member, rfl, depends⟩
    rw [ids, List.mem_append]
    rw [listed, List.mem_append] at member
    rcases member with old | new
    · exact Or.inl (governed.closed _ _ ⟨found, old, rfl, depends⟩)
    · cases List.mem_singleton.mp new
      refine Or.inl (by_contra fun missing => ?_)
      have absent : other ∈ task.dependsOn.filter (fun id => !dag.ids.contains id) := by
        refine List.mem_filter.mpr ⟨depends, ?_⟩
        rw [Bool.not_eq_true', Bool.eq_false_iff]
        exact fun contained => missing (List.contains_iff_mem.mp contained)
      rw [not_not.mp dangling] at absent
      exact List.not_mem_nil absent
  refine ⟨closed, (hasCycle_iff closed).mp (eq_false_of_ne_true cyclic), ?_⟩
  intro found member
  rw [listed, List.mem_append] at member
  rcases member with old | new
  · exact governed.valid found old
  · cases List.mem_singleton.mp new
    exact not_not.mp invalid

theorem load_ok {pending : List DagTask} {after : TaskDAG} (loaded : load dag pending = .ok after)
    (valid : ∀ task ∈ dag.tasks, task.validate = []) :
    ∀ task ∈ after.tasks, task.validate = [] := by
  induction pending generalizing dag with
  | nil =>
    cases loaded
    exact valid
  | cons task rest ih =>
    rw [load] at loaded
    split at loaded
    · cases loaded
    · next checked =>
        refine ih loaded fun found member => ?_
        rcases Keyed.mem_store member with rfl | old
        · exact not_not.mp checked
        · exact valid found old

theorem governed_fromSnapshot {rows : List (String × TaskData)} (loaded : fromSnapshot rows = .ok dag) :
    dag.Governed := by
  rw [fromSnapshot] at loaded
  rcases Fallible.bind_ok loaded with ⟨pending, _, loaded⟩
  rcases Fallible.bind_ok loaded with ⟨read, entered, loaded⟩
  split_ifs at loaded with dangling cyclic
  cases loaded
  have closed : ∀ taskId other, dag.Depends taskId other -> other ∈ dag.ids := by
    rintro taskId other ⟨task, member, rfl, depends⟩
    refine by_contra fun missing => ?_
    have absent : other ∈ dag.unknown := by
      refine List.mem_filter.mpr ⟨List.mem_flatMap.mpr ⟨task, member, depends⟩, ?_⟩
      rw [Bool.not_eq_true', Bool.eq_false_iff]
      exact fun contained => missing (List.contains_iff_mem.mp contained)
    rw [not_not.mp dangling] at absent
    exact List.not_mem_nil absent
  exact ⟨closed, (hasCycle_iff closed).mp (eq_false_of_ne_true cyclic), load_ok entered fun _ member => by cases member⟩

theorem load_tasks {pending : List DagTask} (apart : Keyed.Distinct DagTask.taskId (dag.tasks ++ pending))
    (valid : ∀ task ∈ pending, task.validate = []) :
    ∃ after, load dag pending = .ok after ∧ after.tasks = dag.tasks ++ pending := by
  induction pending generalizing dag with
  | nil => exact ⟨dag, rfl, (List.append_nil _).symm⟩
  | cons task rest ih =>
    have fresh : ∀ other ∈ dag.tasks, other.taskId ≠ task.taskId := by
      intro other member same
      rw [Keyed.Distinct, List.map_append, List.nodup_append] at apart
      exact apart.2.2 _ (List.mem_map_of_mem member) _ (List.mem_map_of_mem List.mem_cons_self) same
    have listed : (dag.put task).tasks = dag.tasks ++ [task] := Keyed.store_of_missing (Keyed.find?_none.mpr fresh)
    have joined : (dag.put task).tasks ++ rest = dag.tasks ++ task :: rest := by
      rw [listed, List.append_assoc]
      rfl
    rw [load, if_neg (not_not.mpr (valid task List.mem_cons_self)), <- joined]
    exact ih (joined ▸ apart) fun other member => valid other (List.mem_cons_of_mem _ member)

/-- A snapshot gives the same graph back. -/
theorem Governed.fromSnapshot_snapshot (governed : dag.Governed) : fromSnapshot dag.snapshot = .ok dag := by
  have read : dag.snapshot.mapM (fun item => DagTask.fromDict item.2) = .ok dag.tasks := by
    rw [Fallible.mapM_ok_iff, snapshot, List.forall₂_map_left_iff]
    exact List.forall₂_same.mpr fun task _ => task.fromDict_toDict
  rcases @load_tasks empty dag.tasks dag.distinct governed.valid with ⟨after, entered, tasks⟩
  have same : after = dag := by
    cases after
    cases dag
    cases tasks
    rfl
  rw [same] at entered
  have known : dag.unknown = [] := by
    refine List.filter_eq_nil_iff.mpr fun other member absent => ?_
    rcases List.mem_flatMap.mp member with ⟨task, listed, depends⟩
    rw [List.contains_iff_mem.mpr (governed.closed _ _ ⟨task, listed, rfl, depends⟩)] at absent
    cases absent
  rw [fromSnapshot, Fallible.bind_of_ok read, Fallible.bind_of_ok entered, if_neg (not_not.mpr known),
    (hasCycle_iff governed.closed).mpr governed.acyclic]
  rfl

/-- A task that is not terminal and depends on the name, directly or through
tasks that are not terminal either. -/
inductive Affected (dag : TaskDAG) (taskId : String) : String -> Prop where
  | direct {task : DagTask} (member : task ∈ dag.tasks) (live : task.terminal = false)
      (depends : taskId ∈ task.dependsOn) : Affected dag taskId task.taskId
  | through {middle : String} {task : DagTask} (affected : Affected dag taskId middle) (member : task ∈ dag.tasks)
      (live : task.terminal = false) (depends : middle ∈ task.dependsOn) : Affected dag taskId task.taskId

/-- Exactly the affected tasks are cancelled, and each is returned once. -/
def Cancels (dag : TaskDAG) (taskId : String) (outcome : TaskDAG × Except DagFault (List String)) : Prop :=
  ∃ returned, outcome.2 = .ok returned ∧ returned.Nodup ∧
    (∀ other, other ∈ returned <-> dag.Affected taskId other) ∧
    ∀ other, Keyed.find? DagTask.taskId other outcome.1.tasks =
      (Keyed.find? DagTask.taskId other dag.tasks).map (fun task =>
        { task with status := if other ∈ returned then .cancelled else task.status })

theorem Affected.nonempty (affected : dag.Affected taskId other) : dag.tasks ≠ [] := by
  cases affected with
  | direct member _ _ | through _ member _ _ => exact List.ne_nil_of_mem member

theorem cancels_iff (dag : TaskDAG) (taskId : String) :
    Cancels dag taskId (dag.cancelDependents taskId) <-> dag.tasks = [] := by
  constructor
  · rintro ⟨returned, succeeded, _⟩
    rw [cancelDependents] at succeeded
    split at succeeded
    · next none_ => exact none_
    · cases succeeded
  · intro nothing
    have outcome : dag.cancelDependents taskId = (dag, .ok []) := by
      rw [cancelDependents]
      split
      · rfl
      · next some_ => exact absurd (nothing.symm.trans some_) (List.cons_ne_nil _ _).symm
    rw [outcome]
    refine ⟨[], rfl, List.nodup_nil, fun other => ⟨fun absent => absurd absent List.not_mem_nil, ?_⟩, fun other => ?_⟩
    · exact fun affected => absurd nothing affected.nonempty
    · rw [nothing]
      rfl

/-! ## Runs -/

inductive DagCall where
  | add (task : DagTask)
  | transition (taskId status : String)
  | cancelDependents (taskId : String)
  | snapshot
  | fromSnapshot (rows : List (String × TaskData))

/-- A call that raises leaves the graph as it was. -/
def after (dag : TaskDAG) : DagCall -> TaskDAG
  | .add task => (dag.add task).toOption.getD dag
  | .transition taskId status => ((dag.transition taskId status).toOption.map Prod.fst).getD dag
  | .cancelDependents taskId => (dag.cancelDependents taskId).1
  | .snapshot => dag
  | .fromSnapshot rows => (TaskDAG.fromSnapshot rows).toOption.getD dag

def machine : Machine TaskDAG DagCall := ⟨after⟩

theorem Governed.transition {status : String} {outcome : TaskDAG × TaskStatus × String}
    (governed : dag.Governed) (moved : dag.transition taskId status = .ok outcome) : outcome.1.Governed := by
  rw [TaskDAG.transition] at moved
  split at moved
  · cases moved
  rcases Fallible.bind_ok moved with ⟨target, _, moved⟩
  split_ifs at moved
  · cases moved
    exact governed
  · cases moved
    have field : ∀ {Value : Type} (read : DagTask -> Value) (task : DagTask),
        read { task with status := target } = read task ->
        read (if task.taskId = taskId then { task with status := target } else task) = read task := by
      intro Value read task same
      split
      · exact same
      · rfl
    exact governed.inPlace rfl (fun task => field DagTask.taskId task rfl) (fun task => field DagTask.dependsOn task rfl)
      (fun task => field DagTask.validate task rfl)

theorem Governed.after (governed : dag.Governed) (call : DagCall) : (dag.after call).Governed := by
  cases call with
  | add task =>
    rw [TaskDAG.after]
    cases added : dag.add task with
    | error fault => exact governed
    | ok graph => exact governed.add added
  | transition taskId status =>
    rw [TaskDAG.after]
    cases moved : dag.transition taskId status with
    | error fault => exact governed
    | ok outcome => exact governed.transition moved
  | cancelDependents taskId =>
    rw [TaskDAG.after, cancelDependents]
    split
    · exact governed
    · exact governed
  | snapshot => exact governed
  | fromSnapshot rows =>
    rw [TaskDAG.after]
    cases loaded : TaskDAG.fromSnapshot rows with
    | error fault => exact governed
    | ok graph => exact governed_fromSnapshot loaded

/-- After any calls the dependencies are closed and without a cycle, a
snapshot gives the same graph back, and `cancel_dependents` cancels what it
should exactly if there is no task. -/
theorem taskDag_governed (calls : List DagCall) :
    let dag := machine.run empty calls
    dag.Governed ∧ fromSnapshot dag.snapshot = .ok dag ∧
      ∀ taskId, Cancels dag taskId (dag.cancelDependents taskId) <-> dag.tasks = [] := by
  intro dag
  have governed : dag.Governed :=
    machine.invariant_run (fun dag call governed => governed.after call) governed_empty calls
  exact ⟨governed, governed.fromSnapshot_snapshot, cancels_iff dag⟩

/-- A task of a role, with its dependencies. -/
def plainTask (taskId : String) (dependsOn : List String) (unique : UniqueTexts dependsOn) : DagTask where
  taskId := taskId
  role := "writer"
  kind := "edit"
  inputRefs := []
  dependsOn := dependsOn
  priority := 0
  deadlineAt := 0
  attempt := 0
  maxAttempts := 1
  status := .pending
  version := 0
  createdAt := 0
  others := []
  references := ⟨List.nodup_nil, List.not_mem_nil⟩
  dependencies := unique
  attempted := Nat.le_refl 1

/-- With a task in the graph, nothing is cancelled. -/
theorem dependents_survive :
    let dag := machine.run empty [.add (plainTask "a" [] ⟨List.nodup_nil, List.not_mem_nil⟩),
      .add (plainTask "b" ["a"] ⟨List.nodup_singleton _, by decide⟩)]
    ¬Cancels dag "a" (dag.cancelDependents "a") := by
  intro dag cancels
  have none_ := congrArg List.length ((cancels_iff dag "a").mp cancels)
  have two : dag.tasks.length = 2 := by decide +kernel
  rw [two] at none_
  cases none_

end TaskDAG

end Collaboration
end FixLoop
