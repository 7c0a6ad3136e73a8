import FixLoop.WorkspacePatches.Rollback

namespace FixLoop
namespace WorkspacePatches

open Library
open Interleaved (Triple Stable Moves)

/-!
# All or nothing

A commit that raises leaves every target that no other process has touched as
it was.  Files of other processes are safe as long as other processes keep off
the paths that the commit takes up.
-/

section

variable {targets written : List Target}

structure Cleared (state after : State) : Prop where
  files : after.world.files = state.world.files
  targets : after.targets = state.targets
  touched : after.touched = state.touched
  written : after.written = state.written
  quiet : after.quiet = state.quiet
  undone : after.undone = state.undone

theorem moves_removeDir (dir : Path) : Moves around Cleared (removeDir dir) := by
  have refused (state : State) :
      Cleared state { state with tidy := state.tidy && !decide (dir ∈ state.made) } :=
    ⟨rfl, rfl, rfl, rfl, rfl, rfl⟩
  refine Moves.call ?_ refused
  intro state value after result
  dsimp only at result
  split at result
  · cases result
  · split at result
    · cases result
    · cases result
      exact ⟨rfl, rfl, rfl, rfl, rfl, rfl⟩

/-- The write-backs are done. -/
structure Restored (targets written back : List Target) (state : State) : Prop where
  working : Working written written back state
  targets : state.targets = targets

variable (back : List Target)

theorem Restored.stable : Stable around (Restored targets written back) :=
  fun event state restored => ⟨Working.stable written written back event state restored.working,
    (act_own event state).targets.trans restored.targets⟩

variable {state : State}

theorem Restored.cleared {back : List Target} {after : State}
    (restored : Restored targets written back state) (cleared : Cleared state after) :
    Restored targets written back after := by
  have working := restored.working
  refine ⟨⟨working.kept.sameFiles cleared.files cleared.targets cleared.touched cleared.written
    cleared.quiet cleared.undone, cleared.written.trans working.written, ?_⟩,
    cleared.targets.trans restored.targets⟩
  intro target listed free
  rw [cleared.touched] at free
  rw [preimage, World.file, cleared.files]
  exact working.back target listed free

/-! ## How a commit ends -/

/-- What holds when the commit has ended. -/
structure Ended (targets : List Target) (report : Report) (state : State) : Prop where
  restored : report = .refused ∨ report = .raised -> ∀ target ∈ targets,
    target.path ∉ state.touched -> preimage state.world target.path = target.before
  others : state.quiet = true -> ∀ file ∈ state.undone, file.foreign = false
  removed : report = .refused ∨ report = .raised -> state.quiet = true -> state.tidy = true ->
    state.made = []

theorem Restored.unconfirmed {back : List Target} (restored : Restored targets written back state) :
    Ended targets .unconfirmed state := by
  refine ⟨?_, restored.working.kept.undone, ?_⟩
  · rintro (impossible | impossible)
    · cases impossible
    · cases impossible
  · rintro (impossible | impossible)
    · cases impossible
    · cases impossible

theorem Restored.raised (restored : Restored targets written written state) (cleaning : Cleaning [] state) :
    Ended targets .raised state := by
  have working := restored.working
  refine ⟨?_, working.kept.undone, ?_⟩
  · intro _ target known free
    by_cases taken : target ∈ written
    · exact working.back target taken free
    · exact working.kept.same target (restored.targets ▸ known) free taken
  · intro _ quiet tidy
    refine List.eq_nil_iff_forall_not_mem.mpr fun dir made => ?_
    exact List.not_mem_nil ((cleaning.emptied tidy quiet).remaining dir made)

/-- What a commit leaves behind when a change fails. -/
structure Failed (targets : List Target) (state : State) : Prop where
  applying : Applying targets state
  resting : Resting state
  phase : Phase targets false state

theorem triple_cleanDir_restored (dir : Path) :
    Triple (Restored targets written back) (cleanDir dir) (fun _ => Restored targets written back)
      (fun _ _ => False) :=
  (moves_removeDir dir _ (Restored.stable back) fun _ _ => Restored.cleared).handling
    (fun _ => Triple.pure () (fun _ => Restored targets written back) _)

theorem Failed.undoing {directories : List Path} (failed : Failed targets state)
    (lists : Lists written directories state) : Restored targets written [] { state with undoing := true } ∧
      Undoing targets written directories { state with undoing := true } := by
  have resting := failed.resting
  have kept := failed.applying.kept
  rw [lists.written] at kept
  refine ⟨⟨⟨kept.sameFiles rfl rfl rfl rfl rfl rfl, lists.written,
    fun _ member => absurd member List.not_mem_nil⟩, failed.phase.targets⟩,
    ⟨⟨?_, resting.swept, ?_, resting.ordered⟩, ⟨failed.phase.targets, rfl⟩,
      lists.written, lists.directories⟩⟩
  · exact ⟨resting.formed.world, resting.formed.temps, resting.formed.made⟩
  · intro tidy
    have neat := resting.neat tidy
    exact ⟨neat.files, neat.dirs, neat.listed, neat.way, neat.kept⟩

theorem triple_rollBack (distinct : (targets.map Target.path).Nodup)
    (known : ∀ target ∈ written, target ∈ targets) (directories : List Path) :
    Triple (fun state => Failed targets state ∧ Lists written directories state)
      (rollBack written directories) (Ended targets) (fun _ _ => False) := by
  have begun : Triple (fun state => Failed targets state ∧ Lists written directories state)
      (Interleaved.change (fun state => { state with undoing := true }) : Run Unit)
      (fun _ state => Working written written [] state ∧ Undoing targets written directories state)
      (fun _ _ => False) :=
    Triple.change (fun state both =>
      ⟨(both.1.undoing both.2).1.working, (both.1.undoing both.2).2⟩)
  have reversed (target : Target) (member : target ∈ written.reverse) : target ∈ written :=
    List.mem_reverse.mp member
  have dirs : Triple (Undoing targets written directories) (restoreAll written.reverse)
      (fun _ => Undoing targets written directories) (fun _ _ => False) :=
    triple_restoreAll_dirs known written.reverse reversed
  have files := triple_restoreAll distinct known written.reverse [] reversed
    (fun _ member => absurd member List.not_mem_nil)
  refine begun.bind fun _ => ?_
  refine ((files.both dirs).mono (fun _ both => both) (fun _ _ both => both)
    (fun _ _ impossible => impossible.1)).bind fun failed => ?_
  cases failed with
  | true =>
    have cleaned : Triple (Restored targets written []) (Interleaved.forEach cleanDir directories.reverse)
        (fun _ => Restored targets written []) (fun _ _ => False) :=
      Triple.forEach (fun _ => Restored targets written []) _
        (fun dir _ _ => triple_cleanDir_restored [] dir)
    have whole : Triple (Restored targets written [])
        (do Interleaved.forEach cleanDir directories.reverse; return Report.unconfirmed)
        (Ended targets) (fun _ _ => False) :=
      cleaned.map fun _ _ => Restored.unconfirmed
    exact whole.mono (fun state both => ⟨both.1, both.2.phase.targets⟩) (fun _ _ holds => holds)
      (fun _ _ impossible => impossible)
  | false =>
    have cleaned : Triple
        (fun state => Restored targets written written state ∧ Cleaning directories.reverse state)
        (Interleaved.forEach cleanDir directories.reverse)
        (fun _ state => Restored targets written written state ∧ Cleaning [] state)
        (fun _ _ => False) := by
      refine Triple.forEach (fun rest state => Restored targets written written state ∧ Cleaning rest state)
        _ fun dir rest _ => ?_
      exact ((triple_cleanDir_restored written dir).both (triple_cleanDir dir rest)).mono
        (fun _ both => both) (fun _ _ both => both) fun _ _ impossible => impossible.1
    have whole : Triple
        (fun state => Restored targets written written state ∧ Cleaning directories.reverse state)
        (do Interleaved.forEach cleanDir directories.reverse; return Report.raised)
        (Ended targets) (fun _ _ => False) :=
      cleaned.map fun _ _ both => both.1.raised both.2
    refine whole.mono ?_ (fun _ _ holds => holds) fun _ _ impossible => impossible
    intro state both
    have working : Working written written written state :=
      both.1.fewer fun target member => List.mem_append_left _ (List.mem_reverse.mpr member)
    exact ⟨⟨working, both.2.phase.targets⟩, both.2.cleaning working⟩

/-! ## The commit -/

/-- Before the first change. -/
structure Waiting (targets : List Target) (state : State) : Prop where
  applying : Applying targets state
  searching : Searching targets state
  written : state.written = []
  made : state.made = []

theorem Waiting.stable : Stable around (Waiting targets) := by
  intro event state waiting
  refine ⟨applying_stable event state waiting.applying, Searching.stable event state waiting.searching,
    (act_own event state).written.trans waiting.written, ?_⟩
  have step := acted event state
  have made := waiting.made
  change (act event state).made = []
  revert step
  generalize act event state = after
  intro step
  cases step with
  | removeDir dir _ _ _ =>
    change state.made.filter _ = []
    rw [made]
    rfl
  | _ => exact made

theorem Waiting.refused (waiting : Waiting targets state) (report : Report) : Ended targets report state := by
  have kept := waiting.applying.kept
  refine ⟨?_, kept.undone, fun _ _ _ => waiting.made⟩
  intro _ target known free
  refine kept.same target (waiting.applying.targets ▸ known) free ?_
  rw [waiting.written]
  exact List.not_mem_nil

theorem triple_changes (changes : List (Target × Option String))
    (known : ∀ change ∈ changes, change.1 ∈ targets) :
    Triple (fun state => Applying targets state ∧ Searching targets state)
      (do Interleaved.forEach applyChange changes; return Report.applied)
      (Ended targets) (fun _ => Failed targets) := by
  have loop : Triple (fun state => Applying targets state ∧ Searching targets state)
      (Interleaved.forEach applyChange changes)
      (fun _ state => Applying targets state ∧ Searching targets state) (fun _ => Failed targets) := by
    refine Triple.forEach (fun _ state => Applying targets state ∧ Searching targets state) changes
      (fun change rest member => ?_)
    have taken := known change member
    exact ((triple_applyChange taken change.2).both (triple_applyChange_dirs taken change.2)).mono
      (fun _ both => both) (fun _ _ both => both) fun _ _ both => ⟨both.1, both.2.1, both.2.2⟩
  refine loop.map fun _ state both => ⟨?_, both.1.kept.undone, ?_⟩
  · rintro (impossible | impossible)
    · cases impossible
    · cases impossible
  · rintro (impossible | impossible)
    · cases impossible
    · cases impossible

/-- The `except BaseException` clause. -/
theorem triple_failure (distinct : (targets.map Target.path).Nodup) :
    Triple (Failed targets)
      (do
        let (written, directories) <- ownLists
        rollBack written directories)
      (Ended targets) (fun _ _ => False) := by
  intro start failed
  have known (target : Target) (member : target ∈ start.1.written) : target ∈ targets := by
    have applying := failed.applying
    exact applying.targets ▸ applying.kept.known target member
  exact triple_rollBack distinct known start.1.directories start ⟨failed, rfl, rfl⟩

theorem Transaction.target_mem {transaction : Transaction} {name : String} {target : Target}
    (found : transaction.target name = some target) : target ∈ transaction.targets :=
  List.mem_of_find?_eq_some found

theorem triple_commit (transaction : Transaction) (changes : List (String × Option String)) :
    Triple (Waiting transaction.targets) (commit transaction changes) (Ended transaction.targets)
      (fun _ _ => False) := by
  unfold commit
  split
  · exact (Triple.pure Report.refused (Ended transaction.targets) _).mono
      (fun _ waiting => waiting.refused .refused) (fun _ _ holds => holds) fun _ _ holds => holds
  · have checked : Triple (Waiting transaction.targets)
        (Interleaved.forEach checkPreimage transaction.targets)
        (fun _ => Waiting transaction.targets) (fun _ => Waiting transaction.targets) :=
      Triple.forEach (fun _ => Waiting transaction.targets) _
        (fun target _ _ => keeps_of_looks (looks_checkPreimage target) Waiting.stable)
    have known (change : Target × Option String)
        (member : change ∈ changes.filterMap (fun change =>
          (transaction.target change.1).map fun target => (target, change.2))) :
        change.1 ∈ transaction.targets := by
      rcases List.mem_filterMap.mp member with ⟨given, _, found⟩
      rcases Option.map_eq_some_iff.mp found with ⟨target, found, same⟩
      rw [<- same]
      exact Transaction.target_mem found
    have applied := (triple_changes _ known).handling
      (fun _ => triple_failure transaction.distinct)
    have whole := checked.bind (fun _ => applied.mono
      (fun state (waiting : Waiting transaction.targets state) => ⟨waiting.applying, waiting.searching⟩)
      (fun _ _ ended => ended) (fun _ state (impossible : False) =>
        (impossible.elim : Waiting transaction.targets state)))
    exact whole.handling (fun fault =>
      (Triple.pure _ (Ended transaction.targets) _).mono (fun _ waiting => waiting.refused _)
        (fun _ _ holds => holds) fun _ _ holds => holds)

end

/-- A file system when a patch is prepared: it has no temporary file of the
patch, and no file is marked as written since. -/
structure World.Fresh (world : World) : Prop where
  formed : world.WellFormed
  temps : world.temps = []
  unmarked : ∀ path file, world.file path = some file -> file.foreign = false

variable {resolve : String -> Path} {folded : Path -> String} {names : List String}
  {transaction : Transaction}

theorem prepared {world : World} (prepares : prepare resolve folded names world = .ok transaction)
    {target : Target} (known : target ∈ transaction.targets) :
    target.before = preimage world target.path := by
  unfold prepare at prepares
  split at prepares
  · split at prepares
    · cases prepares
    · cases prepares
      rcases List.mem_map.mp known with ⟨name, _, same⟩
      rw [<- same]
  · cases prepares

theorem Transaction.waiting {world : World} (fresh : world.Fresh)
    (prepares : prepare resolve folded names world = .ok transaction) :
    Waiting transaction.targets (transaction.start world) := by
  have nothing {Item : Type} {item : Item} {goal : Prop} (member : item ∈ ([] : List Item)) : goal :=
    absurd member List.not_mem_nil
  have kept : Kept [] (transaction.start world) := by
    refine ⟨transaction.distinct, ?_, ?_, fun _ _ => nothing, fun _ => nothing, fun _ _ => nothing⟩
    · exact fun target known _ _ => (prepared prepares known).symm
    · intro path file found marked
      rw [fresh.unmarked path file found] at marked
      cases marked
  refine ⟨⟨kept, rfl⟩, ⟨⟨⟨fresh.formed, ?_, fun _ => nothing⟩, fun _ _ _ => nothing, fun _ => ?_,
    fun _ before name dir rest split => ?_⟩, ⟨rfl, rfl⟩, fun _ _ => nothing⟩, rfl, rfl⟩
  · intro temp member
    rw [show (transaction.start world).world.temps = [] from fresh.temps] at member
    exact nothing member
  · refine ⟨fun _ _ => nothing, fun _ _ => nothing, fun _ => nothing, fun _ => nothing, ?_⟩
    intro target known image
    rw [prepared prepares known, preimage, ne_eq, Option.map_eq_none_iff] at image
    rcases fresh.formed.placed _ image with ⟨name, dir, same, inside⟩
    rw [same]
    exact ⟨inside, List.not_mem_nil⟩
  · exact absurd split.symm (by simp [Transaction.start])

/-- A commit that raises leaves every target that no other process has touched
as it was.  As long as other processes keep off the paths that the commit takes
up, the rollback deletes and replaces no file of another process; and as long
as they also keep out of the directories that the commit made and nothing keeps
these from being removed, a commit that raises removes them all. -/
theorem commit_all_or_nothing (resolve : String -> Path) (folded : Path -> String) (names : List String)
    (world : World) (transaction : Transaction) (fresh : world.Fresh)
    (prepares : prepare resolve folded names world = .ok transaction)
    (earlier : List Event) (changes : List (String × Option String))
    (turns : List (Interleaved.Turn Event)) :
    ∃ report final unused,
      commit transaction changes (Interleaved.met around earlier (transaction.start world), turns) =
        (.ok report, (final, unused)) ∧
      (report = .refused ∨ report = .raised -> ∀ target ∈ transaction.targets,
        target.path ∉ final.touched -> preimage final.world target.path = preimage world target.path) ∧
      (final.quiet = true -> ∀ file ∈ final.undone, file.foreign = false) ∧
      (report = .refused ∨ report = .raised -> final.quiet = true -> final.tidy = true ->
        final.made = []) := by
  have waiting := Waiting.stable.met earlier _ (transaction.waiting fresh prepares)
  have outcome := triple_commit transaction changes
    (Interleaved.met around earlier (transaction.start world), turns) waiting
  rcases result : commit transaction changes
      (Interleaved.met around earlier (transaction.start world), turns) with ⟨fault | report, final, unused⟩
  · rw [result] at outcome
    exact outcome.elim
  · rw [result] at outcome
    refine ⟨report, final, unused, rfl, ?_, outcome.others, outcome.removed⟩
    intro raised target known free
    rw [outcome.restored raised target known free, prepared prepares known]

/-! ## Two runs in an empty directory -/

def emptyWorld : World := ⟨∅, [[]], []⟩

theorem emptyWorld_fresh : emptyWorld.Fresh := by
  refine ⟨⟨List.mem_singleton_self _, ?_, ?_, fun _ _ => rfl⟩, rfl, ?_⟩
  · intro name dir member
    exact absurd (List.mem_singleton.mp member) (List.cons_ne_nil name dir)
  · exact fun path found => absurd rfl found
  · intro path file found
    cases found

/-- A patch that adds one file. -/
def adding (path : Path) : Transaction :=
  ⟨[⟨"file", path, none⟩], List.nodup_singleton path⟩

def calm : Interleaved.Turn Event := ⟨[], false⟩

/-- The system refuses the temporary file, so the new directory goes again. -/
theorem commit_all_or_nothing_refused :
    ∃ final unused, commit (adding ["file", "new"]) [("file", some "text")]
          ((adding ["file", "new"]).start emptyWorld, [calm, calm, calm, calm, ⟨[], true⟩]) =
        (.ok .raised, (final, unused)) ∧
      preimage final.world ["file", "new"] = none ∧ final.made = [] := by
  rcases commit_all_or_nothing (fun _ => ["file", "new"]) (fun _ => "") ["file"] emptyWorld
      (adding ["file", "new"]) emptyWorld_fresh rfl []
      [("file", some "text")] [calm, calm, calm, calm, ⟨[], true⟩]
    with ⟨report, final, unused, result, restored, _, removed⟩
  have raised : report = .raised := by
    have same := congrArg Prod.fst result
    exact (Except.ok.inj same).symm
  have last : final = (commit (adding ["file", "new"]) [("file", some "text")]
      ((adding ["file", "new"]).start emptyWorld, [calm, calm, calm, calm, ⟨[], true⟩])).2.1 :=
    congrArg (fun outcome => outcome.2.1) result.symm
  refine ⟨final, unused, raised ▸ result, ?_, ?_⟩
  · refine restored (Or.inr raised) ⟨"file", ["file", "new"], none⟩ List.mem_cons_self ?_
    rw [last]
    exact List.not_mem_nil
  · refine removed (Or.inr raised) ?_ ?_
    · rw [last]
      rfl
    · rw [last]
      rfl

/-- Another process creates the file just before the link: the link fails, the
commit raises, and the rollback deletes the file of the other process. -/
theorem rollback_deletes_created_file :
    prepare (fun _ => ["file"]) (fun _ => "") ["file"] emptyWorld = .ok (adding ["file"]) ∧
    ∃ final unused,
      commit (adding ["file"]) [("file", some "text")] ((adding ["file"]).start emptyWorld,
          [calm, calm, calm, calm, calm, calm, ⟨[.write ["file"] (encoded "theirs") 0o644], false⟩]) =
        (.ok .raised, (final, unused)) ∧
      final.undone = [⟨encoded "theirs", 0o644, true⟩] ∧ final.world.file ["file"] = none :=
  ⟨rfl, _, _, rfl, rfl, rfl⟩

end WorkspacePatches
end FixLoop
