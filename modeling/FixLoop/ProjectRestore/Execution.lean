import FixLoop.ProjectRestore.Plan

namespace FixLoop
namespace ProjectRestore

open Library

/-!
# Restore plans under POSIX

`change` as `_posix_change` makes it.  The service owns the tree: what it needs
for a change are the permissions of the owner of the directories above a path.
-/

def Entries.set (path : Path) (entry : Entry) : Entries -> Entries
  | [] => [(path, entry)]
  | first :: rest => if first.1 = path then (path, entry) :: rest else first :: set path entry rest

def Entries.without (path : Path) (entries : Entries) : Entries :=
  entries.filter fun entry => entry.1 ≠ path

/-- The directory can be opened, and names in it can be looked up. -/
def searchable : Option Entry -> Bool
  | some (.directory mode) => mode &&& 0o500 == 0o500
  | _ => false

/-- Names can be made in the directory and removed from it. -/
def changeable : Option Entry -> Bool
  | some (.directory mode) => mode &&& 0o300 == 0o300
  | _ => false

/-- `change`: the directories above the path are opened, the entry of the path is
compared with the expected one, and it is replaced. -/
def posixChange (tree : Entries) (step : RestoreStep) : Except String Entries :=
  if (parents step.path).any (fun parent => !searchable (tree.get parent)) then .error "OSError"
  else if tree.get step.path ≠ step.before then .error "workspace changed after restore preview"
  else if step.before = step.after then .ok tree
  else
    match step.before, step.after with
    | some (.directory _), some (.directory mode) => .ok (tree.set step.path (.directory mode))
    | old, new =>
      if (parents step.path).getLast?.any (fun parent => !changeable (tree.get parent)) then .error "OSError"
      else if old.any Entry.isDirectory = true ∧
          tree.any (fun entry => (parents entry.1).contains step.path) = true then
        .error "OSError"
      else
        match new with
        | none => .ok (tree.without step.path)
        | some entry => .ok (tree.set step.path entry)

theorem Entries.get_set (path other : Path) (entry : Entry) (entries : Entries) :
    (entries.set path entry).get other = if other = path then some entry else entries.get other := by
  induction entries with
  | nil =>
    rw [Entries.set, Entries.get_cons]
    by_cases here : other = path
    · rw [if_pos here.symm, if_pos here]
    · rw [if_neg (Ne.symm here), if_neg here]
  | cons first rest ih =>
    rw [show first = (first.1, first.2) from rfl, Entries.get_cons]
    by_cases here : first.1 = path
    · rw [Entries.set, if_pos here, Entries.get_cons, here]
      by_cases same : path = other
      · rw [if_pos same, if_pos same.symm]
      · rw [if_neg same, if_neg (Ne.symm same), if_neg same]
    · rw [Entries.set, if_neg here, Entries.get_cons, ih]
      by_cases same : other = path
      · subst same
        rw [if_neg here, if_pos rfl, if_pos rfl]
      · rw [if_neg same, if_neg same]

theorem Entries.get_without (path other : Path) (entries : Entries) :
    (entries.without path).get other = if other = path then none else entries.get other := by
  induction entries with
  | nil => simp [Entries.without, Entries.get]
  | cons first rest ih =>
    unfold Entries.without at ih ⊢
    rw [List.filter_cons, show first = (first.1, first.2) from rfl, Entries.get_cons]
    by_cases here : first.1 = path
    · rw [if_neg (by simp [here]), ih, here]
      by_cases same : other = path
      · rw [if_pos same, if_pos same]
      · rw [if_neg same, if_neg same, if_neg (Ne.symm same)]
    · rw [if_pos (by simp [here]), Entries.get_cons, ih]
      by_cases same : other = path
      · subst same
        rw [if_neg here, if_pos rfl, if_pos rfl]
      · rw [if_neg same, if_neg same]

/-- The owner of a directory with all of its permissions has some of them. -/
theorem ownerAccess_part (part : Nat) {mode : Nat} (access : (Entry.directory mode).ownerAccess = true)
    (within : 0o700 &&& part = part) : mode &&& part = part := by
  have all : mode &&& 0o700 = 0o700 := beq_iff_eq.mp access
  rw [← within, ← Nat.and_assoc, all]

section Execution

variable {tree : Entries} {step : RestoreStep}

/-- A step that the tree is ready for succeeds. -/
theorem posixChange_ready (ready : Ready true tree.get step) : ∃ after,
    posixChange tree step = .ok after ∧ after.get = Function.update tree.get step.path step.after := by
  have reached : (parents step.path).any (fun parent => !searchable (tree.get parent)) = false := by
    rw [List.any_eq_false]
    intro parent above
    rcases ready.above parent above with ⟨mode, directory, access⟩
    have part := ownerAccess_part 0o500 (access rfl) rfl
    simp [directory, searchable, part]
  have opened : (parents step.path).getLast?.any (fun parent => !changeable (tree.get parent)) = false := by
    cases last : (parents step.path).getLast? with
    | none => rfl
    | some parent =>
      rcases ready.above parent (List.mem_of_getLast? last) with ⟨mode, directory, access⟩
      have part := ownerAccess_part 0o300 (access rfl) rfl
      simp [directory, changeable, part]
  have kept : ∀ entry : Entry, step.after = some entry ->
      (tree.set step.path entry).get = Function.update tree.get step.path step.after := by
    intro entry wanted
    funext path
    rw [Entries.get_set, wanted, Function.update_apply]
  unfold posixChange
  rw [if_neg (by rw [reached]; exact Bool.false_ne_true), if_neg (not_not.mpr ready.current)]
  by_cases same : step.before = step.after
  · rw [if_pos same]
    refine ⟨tree, rfl, ?_⟩
    rw [← same, ← ready.current, Function.update_eq_self]
  rw [if_neg same]
  split
  · rename_i mode _ wanted
    exact ⟨_, rfl, kept _ wanted⟩
  rename_i moves
  have empty : ¬ (step.before.any Entry.isDirectory = true ∧
      tree.any (fun entry => (parents entry.1).contains step.path) = true) := by
    rintro ⟨directory, occupied⟩
    rcases List.any_eq_true.mp occupied with ⟨entry, member, below⟩
    have leaves : step.after.any Entry.isDirectory = false := by
      cases wanted : step.after with
      | none => rfl
      | some entry =>
        cases entry with
        | file => rfl
        | directory mode =>
          cases present : step.before with
          | none =>
            rw [present] at directory
            cases directory
          | some old =>
            cases old with
            | directory other => exact (moves other mode present wanted).elim
            | file =>
              rw [present] at directory
              cases directory
    have missing := ready.empty directory leaves entry.1 (List.contains_iff_mem.mp below)
    exact Entries.get_eq_none.mp missing (List.mem_map_of_mem member)
  rw [if_neg (by rw [opened]; exact Bool.false_ne_true), if_neg empty]
  split
  · rename_i wanted
    refine ⟨_, rfl, ?_⟩
    funext path
    rw [Entries.get_without, wanted, Function.update_apply]
  · rename_i entry wanted
    exact ⟨_, rfl, kept _ wanted⟩

/-- Steps that are made in trees that are ready for them succeed. -/
theorem posixChange_run {steps : List RestoreStep} (ready : Performs true tree.get steps) :
    ∃ after, steps.foldlM posixChange tree = .ok after ∧ after.get = performed tree.get steps := by
  induction steps generalizing tree with
  | nil => exact ⟨tree, rfl, rfl⟩
  | cons step rest ih =>
    rcases posixChange_ready (ready [] step rest rfl) with ⟨middle, changed, shape⟩
    have later : Performs true middle.get rest := by
      intro done next others split
      rw [shape]
      exact ready (step :: done) next others (by rw [split]; rfl)
    rcases ih later with ⟨after, made, final⟩
    refine ⟨after, ?_, ?_⟩
    · rw [List.foldlM_cons, changed]
      exact made
    · rw [final, shape]
      rfl

end Execution

section Example

attribute [local instance] EditLock.asciiLettering

def manifestOf (entries : List (String × Json)) : Json :=
  .obj [("policy", .str "workbench-files-v1"), ("root_identity", .arr [.int 1, .int 2]),
    ("entries", .obj entries)]

def directoryOf (mode : Int) : Json := .obj [("kind", .str "directory"), ("mode", .int mode)]

/-- A directory without the permission to write, with a directory in it. -/
def closedManifest : Json := manifestOf [("a", directoryOf 0o500), ("a/b", directoryOf 0o700)]

def emptyFile : Json :=
  .obj [("kind", .str "file"), ("mode", .int 0o644), ("size", .int 0), ("digest", .str "e3b0")]

def fileManifest : Json := manifestOf [("a", emptyFile)]

def emptyBlobs : Json -> Except String Nat := fun _ => .ok 0

def closedEntries : Entries := [("a".toList, .directory 0o500), ("a/b".toList, .directory 0o700)]

def fileEntries : Entries := [("a".toList, .file 0o644 0 "e3b0")]

end Example

end ProjectRestore
end FixLoop
