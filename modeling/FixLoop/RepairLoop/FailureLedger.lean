import FixLoop.RepairLoop.Verification

namespace FixLoop
namespace RepairLoop

open Library

/-!
# The failure ledger

Each set of patched files is a hypothesis about the fault.  Failed
verifications are recorded against it, and files of negated hypotheses are
not to be changed again.
-/

/-- `list.append` of what is not there yet, for texts that are not empty. -/
def added (known files : List String) : List String :=
  files.foldl (fun known file => if file ≠ "" ∧ file ∉ known then known ++ [file] else known) known

/-- `path.replace("\\", "/")`. -/
def slashed (path : String) : String :=
  String.ofList (path.toList.map fun char => if char = '\\' then '/' else char)

def patchFiles (patches : List CandidatePatch) : List String :=
  added [] (patches.map fun patch => slashed patch.filePath)

section

variable [Texts]

def verifyHash : Option VerificationResult -> String
  | none => ""
  | some result =>
    let logs := Strings.joinLines ((result.failureLogs.take 6).map (Strings.first 220))
    let blob :=
      if Strings.strip logs = "" then "t=" ++ toString result.totalTests ++ ":f=" ++ toString result.failed else logs
    Strings.first 12 (Texts.hexdigest blob)

/-- The line states a failed assertion. -/
def asserts (line : String) : Bool :=
  Strings.includes "assert" (Texts.lower line) || Strings.startsWith "E " line || Strings.includes "Error" line ||
    Strings.includes "FAILED" line

/-- The first four assertions among the lines. -/
def collectAssertions (out : List String) : List String -> List String
  | [] => out
  | line :: rest =>
    let stripped := Strings.strip line
    if stripped = "" then collectAssertions out rest
    else
      let next := if asserts stripped ∧ stripped ∉ out then out ++ [Strings.first 220 stripped] else out
      if 4 ≤ next.length then next else collectAssertions next rest

def assertions (result : Option VerificationResult) : List String :=
  collectAssertions [] (((failureLogs result).take 8).flatMap Strings.splitLines)

end

inductive HypothesisStatus where
  | active
  | negated
  | superseded
deriving DecidableEq

structure Hypothesis where
  id : String
  files : List String := []
  status : HypothesisStatus := .active
  counterexamples : List String := []
  verifyHashes : List String := []
  note : String := ""

/-- What is stored of a hypothesis. -/
def Hypothesis.toDict (hypothesis : Hypothesis) : Hypothesis :=
  { hypothesis with
    counterexamples := hypothesis.counterexamples.take 6
    verifyHashes := hypothesis.verifyHashes.take 6 }

def Hypothesis.negated (reason : String) (hypothesis : Hypothesis) : Hypothesis :=
  { hypothesis with status := .negated, note := reason }

/-- The hypothesis has failed with this hash and these assertions. -/
def Hypothesis.failed (hash : String) (found : List String) (hypothesis : Hypothesis) : Hypothesis :=
  { hypothesis with
    counterexamples :=
      found.foldl (fun known one => if one ∈ known then known else known ++ [one]) hypothesis.counterexamples
    verifyHashes :=
      if hash ≠ "" ∧ hash ∉ hypothesis.verifyHashes then hypothesis.verifyHashes ++ [hash]
      else hypothesis.verifyHashes }

structure FailureLedger where
  nextId : Nat := 1
  hypotheses : List Hypothesis := []
  negatedFiles : List String := []
  regressionFiles : List String := []
  lastVerifyHash : String := ""
  lastBucket : String := ""

namespace FailureLedger

def lastActive : List Hypothesis -> Option Nat
  | [] => none
  | hypothesis :: rest =>
    match lastActive rest with
    | some place => some (place + 1)
    | none => if hypothesis.status = .active then some 0 else none

def active (ledger : FailureLedger) : Option Nat := lastActive ledger.hypotheses

def supersede (hypothesis : Hypothesis) : Hypothesis :=
  if hypothesis.status = .active then { hypothesis with status := .superseded } else hypothesis

/-- The new hypothesis stands in the last place. -/
def openHypothesis (ledger : FailureLedger) (files : List String) (note : String) : FailureLedger :=
  { ledger with
    nextId := ledger.nextId + 1
    hypotheses := ledger.hypotheses.map supersede ++
      [{ id := "H" ++ toString ledger.nextId, files := files, note := note }] }

def filesAt (ledger : FailureLedger) (place : Nat) : List String :=
  ((ledger.hypotheses[place]?).map Hypothesis.files).getD []

def negate (ledger : FailureLedger) (place : Nat) (reason : String) : FailureLedger :=
  { ledger with
    hypotheses := ledger.hypotheses.modify place (Hypothesis.negated reason)
    negatedFiles := added ledger.negatedFiles (ledger.filesAt place) }

def markRegression (ledger : FailureLedger) (files : List String) : FailureLedger :=
  { ledger with
    regressionFiles := added ledger.regressionFiles files
    negatedFiles := added ledger.negatedFiles files }

def noteBucket (ledger : FailureLedger) (bucket : String) : FailureLedger :=
  { ledger with lastBucket := if bucket = "" then ledger.lastBucket else bucket }

/-- `file in ledger.forbidden_files()`. -/
def Forbidden (ledger : FailureLedger) (file : String) : Prop :=
  file ∈ ledger.negatedFiles ∨ file ∈ ledger.regressionFiles

instance (ledger : FailureLedger) (file : String) : Decidable (ledger.Forbidden file) :=
  inferInstanceAs (Decidable (_ ∨ _))

def toDict (ledger : FailureLedger) : FailureLedger :=
  { ledger with
    hypotheses := (ledger.hypotheses.drop (ledger.hypotheses.length - 8)).map Hypothesis.toDict
    negatedFiles := ledger.negatedFiles.take 12
    regressionFiles := ledger.regressionFiles.take 12 }

/-- What is read back; nothing is stored at first. -/
def fromDict : Option FailureLedger -> FailureLedger
  | none => {}
  | some raw => { raw with nextId := if raw.nextId = 0 then 1 else raw.nextId }

/-- The active hypothesis if it is about these files, or else a new one. -/
def hypothesisFor (ledger : FailureLedger) (files : List String) (note : String) : FailureLedger × Nat :=
  match ledger.active with
  | none => (ledger.openHypothesis files note, ledger.hypotheses.length)
  | some place =>
    if (ledger.filesAt place).toFinset = files.toFinset then (ledger, place)
    else (ledger.openHypothesis files note, ledger.hypotheses.length)

def recordFailure (ledger : FailureLedger) (place : Nat) (hash : String) (found : List String) : FailureLedger :=
  { ledger with hypotheses := ledger.hypotheses.modify place (Hypothesis.failed hash found) }

/-- The last two hashes of the hypothesis in the place are there and equal. -/
def stagnant (ledger : FailureLedger) (place : Nat) : Bool :=
  match ((ledger.hypotheses[place]?).map Hypothesis.verifyHashes).map List.reverse with
  | some (last :: previous :: _) => last == previous
  | _ => false

def isActive (ledger : FailureLedger) (place : Nat) : Bool :=
  ((ledger.hypotheses[place]?).map Hypothesis.status) == some .active

/-- The judgement on the hypothesis in the place. -/
def judge (ledger : FailureLedger) (place : Nat) (hash : String) (found : List String) : FailureLedger :=
  let recorded := ledger.recordFailure place hash found
  let judged :=
    if hash ≠ "" ∧ hash = ledger.lastVerifyHash ∧ recorded.isActive place = true then
      recorded.negate place "repeated_counterexample"
    else if recorded.stagnant place then recorded.negate place "stagnant_verify_hash"
    else recorded
  { judged with lastVerifyHash := if hash = "" then ledger.lastVerifyHash else hash }

end FailureLedger

/-- What `record_verify_into_ledger` is called with; the patches are those of
the state. -/
structure Verdict where
  patches : List CandidatePatch
  result : Option VerificationResult
  bucket : String := ""
  isRegression : Bool := false

namespace Verdict

def files (verdict : Verdict) : List String := patchFiles verdict.patches

/-- The patches introduced a regression. -/
def Regresses (verdict : Verdict) : Prop := verdict.isRegression = true ∧ verdict.files ≠ []

instance (verdict : Verdict) : Decidable verdict.Regresses := inferInstanceAs (Decidable (_ ∧ _))

/-- The failure is not one of the patches. -/
def Excused (verdict : Verdict) : Prop := verdict.bucket = "env" ∨ verdict.bucket = "collect"

instance (verdict : Verdict) : Decidable verdict.Excused := inferInstanceAs (Decidable (_ ∨ _))

end Verdict

open FailureLedger

/-- The hypothesis that a failed verification is recorded against. -/
def judged (ledger : FailureLedger) (files : List String) : Option (FailureLedger × Nat) :=
  if files = [] then ledger.active.map (fun place => (ledger, place))
  else some (ledger.hypothesisFor files "patch_attempt")

variable [Texts]

/-- `record_verify_into_ledger`, from the loaded ledger to the returned one. -/
def recordVerifyIntoLedger (loaded : FailureLedger) (verdict : Verdict) : FailureLedger :=
  let ledger := loaded.noteBucket verdict.bucket
  let hash := verifyHash verdict.result
  if verdict.Regresses then
    let chosen := (ledger.markRegression verdict.files).hypothesisFor verdict.files "regression"
    { chosen.1.negate chosen.2 "introduced_regression" with lastVerifyHash := hash }
  else if verdict.Excused then
    { ledger with lastVerifyHash := if hash = "" then ledger.lastVerifyHash else hash }
  else
    match judged ledger verdict.files with
    | none => ledger
    | some chosen => chosen.1.judge chosen.2 hash (assertions verdict.result)

/-- Suspects in files that are not forbidden come first. -/
def shrinkSuspectsForRegression {Suspect : Type} (filePath : Suspect -> String) (suspects : List Suspect)
    (ledger : FailureLedger) : List Suspect :=
  suspects.filter (fun suspect => decide (¬ ledger.Forbidden (slashed (filePath suspect)))) ++
    suspects.filter fun suspect => decide (ledger.Forbidden (slashed (filePath suspect)))

end RepairLoop
end FixLoop
