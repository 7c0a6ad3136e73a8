import Mathlib.Data.Finset.Lattice.Lemmas
import FixLoop.Library.Strings

namespace FixLoop
namespace RepairLoop

open Library

/-!
# Candidate patches and failed verifications

What the rounds of the repair loop report, and the two digests by which
rounds are compared.
-/

/-- Hexadecimal SHA-256 of the UTF-8 encoding, and `str.lower`.  Nothing is
known of either. -/
class Texts where
  hexdigest : String -> String
  lower : String -> String

structure CandidatePatch where
  filePath : String
  originalLines : String
  patchedLines : String
  diff : String
  explanation : String := ""
  baseSha256 : String := ""
  schemaVersion : String := "1.0"

structure VerificationResult where
  allPassed : Bool := false
  totalTests : Int := 0
  passed : Int := 0
  failed : Int := 0
  error : Int := 0
  failureLogs : List String := []
  buildLog : String := ""
  lintIssues : List String := []
  schemaVersion : String := "2.0"
  verificationMode : String := "tests"
  executionStatus : String := "unverified"

/-! ## Diagnosis -/

inductive VerifyBucket where
  | env
  | collect
  | logic
  | unknown
deriving DecidableEq

def ENV_MARKERS : List String :=
  ["verify_config:", "未收集到任何测试", "sandbox pip install failed", "sandbox upload did not complete",
    "sandbox upload did not finish", "mkdir: unrecognized option", "ModuleNotFoundError", "ImportError:",
    "No module named", "ImproperlyConfigured", "DJANGO_SETTINGS_MODULE", "django.conf",
    "Settings are not configured", "ExecutableNotFound", "Could not find platform independent libraries"]

def COLLECT_MARKERS : List String :=
  ["ERROR collecting", "collected 0 items", "no tests ran", "ImportPathMismatchError", "during collection"]

def LOGIC_MARKERS : List String :=
  ["AssertionError", "assert ", " FAILED", "FAILED ", "E       assert", "E   assert"]

def joinedLogs (result : VerificationResult) : String :=
  Strings.joinLines (result.failureLogs ++ if result.buildLog = "" then [] else [result.buildLog])

/-- `marker.rstrip(":")`. -/
def withoutColons (marker : String) : String :=
  String.ofList (marker.toList.reverse.dropWhile fun char => char == ':').reverse

section

variable [Texts]

/-- `diagnose_verification`: the bucket and the reason.  The failed test ids and
the guidance go into the next prompt only. -/
def diagnoseVerification : Option VerificationResult -> VerifyBucket × String
  | none => (.unknown, "no_result")
  | some result =>
    if result.allPassed then (.logic, "passed")
    else
      let text := joinedLogs result
      let emptyCollect := result.totalTests == 0
      if Strings.includesAny ENV_MARKERS text ||
          (emptyCollect && Strings.includesAny ["pip", "docker", "sandbox"] (Texts.lower text)) then
        (.env, ((ENV_MARKERS.find? fun marker => Strings.includes marker text).map withoutColons).getD
          "env_or_verify_config")
      else if Strings.includesAny LOGIC_MARKERS text || decide (0 < result.failed) then (.logic, "test_assertion")
      else if emptyCollect || Strings.includesAny COLLECT_MARKERS text then (.collect, "collect_error")
      else (.unknown, "unclassified")

/-! ## Digests -/

/-- The fields of a patch are texts, which `_as_text` leaves alone. -/
def patchFingerprint (patch : CandidatePatch) : String :=
  Strings.first 16 (Texts.hexdigest
    (Strings.joinLines [patch.filePath, patch.diff, patch.originalLines, patch.patchedLines]))

def hashVerifyLogs (logs : List String) : String :=
  if logs.isEmpty then ""
  else Strings.first 16 (Texts.hexdigest (Strings.joinLines ((logs.take 5).map (Strings.first 200))))

/-- The failure logs, none where there is no result. -/
def failureLogs (result : Option VerificationResult) : List String :=
  (result.map VerificationResult.failureLogs).getD []

end

/-!
# Stopping losses

`StopLossTracker` decides after every round of the repair loop whether
another attempt is worth its cost.
-/

inductive StopLossReason where
  | identicalPatch
  | identicalVerify
  | applyThrash
  | parseThrash
  | noProgress
  | env
deriving DecidableEq

structure Meta where
  noProgressCount : Nat
  requiredNextAction : String
  allowedNextActions : List String
  forbidRepeatedReads : Bool
  controlSignal : String

structure StopLossDecision where
  stop : Bool
  reason : Option StopLossReason := none
  progress : Bool := false
  hint : String := ""
  details : Option Meta := none

def noProgressMeta (streak : Nat) : Meta where
  noProgressCount := streak
  requiredNextAction := if 3 ≤ streak then "stop_repeated_reads_and_replan" else "write_patch_or_expand_context"
  allowedNextActions :=
    if 3 ≤ streak then ["write_patch", "replan", "terminate"] else ["write_patch", "expand_context", "replan"]
  forbidRepeatedReads := decide (2 ≤ streak)
  controlSignal := if streak = 2 then "soft_warning" else "hard_stop"

structure Thresholds where
  identicalPatchThreshold : Nat := 2
  identicalVerifyThreshold : Nat := 3
  applyThrashThreshold : Nat := 2
  parseThrashThreshold : Nat := 2
  noProgressThreshold : Nat := 2
  envThreshold : Nat := 2

/-- A tracker is made with its thresholds; its other fields begin empty. -/
structure StopLossTracker extends Thresholds where
  seenFps : Finset String := ∅
  lastFps : Finset String := ∅
  lastVerifyHash : String := ""
  identicalPatchStreak : Nat := 0
  identicalVerifyStreak : Nat := 0
  emptyStreak : Nat := 0
  applyFailStreak : Nat := 0
  parseFailStreak : Nat := 0
  noProgressStreak : Nat := 0
  envStreak : Nat := 0
  attempts : Nat := 0

namespace StopLossTracker

def countEmpty (tracker : StopLossTracker) (applyFailed : Bool) : StopLossTracker :=
  { tracker with
    attempts := tracker.attempts + 1
    emptyStreak := tracker.emptyStreak + 1
    noProgressStreak := tracker.noProgressStreak + 1
    identicalPatchStreak := 0
    lastFps := ∅
    applyFailStreak := if applyFailed then tracker.applyFailStreak + 1 else 0
    parseFailStreak := if applyFailed then 0 else tracker.parseFailStreak + 1 }

/-- The decision of `record_empty_patch`, read off the new counters. -/
def judgeEmpty (tracker : StopLossTracker) : StopLossDecision :=
  if tracker.applyThrashThreshold ≤ tracker.applyFailStreak then
    { stop := true
      reason := some .applyThrash
      hint := "连续 " ++ toString tracker.applyFailStreak ++ " 次补丁无法落盘。" ++
        "停止重复同一 apply 路径；请改用 grounded read + patch_file。" }
  else if tracker.parseThrashThreshold ≤ tracker.parseFailStreak then
    { stop := true
      reason := some .parseThrash
      hint := "连续 " ++ toString tracker.parseFailStreak ++ " 次未产出可解析补丁。停止空转；需先探索再编辑。"
      details := some (noProgressMeta tracker.noProgressStreak) }
  else if tracker.noProgressThreshold ≤ tracker.noProgressStreak then
    { stop := true
      reason := some .noProgress
      hint := "连续多回合无有效补丁进展，触发止损。"
      details := some (noProgressMeta tracker.noProgressStreak) }
  else { stop := false }

def recordEmptyPatch (tracker : StopLossTracker) (applyFailed : Bool) : StopLossTracker × StopLossDecision :=
  (tracker.countEmpty applyFailed, (tracker.countEmpty applyFailed).judgeEmpty)

variable [Texts]

/-- The fingerprints of a round; the sorted tuple of the source stands for the
set. -/
def fingerprints (patches : List CandidatePatch) : Finset String := (patches.map patchFingerprint).toFinset

/-- Something is new in a verification failure: a fingerprint, or, but for
failures of the environment, a failure hash other than the last one. -/
def progresses (tracker : StopLossTracker) (fps : Finset String) (verifyHash : String) (bucket : VerifyBucket) : Bool :=
  decide (¬ fps ⊆ tracker.seenFps) ||
    (decide (verifyHash ≠ "" ∧ verifyHash ≠ tracker.lastVerifyHash) && decide (bucket ≠ .env))

/-- The counters after a failed verification of patches with these
fingerprints. -/
def countFailure (tracker : StopLossTracker) (fps : Finset String) (verifyHash : String) (bucket : VerifyBucket) :
    StopLossTracker :=
  { tracker with
    attempts := tracker.attempts + 1
    emptyStreak := 0
    applyFailStreak := 0
    parseFailStreak := 0
    seenFps := tracker.seenFps ∪ fps
    identicalPatchStreak :=
      if fps ≠ ∅ ∧ fps = tracker.lastFps then tracker.identicalPatchStreak + 1 else if fps ≠ ∅ then 1 else 0
    lastFps := fps
    identicalVerifyStreak :=
      if verifyHash ≠ "" ∧ verifyHash = tracker.lastVerifyHash then tracker.identicalVerifyStreak + 1
      else if verifyHash ≠ "" then 1 else 0
    lastVerifyHash := verifyHash
    envStreak := if bucket = .env then tracker.envStreak + 1 else 0
    noProgressStreak :=
      if tracker.attempts = 0 ∨ tracker.progresses fps verifyHash bucket = true then 0
      else tracker.noProgressStreak + 1 }

/-- The decision of `record_verify_failure`, read off the new counters. -/
def judgeFailure (tracker : StopLossTracker) (reason : String) (progress : Bool) : StopLossDecision :=
  if tracker.envThreshold ≤ tracker.envStreak then
    { stop := true
      reason := some .env
      hint := "连续 " ++ toString tracker.envStreak ++ " 次验证环境失败（" ++ reason ++ "），停止继续改业务补丁。" }
  else if 3 ≤ tracker.noProgressStreak then
    { stop := true
      reason := some .noProgress
      hint := "连续 " ++ toString tracker.noProgressStreak ++ " 回合无新补丁且验证失败面不变。" ++
        "停止重复读取；请直接写补丁、换假设或扩展检索。"
      details := some (noProgressMeta tracker.noProgressStreak) }
  else if tracker.identicalPatchThreshold ≤ tracker.identicalPatchStreak then
    { stop := true
      reason := some .identicalPatch
      hint := "连续 " ++ toString tracker.identicalPatchStreak ++ " 次产出相同补丁指纹。" ++
        "停止重复 diff；换文件、换断言相关表达式或先 read_file 再改。" }
  else if tracker.identicalVerifyThreshold ≤ tracker.identicalVerifyStreak then
    { stop := true
      reason := some .identicalVerify
      hint := "连续 " ++ toString tracker.identicalVerifyStreak ++ " 次相同验证失败。" ++
        "冷却已无效，触发止损以免空烧预算。" }
  else if tracker.noProgressThreshold ≤ tracker.noProgressStreak then
    { stop := false
      reason := some .noProgress
      hint := "连续 " ++ toString tracker.noProgressStreak ++ " 回合无新补丁且验证失败面不变。" ++
        "请停止重复读取，改为写补丁或切换假设。"
      details := some (noProgressMeta tracker.noProgressStreak) }
  else { stop := false, progress := progress }

def recordVerifyFailure (tracker : StopLossTracker) (result : Option VerificationResult)
    (patches : List CandidatePatch) : StopLossTracker × StopLossDecision :=
  let fps := fingerprints patches
  let verifyHash := hashVerifyLogs (failureLogs result)
  let diagnosis := diagnoseVerification result
  let counted := tracker.countFailure fps verifyHash diagnosis.1
  (counted, counted.judgeFailure diagnosis.2
    (tracker.attempts == 0 || tracker.progresses fps verifyHash diagnosis.1))

end StopLossTracker

end RepairLoop
end FixLoop
