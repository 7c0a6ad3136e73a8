import FixLoop.ContextCompression.SummaryFit

namespace FixLoop
namespace ContextCompression

open Library

/-!
# Prompts for summaries

The groups of a prompt are selected one by one, and each selection is measured
as a whole, with the references and the number of omissions that it has.  The
prompt that is returned is one that was measured.
-/

structure PromptReport where
  inputGroups : Int
  selectedGroups : Int
  omittedGroups : Int
  inputTokens : Int
  offeredRefs : Nat
  selectedRefs : Nat

section Rendered

variable [Rendering] {groups : List (List Item)} {previous : List Summary} {budget : Budget} {limit : Int}

/-- The end of `build_summary_prompt`. -/
def reported (groups : List (List Item)) (seen : List String) (budget : Budget) (previous : List Summary)
    (selected : List Nat) (rendered : String × List String) : String × List String × PromptReport :=
  (rendered.1, rendered.2,
    { inputGroups := groups.length
      selectedGroups := selected.length
      omittedGroups := (groups.length : Int) - selected.length
      inputTokens := budget.count rendered.1
      offeredRefs := (seen ++ previous.flatMap Summary.evidenceRefs).eraseDups.length
      selectedRefs := rendered.2.length })

/-- `build_summary_prompt`, with its report. -/
def reportSummaryPrompt (history : List Item) (budget : Budget) (limit : Int) (previous : List Summary) :
    Except Fault (String × List String × PromptReport) := do
  let groups ← interactionGroups history
  let seen ← evidenceRefs history
  let (prompt, _) ← renderPrompt groups previous []
  if limit < budget.count prompt then throw (.value "summary_input_over_budget")
  let priority := (List.range groups.length).insertionSort (fun left right =>
    sooner (tellsFailure groups) left right = true)
  let selected ← selectGroups groups previous budget limit [] priority
  let rendered ← renderPrompt groups previous selected
  if !groups.isEmpty && selected.isEmpty then throw (.value "summary_no_complete_interaction_fits")
  return reported groups seen budget previous selected rendered

/-- What the pipeline uses of it. -/
theorem buildSummaryPrompt_report (history : List Item) (budget : Budget) (limit : Int) (previous : List Summary) :
    buildSummaryPrompt history budget limit previous =
      (reportSummaryPrompt history budget limit previous).map (fun reported =>
        (reported.1, reported.2.1, reported.2.2.omittedGroups)) := by
  rw [buildSummaryPrompt, reportSummaryPrompt]
  cases interactionGroups history with
  | error fault => rfl
  | ok groups =>
    cases evidenceRefs history with
    | error fault => rfl
    | ok seen =>
      change (renderPrompt groups previous [] >>= _) = Except.map _ (renderPrompt groups previous [] >>= _)
      cases renderPrompt groups previous [] with
      | error fault => rfl
      | ok measured =>
        change (if limit < budget.count measured.1 then _ else _) = Except.map _ (if limit < budget.count measured.1 then _ else _)
        split
        · rfl
        · cases selectGroups groups previous budget limit [] _ with
          | error fault => rfl
          | ok selected =>
            change (renderPrompt groups previous selected >>= _) =
              Except.map _ (renderPrompt groups previous selected >>= _)
            cases renderPrompt groups previous selected with
            | error fault => rfl
            | ok rendered =>
              change (if (!groups.isEmpty && selected.isEmpty) = true then _ else _) =
                Except.map _ (if (!groups.isEmpty && selected.isEmpty) = true then _ else _)
              split
              · rfl
              · rfl

omit [Rendering] in
theorem selectedGroups_sublist (groups : List (List Item)) (selected : List Nat) :
    List.Sublist (selectedGroups groups selected) groups := by
  have kept := List.Sublist.map Prod.fst
    (@List.filter_sublist _ (fun entry : List Item × Nat => selected.contains entry.2) groups.zipIdx)
  rwa [List.zipIdx_map_fst] at kept

omit [Rendering] in
theorem length_selectedGroups {selected : List Nat} (distinct : selected.Nodup)
    (within : ∀ index ∈ selected, index < groups.length) :
    (selectedGroups groups selected).length = selected.length := by
  have indices : (groups.zipIdx.filter fun entry => selected.contains entry.2).map Prod.snd =
      (List.range' 0 groups.length).filter selected.contains := by
    rw [<- List.zipIdx_map_snd, List.filter_map]
    rfl
  have same : ((List.range' 0 groups.length).filter selected.contains).Perm selected := by
    refine (List.perm_ext_iff_of_nodup (List.Nodup.filter _ List.nodup_range') distinct).mpr fun index => ?_
    rw [List.mem_filter, List.mem_range'_1, List.contains_iff_mem]
    exact ⟨fun found => found.2, fun member => ⟨⟨Nat.zero_le _, by rw [Nat.zero_add]; exact within index member⟩, member⟩⟩
  rw [selectedGroups, List.length_map, <- same.length_eq, <- indices, List.length_map]

/-- What is selected fits. -/
def Measured (groups : List (List Item)) (previous : List Summary) (budget : Budget) (limit : Int)
    (selected : List Nat) : Prop :=
  ∃ rendered, renderPrompt groups previous selected = .ok rendered ∧ budget.count rendered.1 ≤ limit

/-- The selection adds some of the indices that are left, and what it ends with
was measured. -/
theorem selectGroups_measured {left selected final : List Nat} (measured : Measured groups previous budget limit selected)
    (chosen : selectGroups groups previous budget limit selected left = .ok final) :
    Measured groups previous budget limit final ∧ ∃ added, final = selected ++ added ∧ added.Sublist left := by
  induction left generalizing selected with
  | nil =>
    cases chosen
    exact ⟨measured, [], (List.append_nil _).symm, List.Sublist.slnil⟩
  | cons index rest ih =>
    rw [selectGroups] at chosen
    rcases Fallible.bind_ok chosen with ⟨rendered, tried, chosen⟩
    split at chosen
    · rcases ih measured chosen with ⟨fits, added, rfl, part⟩
      exact ⟨fits, added, rfl, part.cons index⟩
    · next fits =>
        rcases ih ⟨rendered, tried, not_lt.mp fits⟩ chosen with ⟨fits, added, rfl, part⟩
        exact ⟨fits, index :: added, by rw [List.append_assoc]; rfl, part.cons_cons index⟩

/-- A prompt of complete groups in their order.  It fits, it offers the
references of its groups and of the previous summaries once each, and a summary
that is read with them cites no others. -/
structure PromptOf (history : List Item) (budget : Budget) (limit : Int) (previous : List Summary)
    (groups : List (List Item)) (selected : List Nat) (prompt : String) (refs : List String)
    (report : PromptReport) : Prop where
  grouped : interactionGroups history = .ok groups ∧ groups.flatten = history
  ordered : List.Sublist (selectedGroups groups selected) groups
  rendered : prompt = summaryInstructions ++ "\nINPUT_JSON:\n" ++ Rendering.encode (.obj
    [("interactions", .arr ((selectedGroups groups selected).map groupJson)), ("offered_evidence_refs", textList refs),
      ("omitted_interactions", .int report.omittedGroups), ("previous_summaries", .arr (previous.map Summary.toJson))])
  offered : ∃ found, evidenceRefs (selectedGroups groups selected).flatten = .ok found ∧
    refs = (found ++ previous.flatMap Summary.evidenceRefs).eraseDups
  fits : report.inputTokens = budget.count prompt ∧ report.inputTokens ≤ limit
  counted : report.inputGroups = groups.length ∧ report.selectedGroups = (selectedGroups groups selected).length ∧
    report.selectedGroups + report.omittedGroups = report.inputGroups
  cited : ∀ (decoding : Decoding) (text : String) (summary : Summary),
    @parseSummary decoding text (some refs) = .ok summary -> ∀ ref ∈ summary.evidenceRefs, ref ∈ refs

/-- Every prompt that is returned is one of complete groups that fits. -/
theorem reportSummaryPrompt_sound {history : List Item} {prompt : String} {refs : List String} {report : PromptReport}
    (returned : reportSummaryPrompt history budget limit previous = .ok (prompt, refs, report)) :
    ∃ groups selected,
      PromptOf history budget limit previous groups selected prompt refs report := by
  rw [reportSummaryPrompt] at returned
  rcases Fallible.bind_ok returned with ⟨groups, grouped, returned⟩
  rcases Fallible.bind_ok returned with ⟨seen, _, returned⟩
  rcases Fallible.bind_ok returned with ⟨first, measured, returned⟩
  dsimp only at returned
  split at returned
  · cases returned
  next small =>
  rcases Fallible.bind_ok returned with ⟨selected, chosen, returned⟩
  rcases Fallible.bind_ok returned with ⟨last, rendered, returned⟩
  split at returned
  · cases returned
  cases returned
  rcases selectGroups_measured ⟨first, measured, not_lt.mp small⟩ chosen with ⟨⟨again, same, fits⟩, added, joined, part⟩
  rw [List.nil_append] at joined
  subst joined
  cases rendered.symm.trans same
  have perm := List.perm_insertionSort (fun left right => sooner (tellsFailure groups) left right = true)
    (List.range groups.length)
  have distinct : selected.Nodup := part.nodup (perm.nodup_iff.mpr List.nodup_range)
  have within : ∀ index ∈ selected, index < groups.length :=
    fun index member => List.mem_range.mp (perm.mem_iff.mp (part.subset member))
  rw [renderPrompt] at rendered
  cases found : evidenceRefs (selectedGroups groups selected).flatten with
  | error fault =>
    rw [found] at rendered
    cases rendered
  | ok own =>
    rw [found] at rendered
    cases rendered
    refine ⟨groups, selected, ⟨grouped, (interactionGroups_ok grouped).1⟩, selectedGroups_sublist groups selected, rfl,
      ⟨own, found, rfl⟩, ⟨rfl, fits⟩, ⟨rfl, ?_, add_sub_cancel _ _⟩, ?_⟩
    · exact congrArg Nat.cast (length_selectedGroups distinct within).symm
    · intro decoding text summary read ref member
      have offers := (@parseSummary_ok decoding _ _ _ read).2
      rw [Option.any_some, Bool.not_eq_false'] at offers
      exact List.contains_iff_mem.mp (List.all_eq_true.mp offers ref member)

end Rendered

def failedMessage : Item := [("role", .str "user"), ("content", .str "FAILED"), ("evidence_ref", .str "obs-1")]

theorem failedMessage_prompted : ∃ returned,
    @reportSummaryPrompt Rendering.spelled [failedMessage] Budget.bytes 6000 [] = .ok returned ∧
      ∃ groups selected,
        @PromptOf Rendering.spelled [failedMessage] Budget.bytes 6000 [] groups selected returned.1 returned.2.1
          returned.2.2 := by
  have ran : (@reportSummaryPrompt Rendering.spelled [failedMessage] Budget.bytes 6000 []).toBool = true := by
    decide +kernel
  cases ended : @reportSummaryPrompt Rendering.spelled [failedMessage] Budget.bytes 6000 [] with
  | error fault =>
    rw [ended] at ran
    cases ran
  | ok returned =>
    exact ⟨returned, rfl, @reportSummaryPrompt_sound Rendering.spelled [] Budget.bytes 6000 [failedMessage] _ _ _ ended⟩

end ContextCompression
end FixLoop
