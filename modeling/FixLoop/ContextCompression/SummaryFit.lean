import FixLoop.Library.JsonDocument
import FixLoop.ContextCompression.Summary

namespace FixLoop
namespace ContextCompression

open Library

/-!
# Summaries that are fitted

A summary that was read is written with fewer items until it fits.  What is
left of it is read again, whatever the counter counts.
-/

/-- The renderings in which values are written as JSON documents. -/
@[reducible] def Rendering.documents (spell : ℚ -> String) (others : Rendering) : Rendering :=
  { others with encode := JsonDocument.encode spell }

@[reducible] def documentDecoding : Decoding := ⟨JsonDocument.decode⟩

/-! ## Summaries that can be read -/

/-- At most 128 texts, none of them blank. -/
def GoodTexts (texts : List String) : Prop :=
  texts.length ≤ 128 ∧ ∀ text ∈ texts, Strings.strip text ≠ ""

structure Summary.Valid (summary : Summary) : Prop where
  confirmedFacts : GoodTexts summary.confirmedFacts
  hypotheses : GoodTexts summary.hypotheses
  rejectedHypotheses : GoodTexts summary.rejectedHypotheses
  filesChanged : GoodTexts summary.filesChanged
  details : GoodTexts summary.details
  evidenceRefs : GoodTexts summary.evidenceRefs
  status : summary.status ∈ ["unknown", "not_run", "passed", "failed"]

variable {texts : List String} {value : Json} {summary : Summary}

theorem GoodTexts.prefixed {fewer : List String} (good : GoodTexts texts) (start : fewer.IsPrefix texts) :
    GoodTexts fewer :=
  ⟨start.length_le.trans good.1, fun text member => good.2 text (start.subset member)⟩

theorem str?_filter {item : Json} {text : String}
    (read : item.str?.filter (fun text => Strings.strip text != "") = some text) :
    item = .str text ∧ Strings.strip text ≠ "" := by
  rcases Option.filter_eq_some_iff.mp read with ⟨found, filled⟩
  refine ⟨?_, bne_iff_ne.mp filled⟩
  cases item with
  | str value => exact congrArg Json.str (Option.some.inj found)
  | _ => cases found

theorem mapM_texts {items : List Json}
    (read : items.mapM (fun item : Json => item.str?.filter fun text => Strings.strip text != "") = some texts) :
    ∀ text ∈ texts, Strings.strip text ≠ "" := by
  induction items generalizing texts with
  | nil =>
    cases read
    exact fun text member => absurd member List.not_mem_nil
  | cons item rest ih =>
    rw [List.mapM_cons] at read
    rcases Option.bind_eq_some_iff.mp read with ⟨first, here, read⟩
    rcases Option.bind_eq_some_iff.mp read with ⟨later, there, made⟩
    cases made
    intro text member
    rcases List.mem_cons.mp member with rfl | listed
    · exact (str?_filter here).2
    · exact ih there text listed

theorem summaryTexts_good (read : summaryTexts value = some texts) : GoodTexts texts := by
  cases value with
  | arr items =>
    rcases Option.filter_eq_some_iff.mp read with ⟨found, short⟩
    exact ⟨of_decide_eq_true short, mapM_texts found⟩
  | _ => cases read

theorem summaryTexts_textList (good : GoodTexts texts) : summaryTexts (textList texts) = some texts := by
  have read : ∀ texts : List String, (∀ text ∈ texts, Strings.strip text ≠ "") ->
      (texts.map Json.str).mapM (fun item : Json => item.str?.filter fun text => Strings.strip text != "") =
        some texts := by
    intro texts filled
    induction texts with
    | nil => rfl
    | cons text rest ih =>
      have here : (Json.str text).str?.filter (fun text => Strings.strip text != "") = some text :=
        Option.filter_eq_some_iff.mpr ⟨rfl, bne_iff_ne.mpr (filled text List.mem_cons_self)⟩
      rw [List.map_cons, List.mapM_cons, here, ih fun other member => filled other (List.mem_cons_of_mem _ member)]
      rfl
  rw [textList, summaryTexts, read texts good.2]
  exact Option.filter_eq_some_iff.mpr ⟨rfl, decide_eq_true good.1⟩

theorem summaryItems_good {key : String} (read : summaryItems value key = .ok texts) : GoodTexts texts := by
  rw [summaryItems] at read
  cases found : (value.get? key).bind summaryTexts with
  | none =>
    rw [found] at read
    cases read
  | some listed =>
    rw [found] at read
    cases read
    rcases Option.bind_eq_some_iff.mp found with ⟨member, _, texts⟩
    exact summaryTexts_good texts

theorem summaryVerification_good {status : String} {details : List String}
    (read : summaryVerification value = .ok (status, details)) :
    status ∈ ["unknown", "not_run", "passed", "failed"] ∧ GoodTexts details := by
  rw [summaryVerification] at read
  split at read
  · split at read
    · next found =>
        split at read
        · next checked =>
            cases read
            rcases Option.bind_eq_some_iff.mp found with ⟨member, _, texts⟩
            exact ⟨List.contains_iff_mem.mp (Bool.and_eq_true_iff.mp checked).2, summaryTexts_good texts⟩
        · cases read
    · cases read
  · cases read

theorem readSummary_ok {offered : Option (List String)} (read : readSummary value offered = .ok summary) :
    summary.Valid ∧ offered.any (fun offered => !summary.evidenceRefs.all offered.contains) = false := by
  rw [readSummary] at read
  split at read
  · cases read
  · rcases Fallible.bind_ok read with ⟨confirmedFacts, first, read⟩
    rcases Fallible.bind_ok read with ⟨hypotheses, second, read⟩
    rcases Fallible.bind_ok read with ⟨rejectedHypotheses, third, read⟩
    rcases Fallible.bind_ok read with ⟨filesChanged, fourth, read⟩
    rcases Fallible.bind_ok read with ⟨evidenceRefs, fifth, read⟩
    rcases Fallible.bind_ok read with ⟨⟨status, details⟩, sixth, read⟩
    rcases Fallible.bind_ok read with ⟨nextAction, _, read⟩
    dsimp only at read
    split at read
    · cases read
    · next offers =>
        cases read
        exact ⟨⟨summaryItems_good first, summaryItems_good second, summaryItems_good third, summaryItems_good fourth,
          (summaryVerification_good sixth).2, summaryItems_good fifth, (summaryVerification_good sixth).1⟩,
          eq_false_of_ne_true offers⟩

theorem parseSummary_ok [Decoding] {text : String} {offered : Option (List String)} {summary : Summary}
    (read : parseSummary text offered = .ok summary) :
    summary.Valid ∧ offered.any (fun offered => !summary.evidenceRefs.all offered.contains) = false := by
  rw [parseSummary] at read
  split at read
  · cases read
  · split at read
    · exact readSummary_ok read
    · cases read

theorem summaryItems_textList {value : Json} {key : String} {texts : List String}
    (found : value.get? key = some (textList texts)) (good : GoodTexts texts) : summaryItems value key = .ok texts := by
  rw [summaryItems, found, Option.bind_some, summaryTexts_textList good]

theorem readSummary_toJson (valid : summary.Valid) : readSummary summary.toJson none = .ok summary := by
  have confirmedFacts := @summaryItems_textList summary.toJson "confirmed_facts" _ rfl valid.confirmedFacts
  have hypotheses := @summaryItems_textList summary.toJson "hypotheses" _ rfl valid.hypotheses
  have rejected := @summaryItems_textList summary.toJson "rejected_hypotheses" _ rfl valid.rejectedHypotheses
  have files := @summaryItems_textList summary.toJson "files_changed" _ rfl valid.filesChanged
  have refs := @summaryItems_textList summary.toJson "evidence_refs" _ rfl valid.evidenceRefs
  have verification : summaryVerification summary.toJson = .ok (summary.status, summary.details) := by
    have member : summary.toJson.get? "verification" =
        some (.obj [("details", textList summary.details), ("status", .str summary.status)]) := rfl
    have details : (Json.get? "details" (.obj [("details", textList summary.details), ("status", .str summary.status)])).bind
        summaryTexts = some summary.details := summaryTexts_textList valid.details
    have status : (Json.get? "status" (.obj [("details", textList summary.details), ("status", .str summary.status)])).bind
        Json.str? = some summary.status := rfl
    rw [summaryVerification, member]
    dsimp only
    rw [details, status]
    exact if_pos (Bool.and_eq_true_iff.mpr ⟨rfl, List.contains_iff_mem.mpr valid.status⟩)
  have nextAction : summaryNextAction summary.toJson = .ok summary.nextAction := rfl
  rw [readSummary, if_neg (by exact Bool.false_ne_true), confirmedFacts, hypotheses, rejected, files, refs,
    verification, nextAction]
  rfl

theorem uniqueKeys_textList (texts : List String) : uniqueKeys (textList texts) = true := by
  have items : ∀ texts : List String, itemsUniqueKeys (texts.map Json.str) = true := by
    intro texts
    induction texts with
    | nil => rfl
    | cons text rest ih => exact ih
  exact items texts

theorem uniqueKeys_toJson (summary : Summary) : uniqueKeys summary.toJson = true := by
  simp [Summary.toJson, uniqueKeys, membersUniqueKeys, uniqueKeys_textList]

theorem numberless_textList (texts : List String) : JsonDocument.Numberless (textList texts) := by
  have items : ∀ texts : List String, JsonDocument.itemsNumberless (texts.map Json.str) := by
    intro texts
    induction texts with
    | nil => exact True.intro
    | cons text rest ih => exact ⟨True.intro, ih⟩
  exact items texts

theorem numberless_toJson (summary : Summary) : JsonDocument.Numberless summary.toJson :=
  ⟨numberless_textList _, numberless_textList _, numberless_textList _, numberless_textList _, True.intro,
    numberless_textList _, ⟨numberless_textList _, True.intro, True.intro⟩, True.intro⟩

theorem sorted_textList (texts : List String) : JsonDocument.sorted (textList texts) = textList texts := by
  have items : ∀ texts : List String, JsonDocument.sortedItems (texts.map Json.str) = texts.map Json.str := by
    intro texts
    induction texts with
    | nil => rfl
    | cons text rest ih => exact congrArg (List.cons (Json.str text)) ih
  exact congrArg Json.arr (items texts)

/-- The fields of a summary stand in the order of their names. -/
theorem sorted_toJson (summary : Summary) : JsonDocument.sorted summary.toJson = summary.toJson := by
  have pair : List.Pairwise (fun left right : String × Json => left.1 ≤ right.1)
      [("details", textList summary.details), ("status", .str summary.status)] := by
    simp
  have all : List.Pairwise (fun left right : String × Json => left.1 ≤ right.1)
      [("confirmed_facts", textList summary.confirmedFacts), ("evidence_refs", textList summary.evidenceRefs),
        ("files_changed", textList summary.filesChanged), ("hypotheses", textList summary.hypotheses),
        ("next_action", .str summary.nextAction), ("rejected_hypotheses", textList summary.rejectedHypotheses),
        ("verification", .obj [("details", textList summary.details), ("status", .str summary.status)])] := by
    simp
  simp only [Summary.toJson, JsonDocument.sorted, JsonDocument.sortedMembers, sorted_textList]
  rw [List.Pairwise.insertionSort_eq pair, List.Pairwise.insertionSort_eq all]

/-- What is written of a valid summary is read as that summary. -/
theorem parseSummary_encode (valid : summary.Valid) (spell : ℚ -> String) :
    @parseSummary documentDecoding (JsonDocument.encode spell summary.toJson) none = .ok summary := by
  have read := @JsonDocument.decode_encode spell _ (numberless_toJson summary) (sorted_toJson summary)
  unfold parseSummary
  rw [show @Decoding.loads documentDecoding (JsonDocument.encode spell summary.toJson) = some summary.toJson from read]
  exact (if_pos (uniqueKeys_toJson summary)).trans (readSummary_toJson valid)

/-! ## What is dropped -/

/-- The summary without its items. -/
def Summary.emptied (summary : Summary) : Summary :=
  ⟨[], [], [], [], summary.status, [], "", []⟩

/-- The number of items that one summary has more than another. -/
def Summary.removed (summary rest : Summary) : Nat :=
  (summary.hypotheses.length - rest.hypotheses.length) +
    (summary.rejectedHypotheses.length - rest.rejectedHypotheses.length) +
    (summary.filesChanged.length - rest.filesChanged.length) +
    (summary.confirmedFacts.length - rest.confirmedFacts.length) +
    (if rest.nextAction = summary.nextAction then 0 else 1) + (summary.details.length - rest.details.length) +
    (summary.evidenceRefs.length - rest.evidenceRefs.length)

/-- The second summary is left of the first: every list is a beginning, the
next action is kept or emptied, and references are dropped only when nothing
else is left. -/
structure Summary.Left (summary rest : Summary) : Prop where
  confirmedFacts : rest.confirmedFacts.IsPrefix summary.confirmedFacts
  hypotheses : rest.hypotheses.IsPrefix summary.hypotheses
  rejectedHypotheses : rest.rejectedHypotheses.IsPrefix summary.rejectedHypotheses
  filesChanged : rest.filesChanged.IsPrefix summary.filesChanged
  details : rest.details.IsPrefix summary.details
  evidenceRefs : rest.evidenceRefs.IsPrefix summary.evidenceRefs
  nextAction : rest.nextAction = summary.nextAction ∨ rest.nextAction = ""
  status : rest.status = summary.status
  last : rest.evidenceRefs ≠ summary.evidenceRefs ->
    rest = { summary.emptied with evidenceRefs := rest.evidenceRefs }

namespace Summary.Left

variable {summary less rest : Summary}

theorem refl (summary : Summary) : summary.Left summary where
  confirmedFacts := List.prefix_refl _
  hypotheses := List.prefix_refl _
  rejectedHypotheses := List.prefix_refl _
  filesChanged := List.prefix_refl _
  details := List.prefix_refl _
  evidenceRefs := List.prefix_refl _
  nextAction := Or.inl rfl
  status := rfl
  last := fun dropped => absurd rfl dropped

theorem valid (left : summary.Left rest) (valid : summary.Valid) : rest.Valid where
  confirmedFacts := valid.confirmedFacts.prefixed left.confirmedFacts
  hypotheses := valid.hypotheses.prefixed left.hypotheses
  rejectedHypotheses := valid.rejectedHypotheses.prefixed left.rejectedHypotheses
  filesChanged := valid.filesChanged.prefixed left.filesChanged
  details := valid.details.prefixed left.details
  evidenceRefs := valid.evidenceRefs.prefixed left.evidenceRefs
  status := left.status ▸ valid.status

/-- What is dropped is what the weights differ by. -/
theorem removed_eq (left : summary.Left rest) : summary.removed rest + rest.weight = summary.weight := by
  have facts := left.confirmedFacts.length_le
  have hypotheses := left.hypotheses.length_le
  have rejected := left.rejectedHypotheses.length_le
  have files := left.filesChanged.length_le
  have details := left.details.length_le
  have refs := left.evidenceRefs.length_le
  have action : (if rest.nextAction = summary.nextAction then 0 else 1) + (if rest.nextAction = "" then 0 else 1) =
      if summary.nextAction = "" then 0 else 1 := by
    rcases left.nextAction with same | emptied
    · rw [same, if_pos rfl, Nat.zero_add]
    · rw [emptied, if_pos rfl, Nat.add_zero]
      by_cases empty : summary.nextAction = ""
      · rw [if_pos empty.symm, if_pos empty]
      · rw [if_neg (fun same => empty same.symm), if_neg empty]
  rw [Summary.removed, Summary.weight, Summary.weight]
  omega

end Summary.Left

/-- References are as they were while anything else is left. -/
theorem Summary.Left.evidence_kept {rest : Summary} (left : summary.Left rest)
    (filled : rest.hypotheses ≠ [] ∨ rest.rejectedHypotheses ≠ [] ∨ rest.filesChanged ≠ [] ∨ rest.confirmedFacts ≠ [] ∨ rest.nextAction ≠ "" ∨ rest.details ≠ []) :
    rest.evidenceRefs = summary.evidenceRefs := by
  by_contra dropped
  rw [left.last dropped] at filled
  rcases filled with filled | filled | filled | filled | filled | filled
  all_goals exact filled rfl

/-- One more item is dropped from what is left. -/
theorem Summary.shrink_left {rest less : Summary} (left : summary.Left rest)
    (shrunk : rest.shrink = some less) : summary.Left less := by
  have shorter : ∀ {texts whole : List String}, texts.IsPrefix whole -> texts.dropLast.IsPrefix whole :=
    fun start => (List.dropLast_prefix _).trans start
  rw [Summary.shrink] at shrunk
  split_ifs at shrunk with hypotheses rejected files facts nextAction details refs
  all_goals cases shrunk
  · exact { left with
      hypotheses := shorter left.hypotheses
      last := fun dropped => absurd (left.evidence_kept (.inl hypotheses)) dropped }
  · exact { left with
      rejectedHypotheses := shorter left.rejectedHypotheses
      last := fun dropped => absurd (left.evidence_kept (.inr (.inl rejected))) dropped }
  · exact { left with
      filesChanged := shorter left.filesChanged
      last := fun dropped => absurd (left.evidence_kept (.inr (.inr (.inl files)))) dropped }
  · exact { left with
      confirmedFacts := shorter left.confirmedFacts
      last := fun dropped => absurd (left.evidence_kept (.inr (.inr (.inr (.inl facts))))) dropped }
  · exact { left with
      nextAction := Or.inr rfl
      last := fun dropped => absurd (left.evidence_kept (.inr (.inr (.inr (.inr (.inl nextAction)))))) dropped }
  · exact { left with
      details := shorter left.details
      last := fun dropped => absurd (left.evidence_kept (.inr (.inr (.inr (.inr (.inr details)))))) dropped }
  · refine { left with evidenceRefs := shorter left.evidenceRefs, last := fun _ => ?_ }
    simp only [ne_eq, not_not] at hypotheses rejected files facts nextAction details
    rw [Summary.emptied, hypotheses, rejected, files, facts, nextAction, details, left.status]

/-- A summary that cannot be shrunk is empty. -/
theorem Summary.shrink_none (minimal : summary.shrink = none) : summary = summary.emptied := by
  rw [Summary.shrink] at minimal
  split_ifs at minimal with hypotheses rejected files facts nextAction details refs
  simp only [ne_eq, not_not] at hypotheses rejected files facts nextAction details refs
  cases summary
  simp only at hypotheses rejected files facts nextAction details refs
  subst hypotheses rejected files facts nextAction details refs
  rfl

section Rendered

variable [Rendering] {budget : Budget} {limit : Int}

theorem fitLoop_returned {summary rest : Summary} {fuel dropped total : Nat} {text : String}
    (left : summary.Left rest) (counted : dropped + rest.weight = summary.weight)
    (returned : fitLoop budget limit fuel rest dropped = .ok (text, total)) :
    ∃ fitted, summary.Left fitted ∧ total + fitted.weight = summary.weight ∧
      text = Rendering.encode fitted.toJson ∧ budget.count text ≤ limit := by
  induction fuel generalizing rest dropped with
  | zero =>
    rw [fitLoop.eq_def] at returned
    dsimp only at returned
    split at returned
    · next fits =>
        cases returned
        exact ⟨rest, left, counted, rfl, fits⟩
    · split at returned
      · next impossible => cases impossible
      · cases returned
  | succ fuel ih =>
    rw [fitLoop.eq_def] at returned
    dsimp only at returned
    split at returned
    · next fits =>
        cases returned
        exact ⟨rest, left, counted, rfl, fits⟩
    · cases shrunk : rest.shrink with
      | none =>
        rw [shrunk] at returned
        cases returned
      | some less =>
        rw [shrunk] at returned
        have lighter := Summary.shrink_weight shrunk
        exact ih (Summary.shrink_left left shrunk) (by omega) returned

/-- What cannot be shrunk and does not fit is the empty summary. -/
theorem minimum_large {summary rest : Summary} (left : summary.Left rest) (minimal : rest.shrink = none)
    (large : ¬budget.count (Rendering.encode rest.toJson) ≤ limit) :
    limit < budget.count (Rendering.encode summary.emptied.toJson) := by
  have same : rest = summary.emptied := by
    rw [Summary.shrink_none minimal, Summary.emptied, Summary.emptied, left.status]
  rw [<- same]
  exact not_le.mp large

/-- With enough fuel, a loop that raises has found the empty summary too large. -/
theorem fitLoop_raised {summary rest : Summary} {fuel dropped : Nat} {fault : Fault}
    (left : summary.Left rest) (enough : rest.weight ≤ fuel)
    (raised : fitLoop budget limit fuel rest dropped = .error fault) :
    fault = .value "summary_minimum_over_budget" ∧
      limit < budget.count (Rendering.encode summary.emptied.toJson) := by
  induction fuel generalizing rest dropped with
  | zero =>
    rw [fitLoop.eq_def] at raised
    dsimp only at raised
    split at raised
    · cases raised
    · next large =>
        cases shrunk : rest.shrink with
        | none =>
          rw [shrunk] at raised
          cases raised
          exact ⟨rfl, minimum_large left shrunk large⟩
        | some less =>
          have lighter := Summary.shrink_weight shrunk
          exact absurd enough (by omega)
  | succ fuel ih =>
    rw [fitLoop.eq_def] at raised
    dsimp only at raised
    split at raised
    · cases raised
    · next large =>
        cases shrunk : rest.shrink with
        | none =>
          rw [shrunk] at raised
          cases raised
          exact ⟨rfl, minimum_large left shrunk large⟩
        | some less =>
          rw [shrunk] at raised
          have lighter := Summary.shrink_weight shrunk
          exact ih (Summary.shrink_left left shrunk) (by omega) raised

end Rendered

/-- Any fuel from the weight on leads to the end of the loop.  A result fits,
is the document of what is left of the summary, and counts what was dropped;
an error means that the empty summary does not fit. -/
structure FitsSoundly (spell : ℚ -> String) (others : Rendering) (budget : Budget) (limit : Int)
    (summary : Summary) : Prop where
  ends : ∀ fuel, summary.weight ≤ fuel ->
    @fitLoop (Rendering.documents spell others) budget limit fuel summary 0 =
      @fitSummary (Rendering.documents spell others) summary budget limit
  fits : ∀ text dropped,
    @fitSummary (Rendering.documents spell others) summary budget limit = .ok (text, dropped) ->
    budget.count text ≤ limit ∧
      ∃ rest, @parseSummary documentDecoding text none = .ok rest ∧ summary.Left rest ∧
        dropped = summary.removed rest
  raises : ∀ fault,
    @fitSummary (Rendering.documents spell others) summary budget limit = .error fault ->
    fault = .value "summary_minimum_over_budget" ∧
      limit < budget.count (JsonDocument.encode spell summary.emptied.toJson)

/-- Every summary that was read is fitted soundly, under every counter and
limit. -/
theorem fitSummary_sound (spell : ℚ -> String) (others : Rendering) (budget : Budget) (limit : Int) (text : String)
    (offeredRefs : Option (List String)) (summary : Summary)
    (accepted : @parseSummary documentDecoding text offeredRefs = .ok summary) :
    FitsSoundly spell others budget limit summary where
  ends := by
    intro fuel enough
    rcases Nat.exists_eq_add_of_le enough with ⟨more, rfl⟩
    exact @fitLoop_enough (Rendering.documents spell others) budget limit _ summary (Nat.le_refl _) more 0
  fits := by
    intro fitted dropped returned
    rcases @fitLoop_returned (Rendering.documents spell others) budget limit summary summary _ 0 dropped fitted
      (Summary.Left.refl summary) (Nat.zero_add _) returned with ⟨rest, left, counted, rfl, small⟩
    have valid := left.valid (@parseSummary_ok documentDecoding _ _ _ accepted).1
    have removed := left.removed_eq
    exact ⟨small, rest, parseSummary_encode valid spell, left, by omega⟩
  raises := fun fault raised =>
    @fitLoop_raised (Rendering.documents spell others) budget limit summary summary _ 0 fault
      (Summary.Left.refl summary) (Nat.le_refl _) raised

/-- A summary with a hypothesis and a reference. -/
def shortSummary : Summary :=
  ⟨["the parser fails"], ["a missing case"], [], [], "failed", [], "read the parser", ["obs-1"]⟩

theorem shortSummary_valid : shortSummary.Valid where
  confirmedFacts := ⟨by decide, by decide +kernel⟩
  hypotheses := ⟨by decide, by decide +kernel⟩
  rejectedHypotheses := ⟨by decide, by decide +kernel⟩
  filesChanged := ⟨by decide, by decide +kernel⟩
  details := ⟨by decide, by decide +kernel⟩
  evidenceRefs := ⟨by decide, by decide +kernel⟩
  status := by decide

theorem shortSummary_fitted :
    FitsSoundly (fun _ => "0.5") Rendering.spelled Budget.bytes 200 shortSummary :=
  fitSummary_sound (fun _ => "0.5") Rendering.spelled Budget.bytes 200
    (JsonDocument.encode (fun _ => "0.5") shortSummary.toJson) none shortSummary
    (parseSummary_encode shortSummary_valid _)

end ContextCompression
end FixLoop
