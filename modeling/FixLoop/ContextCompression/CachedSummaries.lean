import FixLoop.ContextCompression.AutoCompact

namespace FixLoop
namespace ContextCompression

open Library

/-!
# Calls of L5 that share a cache

A call asks for a summary under a key that is made from part of the old
history.  Calls that share a cache have the results that they would have
without it, as long as the summarizer answers alike whenever two of them ask
under one key.
-/

section Shared

variable [Rendering] [Decoding] (summarizer : Summarizer)

/-- The results of calls one after another. -/
def sharedResults : SummaryCache -> List CompactCall -> List (Except Exit (List Item))
  | _, [] => []
  | cache, call :: rest =>
    let step := l5AutoCompact call (some summarizer) cache
    step.1 :: sharedResults step.2 rest

/-- The result of a call with an empty cache. -/
def freshResult (call : CompactCall) : Except Exit (List Item) :=
  (l5AutoCompact call (some summarizer) []).1

/-- The key under which a call asks for a summary, and its prompt. -/
def CompactCall.request? (call : CompactCall) : Option (String × String) :=
  match call.prepare with
  | .ok (some compaction) =>
    match call.prompt compaction summarizer.inputLimit with
    | .ok (some (prompt, _, _)) => some (compaction.cacheKey, prompt)
    | _ => none
  | _ => none

/-- Where two calls ask under one key, the summarizer answers their prompts
alike. -/
def AnswersAlike (earlier later : CompactCall) : Prop :=
  ∀ key first second, earlier.request? summarizer = some (key, first) ->
    later.request? summarizer = some (key, second) -> summarizer.call first = summarizer.call second

/-- A cached text is the answer to a prompt for which one of the calls asked
under its key. -/
def Answered (calls : List CompactCall) (cache : SummaryCache) : Prop :=
  ∀ key raw, (key, raw) ∈ cache -> ∃ call prompt,
    call ∈ calls ∧ call.request? summarizer = some (key, prompt) ∧ summarizer.call prompt = .ok raw

variable {summarizer}

variable {cache : SummaryCache} {call : CompactCall}

section

omit [Rendering] [Decoding]

/-- How the cache changes the answer to a prompt. -/
theorem summaryText_hit {key raw : String} (prompt : String) (found : cache.lookup key = some raw) :
    summaryText (some summarizer) cache key prompt = (.ok raw, cache) := by
  simp only [summaryText, found]

theorem summaryText_miss {cache : SummaryCache} {key : String} (prompt : String)
    (missing : cache.lookup key = none) :
    (summaryText (some summarizer) cache key prompt).1 = summarizer.call prompt ∧
      ((summaryText (some summarizer) cache key prompt).2 = cache ∨
        ∃ raw, summarizer.call prompt = .ok raw ∧
          (summaryText (some summarizer) cache key prompt).2 = (key, raw) :: cache) := by
  simp only [summaryText, missing]
  cases answered : summarizer.call prompt with
  | error exit => exact ⟨rfl, Or.inl rfl⟩
  | ok raw =>
    refine ⟨rfl, ?_⟩
    dsimp only
    split
    · exact Or.inl rfl
    · exact Or.inr ⟨raw, rfl, rfl⟩

theorem mem_of_lookup {key raw : String} (found : cache.lookup key = some raw) : (key, raw) ∈ cache := by
  induction cache with
  | nil => cases found
  | cons entry rest ih =>
    rw [List.lookup_cons] at found
    split at found
    · rename_i same
      cases found
      rw [beq_iff_eq.mp same]
      exact List.mem_cons_self
    · exact List.mem_cons_of_mem _ (ih found)

end

/-- A call whose answer does not depend on the cache has the result that it
has without one; what it adds to the cache is the answer to its prompt. -/
theorem l5AutoCompact_cached
    (same : ∀ key prompt, call.request? summarizer = some (key, prompt) -> (summaryText (some summarizer) cache key prompt).1 = summarizer.call prompt) :
    (l5AutoCompact call (some summarizer) cache).1 = freshResult summarizer call ∧
      ((l5AutoCompact call (some summarizer) cache).2 = cache ∨
        ∃ key prompt, call.request? summarizer = some (key, prompt) ∧
          (l5AutoCompact call (some summarizer) cache).2 =
            (summaryText (some summarizer) cache key prompt).2) := by
  cases prepared : call.prepare with
  | error fault =>
    simp only [freshResult, l5AutoCompact, prepared]
    exact ⟨True.intro, Or.inl True.intro⟩
  | ok plan =>
    cases plan with
    | none =>
      simp only [freshResult, l5AutoCompact, prepared]
      exact ⟨True.intro, Or.inl True.intro⟩
    | some compaction =>
      cases asked : call.prompt compaction summarizer.inputLimit with
      | error fault =>
        simp only [freshResult, l5AutoCompact, prepared, CompactCall.attempt, Option.bind_some, asked]
        exact ⟨True.intro, Or.inl True.intro⟩
      | ok built =>
        cases built with
        | none =>
          simp only [freshResult, l5AutoCompact, prepared, CompactCall.attempt, Option.bind_some,
            asked]
          exact ⟨True.intro, Or.inl True.intro⟩
        | some parts =>
          rcases parts with ⟨prompt, refs, omittedGroups⟩
          have requested : call.request? summarizer = some (compaction.cacheKey, prompt) := by
            simp only [CompactCall.request?, prepared, asked]
          have alike := same compaction.cacheKey prompt requested
          have fresh := (@summaryText_miss summarizer [] compaction.cacheKey prompt rfl).1
          simp only [freshResult, l5AutoCompact, prepared, CompactCall.attempt, Option.bind_some,
            asked, alike, fresh]
          cases outcome : summarizer.call prompt >>= fun raw =>
              raising (call.summarized compaction refs omittedGroups raw) with
          | ok result => exact ⟨rfl, Or.inr ⟨_, prompt, requested, rfl⟩⟩
          | error exit =>
            cases exit with
            | cancelled | raised fault => exact ⟨rfl, Or.inr ⟨_, prompt, requested, rfl⟩⟩

/-! ## Runs of calls -/

/-- A call that answers alike with all calls behind the cache reads the answer
to its own prompt. -/
theorem answered_same {calls : List CompactCall} (answered : Answered summarizer calls cache)
    (alike : ∀ earlier ∈ calls, AnswersAlike summarizer earlier call) :
    ∀ key prompt, call.request? summarizer = some (key, prompt) ->
      (summaryText (some summarizer) cache key prompt).1 = summarizer.call prompt := by
  intro key prompt requested
  cases found : cache.lookup key with
  | none => exact (summaryText_miss prompt found).1
  | some raw =>
    rcases answered key raw (mem_of_lookup found) with ⟨earlier, first, listed, asked, same⟩
    rw [summaryText_hit prompt found]
    exact same.symm.trans (alike earlier listed key first prompt asked requested)

theorem answered_step {calls : List CompactCall} (answered : Answered summarizer calls cache)
    (alike : ∀ earlier ∈ calls, AnswersAlike summarizer earlier call) :
    Answered summarizer (calls ++ [call]) (l5AutoCompact call (some summarizer) cache).2 := by
  have kept : Answered summarizer (calls ++ [call]) cache := by
    intro key raw member
    rcases answered key raw member with ⟨earlier, prompt, listed, rest⟩
    exact ⟨earlier, prompt, List.mem_append_left _ listed, rest⟩
  rcases (l5AutoCompact_cached (answered_same answered alike)).2 with same | ⟨key, prompt, asked, added⟩
  · rw [same]
    exact kept
  · rw [added]
    cases found : cache.lookup key with
    | some raw =>
      rw [summaryText_hit prompt found]
      exact kept
    | none =>
      rcases (summaryText_miss prompt found).2 with same | ⟨raw, answer, entered⟩
      · rw [same]
        exact kept
      · rw [entered]
        refine fun other text member => ?_
        rcases List.mem_cons.mp member with new | old
        · cases new
          exact ⟨call, prompt, List.mem_append_right _ List.mem_cons_self, asked, answer⟩
        · exact kept other text old

theorem sharedResults_from {before calls : List CompactCall} {cache : SummaryCache}
    (answered : Answered summarizer before cache)
    (alike : (before ++ calls).Pairwise (AnswersAlike summarizer)) :
    sharedResults summarizer cache calls = calls.map (freshResult summarizer) := by
  induction calls generalizing before cache with
  | nil => rfl
  | cons call rest ih =>
    have earlier : ∀ other ∈ before, AnswersAlike summarizer other call :=
      fun other member => (List.pairwise_append.mp alike).2.2 other member call List.mem_cons_self
    have step := (l5AutoCompact_cached (answered_same answered earlier)).1
    rw [List.append_cons] at alike
    rw [sharedResults, List.map_cons, step, ih (answered_step answered earlier) alike]

end Shared

section Witness

/-- A decoder that knows one summary, which says nothing. -/
@[reducible] def Decoding.emptySummary : Decoding :=
  ⟨fun text => if text = "none" then some (Summary.mk [] [] [] [] "unknown" [] "" []).toJson else none⟩

attribute [local instance] Rendering.spelled Decoding.emptySummary

/-- A summarizer that answers only short prompts with a summary. -/
def shortSummarizer : Summarizer :=
  ⟨none, fun prompt => .ok (if prompt.utf8ByteSize < 1022 then "none" else "too long")⟩

def saidBy (role content : String) : Item :=
  [("role", .str role), ("content", .str content)]

/-- A call over a history in which somebody says yes. -/
def callAbout (role : String) : CompactCall :=
  { history := [saidBy "user" "a", saidBy "user" "go?", saidBy role "yes", saidBy "user" "b",
      saidBy "user" "c"],
    budget := ⟨6000, fun _ => 0, fun text _ => text⟩, triggerTokens := some (-1),
    historyWindow := some 6000, currentTurnId := none, allowSummary := true }

def summarySize (result : Except Exit (List Item)) : Option Nat :=
  (result.toOption.bind List.head?).map fun item => item.content.utf8ByteSize

end Witness

end ContextCompression
end FixLoop
