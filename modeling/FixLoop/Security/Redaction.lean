import FixLoop.DurableMemory.Redaction
import FixLoop.Library.Json

namespace FixLoop
namespace Security

open Library Scanning
open EditLock (Text)
open DurableMemory (redactText redactedMark secretRule)

/-!
# Redaction of secrets

The values are replaced one after the other, so a value that overlaps another
one may be cut before its turn.  Where no two of them overlap in a text, each
is replaced by the mark, in whatever order they are listed.
-/

/-- A text as plain characters and secrets. -/
inductive Piece where
  | plain (char : Char)
  | secret (value : Text)

def render : List Piece -> Text
  | [] => []
  | .plain char :: rest => char :: render rest
  | .secret value :: rest => value ++ render rest

/-- The text with the mark in place of each secret. -/
def blanked : List Piece -> Text
  | [] => []
  | .plain char :: rest => char :: blanked rest
  | .secret _ :: rest => redactedMark ++ blanked rest

/-- The pieces with the mark in place of one value. -/
def hide (value : Text) : List Piece -> List Piece
  | [] => []
  | .plain char :: rest => .plain char :: hide value rest
  | .secret other :: rest =>
    if other = value then redactedMark.map .plain ++ hide value rest else .secret other :: hide value rest

/-- The value begins nowhere but at its own pieces. -/
def Apart (value : Text) : List Piece -> Prop
  | [] => True
  | .plain char :: rest => ¬ value.IsPrefix (char :: render rest) ∧ Apart value rest
  | .secret other :: rest => (∀ tail, tail ≠ [] -> tail.IsSuffix other -> (tail = other -> other ≠ value) ->
      ¬ value.IsPrefix (tail ++ render rest)) ∧ Apart value rest

/-- A value is longer than four characters and shares none with the mark. -/
def Secret (value : Text) : Prop := 4 < value.length ∧ ∀ char ∈ value, char ∉ redactedMark

/-- No two occurrences of listed values overlap in the text. -/
def NoOverlap (values : List Text) (text : Text) : Prop :=
  ∀ i j first second, first ∈ values -> second ∈ values -> first.IsPrefix (text.drop i) ->
    second.IsPrefix (text.drop j) -> i ≤ j -> j < i + first.length -> i = j ∧ first = second

variable {value other : Text} {pieces : List Piece}

theorem Secret.nonempty (secret : Secret value) : value ≠ [] := by
  rintro rfl
  exact absurd secret.1 (by decide)

theorem redactedMark_eq : redactedMark = ['<', 'r', 'e', 'd', 'a', 'c', 't', 'e', 'd', '>'] := by
  decide

theorem render_marks (rest : List Piece) :
    render (redactedMark.map .plain ++ rest) = redactedMark ++ render rest := by
  rw [redactedMark_eq]
  rfl

theorem blanked_marks (rest : List Piece) :
    blanked (redactedMark.map .plain ++ rest) = redactedMark ++ blanked rest := by
  rw [redactedMark_eq]
  rfl

theorem render_append (first second : List Piece) : render (first ++ second) = render first ++ render second := by
  induction first with
  | nil => rfl
  | cons piece rest ih => cases piece <;> simp only [List.cons_append, render, ih, List.append_assoc]

theorem blanked_append (first second : List Piece) :
    blanked (first ++ second) = blanked first ++ blanked second := by
  induction first with
  | nil => rfl
  | cons piece rest ih => cases piece <;> simp only [List.cons_append, blanked, ih, List.append_assoc]

/-! ## One value -/

theorem rewrite_free {tail rest : Text} (free : ∀ end_, end_ ≠ [] -> end_.IsSuffix tail ->
    ¬ value.IsPrefix (end_ ++ rest)) :
    rewrite (secretRule value) 0 (tail ++ rest) = tail ++ rewrite (secretRule value) 0 rest := by
  induction tail with
  | nil => rfl
  | cons char tail ih =>
    have here := free (char :: tail) (List.cons_ne_nil _ _) List.suffix_rfl
    rw [List.cons_append, rewrite_unmatched, ih, List.cons_append]
    · intro end_ filled ends
      exact free end_ filled (ends.trans (List.suffix_cons _ _))
    · rw [secretRule, if_neg]
      exact fun opens => here (List.isPrefixOf_iff_prefix.mp opens)

/-- Where a value begins at its own pieces only, redaction hides these. -/
theorem rewrite_render (filled : value ≠ []) (apart : Apart value pieces) :
    rewrite (secretRule value) 0 (render pieces) = render (hide value pieces) := by
  induction pieces with
  | nil => rfl
  | cons piece rest ih =>
    cases piece with
    | plain char =>
      rw [hide, render, render, rewrite_unmatched, ih apart.2]
      rw [secretRule, if_neg]
      exact fun opens => apart.1 (List.isPrefixOf_iff_prefix.mp opens)
    | secret other =>
      have later := ih apart.2
      rw [hide, render]
      by_cases same : other = value
      · subst same
        rw [if_pos rfl, render_marks, <- later]
        cases other with
        | nil => exact absurd rfl filled
        | cons char more =>
          have matched : secretRule (char :: more) (char :: (more ++ render rest)) =
              some (redactedMark, (char :: more).length) := by
            rw [secretRule, if_pos]
            exact List.isPrefixOf_iff_prefix.mpr (List.prefix_append _ _)
          rw [List.cons_append, rewrite_match matched (by simp), <- List.cons_append, List.drop_left]
      · rw [if_neg same, render, <- later]
        exact rewrite_free fun end_ nonempty ends => apart.1 end_ nonempty ends fun _ => same

/-- What avoids the mark does not begin anew where a value is hidden. -/
theorem prefix_render_hide {part : Text} (avoids : ∀ char ∈ part, char ∉ redactedMark) (before : Text)
    (opens : part.IsPrefix (before ++ render (hide value pieces))) : part.IsPrefix (before ++ render pieces) := by
  induction pieces generalizing before with
  | nil => exact opens
  | cons piece rest ih =>
    cases piece with
    | plain char =>
      rw [hide, render, List.append_cons] at opens
      rw [render, List.append_cons]
      exact ih _ opens
    | secret other =>
      rw [hide] at opens
      split at opens
      · rcases List.prefix_or_prefix_of_prefix opens (List.prefix_append before _) with short | long
        · exact short.trans (List.prefix_append _ _)
        · rcases long with ⟨tail, rfl⟩
          cases tail with
          | nil => simp
          | cons char tail =>
            have first := (List.prefix_append_right_inj before).mp opens
            have marked : char = '<' := (List.cons_prefix_cons.mp first).1
            exact absurd (by rw [marked]; decide) (avoids char (by simp))
      · rw [render, <- List.append_assoc] at opens ⊢
        exact ih _ opens

theorem apart_hide (secret : Secret other) (apart : Apart other pieces) : Apart other (hide value pieces) := by
  have marks : ∀ (mark : Text) (rest : List Piece), (∀ char ∈ mark, char ∈ redactedMark) ->
      Apart other rest -> Apart other (mark.map .plain ++ rest) := by
    intro mark rest listed apart
    induction mark with
    | nil => exact apart
    | cons char mark ih =>
      refine ⟨fun opens => ?_, ih fun char member => listed char (List.mem_cons_of_mem _ member)⟩
      cases whole : other with
      | nil => exact secret.nonempty whole
      | cons first more =>
        rw [whole] at opens
        have same := (List.cons_prefix_cons.mp opens).1
        exact secret.2 first (by simp [whole]) (same ▸ listed char List.mem_cons_self)
  induction pieces with
  | nil => exact apart
  | cons piece rest ih =>
    cases piece with
    | plain char =>
      exact ⟨fun opens => apart.1 (prefix_render_hide secret.2 [char] opens), ih apart.2⟩
    | secret there =>
      have later := ih apart.2
      rw [hide]
      split
      · exact marks _ _ (fun _ member => member) later
      · exact ⟨fun tail filled ends proper opens =>
          apart.1 tail filled ends proper (prefix_render_hide secret.2 tail opens), later⟩

theorem mem_hide {kept : Text} (member : .secret kept ∈ hide value pieces) : .secret kept ∈ pieces ∧ kept ≠ value := by
  induction pieces with
  | nil => cases member
  | cons piece rest ih =>
    cases piece with
    | plain char =>
      rw [hide, List.mem_cons] at member
      rcases member with impossible | member
      · cases impossible
      · exact ⟨List.mem_cons_of_mem _ (ih member).1, (ih member).2⟩
    | secret there =>
      rw [hide] at member
      split at member
      · rcases List.mem_append.mp member with mark | member
        · simp at mark
        · exact ⟨List.mem_cons_of_mem _ (ih member).1, (ih member).2⟩
      next other =>
        rcases List.mem_cons.mp member with same | member
        · cases same
          exact ⟨List.mem_cons_self, other⟩
        · exact ⟨List.mem_cons_of_mem _ (ih member).1, (ih member).2⟩

theorem blanked_hide : blanked (hide value pieces) = blanked pieces := by
  induction pieces with
  | nil => rfl
  | cons piece rest ih =>
    cases piece with
    | plain char => rw [hide, blanked, blanked, ih]
    | secret there =>
      rw [hide]
      split
      · rw [blanked_marks, blanked, ih]
      · rw [blanked, blanked, ih]

/-! ## All values -/

/-- Every listed piece is blanked. -/
theorem redactText_render {values : List Text} (secret : ∀ value ∈ values, Secret value)
    (apart : ∀ value ∈ values, Apart value pieces)
    (listed : ∀ value, .secret value ∈ pieces -> value ∈ values) :
    redactText values (render pieces) = blanked pieces := by
  induction values generalizing pieces with
  | nil =>
    clear secret apart
    induction pieces with
    | nil => rfl
    | cons piece rest ih =>
      cases piece with
      | plain char => exact congrArg (List.cons char) (ih fun value member => listed value (List.mem_cons_of_mem _ member))
      | secret value => exact absurd (listed value List.mem_cons_self) List.not_mem_nil
  | cons value values ih =>
    have here := secret value List.mem_cons_self
    rw [redactText, List.foldl_cons, if_pos here.1, rewrite_render here.nonempty (apart value List.mem_cons_self),
      <- @blanked_hide value pieces]
    refine ih (fun other member => secret other (List.mem_cons_of_mem _ member)) ?_ ?_
    · intro other member
      have later := List.mem_cons_of_mem value member
      exact apart_hide (secret other later) (apart other later)
    · intro other member
      rcases mem_hide member with ⟨there, different⟩
      exact (List.mem_cons.mp (listed other there)).resolve_left different

section

variable {values : List Text} {text rest : Text} (clear_ : NoOverlap values text)

include clear_

theorem NoOverlap.drop (count : Nat) : NoOverlap values (text.drop count) := by
  intro i j first second listed also opens later order inside
  rw [List.drop_drop] at opens later
  have both := clear_ (count + i) (count + j) first second listed also opens later (by omega) (by omega)
  exact ⟨by omega, both.2⟩

theorem NoOverlap.of_prefix {before : Text} (begins : before.IsPrefix text) : NoOverlap values before := by
  rcases begins with ⟨after, rfl⟩
  intro i j first second listed also opens later
  have longer (part : Text) (place : Nat) (there : part.IsPrefix (before.drop place)) :
      part.IsPrefix ((before ++ after).drop place) := by
    rw [List.drop_append]
    exact there.trans (List.prefix_append _ _)
  exact clear_ i j first second listed also (longer first i opens) (longer second j later)

/-- No value begins within another one. -/
theorem NoOverlap.apart (whole : text = other ++ rest) (listed : other ∈ values) (member : value ∈ values)
    (tail : Text) (nonempty : tail ≠ []) (ends : tail.IsSuffix other) (proper : tail = other -> other ≠ value) :
    ¬ value.IsPrefix (tail ++ rest) := by
  rcases ends with ⟨before, rfl⟩
  subst whole
  intro opens
  have there : value.IsPrefix ((before ++ tail ++ rest).drop before.length) := by
    rw [List.append_assoc, List.drop_left]
    exact opens
  have inside : before.length < 0 + (before ++ tail).length := by
    have some_ := List.length_pos_of_ne_nil nonempty
    rw [List.length_append]
    omega
  have same := clear_ 0 before.length _ value listed member (List.prefix_append _ _) there (Nat.zero_le _) inside
  have empty : before = [] := List.eq_nil_of_length_eq_zero same.1.symm
  subst empty
  exact proper rfl same.2

end

/-- The pieces of a text: the secrets are listed, and the values begin nowhere
else. -/
structure Pieces (values : List Text) (text : Text) (pieces : List Piece) : Prop where
  whole : render pieces = text
  apart : ∀ value ∈ values, Apart value pieces
  listed : ∀ value, .secret value ∈ pieces -> value ∈ values

section

variable {values : List Text} (secret : ∀ value ∈ values, Secret value)

include secret

/-- A text without overlaps is made of plain characters and of the secrets that
occur in it. -/
theorem exists_pieces {text : Text} (clear_ : NoOverlap values text) : ∃ pieces, Pieces values text pieces := by
  induction size : text.length using Nat.strongRecOn generalizing text with
  | ind count ih =>
    cases text with
    | nil => exact ⟨[], rfl, fun _ _ => True.intro, fun _ member => absurd member List.not_mem_nil⟩
    | cons char rest =>
      by_cases begins : ∃ value ∈ values, value.IsPrefix (char :: rest)
      · rcases begins with ⟨value, listed, after, whole⟩
        have later : (char :: rest).drop value.length = after := by rw [<- whole, List.drop_left]
        have shorter : after.length < count := by
          rw [<- size, <- whole, List.length_append]
          exact Nat.lt_add_of_pos_left (List.length_pos_of_ne_nil (secret value listed).nonempty)
        rcases ih after.length shorter (later ▸ clear_.drop _) rfl with ⟨pieces, rfl, apart, known⟩
        refine ⟨.secret value :: pieces, whole, ?_, ?_⟩
        · exact fun other member => ⟨clear_.apart whole.symm listed member, apart other member⟩
        · intro other member
          rcases List.mem_cons.mp member with same | member
          · cases same
            exact listed
          · exact known other member
      · rcases ih rest.length (by rw [<- size]; exact Nat.lt_succ_self _) (clear_.drop 1) rfl with
          ⟨pieces, rfl, apart, known⟩
        refine ⟨.plain char :: pieces, rfl, ?_, ?_⟩
        · exact fun value listed => ⟨fun opens => begins ⟨value, listed, opens⟩, apart value listed⟩
        · intro value member
          exact known value ((List.mem_cons.mp member).resolve_left nofun)

omit secret in
/-- Pieces on both sides of a secret are pieces of the whole text. -/
theorem Pieces.join {before after : Text} {first last : List Piece} (left : Pieces values before first)
    (right : Pieces values after last) (listed : other ∈ values)
    (clear_ : NoOverlap values (before ++ (other ++ after))) :
    Pieces values (before ++ (other ++ after)) (first ++ .secret other :: last) := by
  rcases left with ⟨rfl, leftApart, leftListed⟩
  rcases right with ⟨rfl, rightApart, rightListed⟩
  refine ⟨render_append _ _, fun value member => ?_, fun value member => ?_⟩
  · have here := leftApart value member
    clear leftApart
    induction first with
    | nil => exact ⟨clear_.apart rfl listed member, rightApart value member⟩
    | cons piece rest ih =>
      have known := fun value member => leftListed value (List.mem_cons_of_mem _ member)
      cases piece with
      | plain char =>
        refine ⟨fun (opens : value.IsPrefix (char :: render (rest ++ .secret other :: last))) => ?_,
          ih known (clear_.drop 1) here.2⟩
        rw [render_append, <- List.cons_append] at opens
        by_cases short : value.length ≤ (char :: render rest).length
        · exact here.1 (List.prefix_of_prefix_length_le opens (List.prefix_append _ _) short)
        · have there : other.IsPrefix
              ((render (.plain char :: rest) ++ (other ++ render last)).drop (char :: render rest).length) := by
            rw [render, List.drop_left]
            exact List.prefix_append _ _
          have same := clear_ 0 _ value other member listed opens there (Nat.zero_le _) (by omega)
          exact absurd same.1 (by simp)
      | secret there =>
        have whole : render (.secret there :: rest) ++ (other ++ render last) =
            there ++ render (rest ++ .secret other :: last) := by
          rw [render, render_append, List.append_assoc]
          rfl
        refine ⟨clear_.apart whole (leftListed there List.mem_cons_self) member, ih known ?_ here.2⟩
        have later := clear_.drop there.length
        rw [render, List.append_assoc, List.drop_left] at later
        exact later
  · rcases List.mem_append.mp member with there | there
    · exact leftListed value there
    · rcases List.mem_cons.mp there with same | there
      · cases same
        exact listed
      · exact rightListed value there

theorem redactText_pieces {text : Text} (made : Pieces values text pieces) : redactText values text = blanked pieces := by
  rw [<- made.whole]
  exact redactText_render secret made.apart made.listed

/-- The order of the list does not matter where no two occurrences overlap. -/
theorem redactText_perm {text : Text} (clear_ : NoOverlap values text) {order : List Text}
    (listed : order.Perm values) : redactText order text = redactText values text := by
  rcases exists_pieces secret clear_ with ⟨pieces, made⟩
  have other : Pieces order text pieces :=
    ⟨made.whole, fun value member => made.apart value (listed.mem_iff.mp member),
      fun value member => listed.mem_iff.mpr (made.listed value member)⟩
  rw [redactText_pieces secret made,
    redactText_pieces (fun value member => secret value (listed.mem_iff.mp member)) other]

/-- An occurrence that overlaps no other is replaced by the mark. -/
theorem redactText_occurrence {before after : Text} (listed : other ∈ values)
    (clear_ : NoOverlap values (before ++ (other ++ after))) :
    redactText values (before ++ (other ++ after)) =
      redactText values before ++ (redactedMark ++ redactText values after) := by
  have later := (clear_.drop before.length).drop other.length
  rw [List.drop_left, List.drop_left] at later
  rcases exists_pieces secret (clear_.of_prefix (List.prefix_append _ _)) with ⟨first, left⟩
  rcases exists_pieces secret later with ⟨last, right⟩
  rw [redactText_pieces secret (left.join right listed clear_), redactText_pieces secret left,
    redactText_pieces secret right, blanked_append, blanked]

end

theorem prefix_of_rewrite {part : Text} (avoids : ∀ char ∈ part, char ∉ redactedMark) (text : Text)
    (opens : part.IsPrefix (rewrite (secretRule value) 0 text)) : part.IsPrefix text := by
  cases part with
  | nil => exact List.nil_prefix
  | cons first part =>
    induction text generalizing first part with
    | nil => exact opens
    | cons char rest ih =>
      cases matched : secretRule value (char :: rest) with
      | none =>
        rw [rewrite_unmatched matched] at opens
        rcases List.cons_prefix_cons.mp opens with ⟨rfl, later⟩
        refine List.cons_prefix_cons.mpr ⟨rfl, ?_⟩
        cases part with
        | nil => exact List.nil_prefix
        | cons second part => exact ih second part (fun char member => avoids char (List.mem_cons_of_mem _ member)) later
      | some result =>
        rw [rewrite, matched] at opens
        unfold secretRule at matched
        split at matched
        · cases matched
          have marked : first = '<' := (List.cons_prefix_cons.mp opens).1
          exact absurd (by rw [marked]; decide) (avoids first List.mem_cons_self)
        · cases matched

theorem not_infix_rewrite (secret : Secret value) (text : Text) :
    ¬ value.IsInfix (rewrite (secretRule value) 0 text) := by
  induction text using @rewrite_induction Char (secretRule value) with
  | nil => exact fun inside => secret.nonempty (List.infix_nil.mp inside)
  | skip char rest unmatched ih =>
    intro inside
    rcases List.infix_cons_iff.mp (rewrite_unmatched unmatched ▸ inside) with opens | later
    · rw [<- rewrite_unmatched unmatched] at opens
      have begins := prefix_of_rewrite secret.2 _ opens
      rw [secretRule, if_pos (List.isPrefixOf_iff_prefix.mpr begins)] at unmatched
      cases unmatched
    · exact ih later
  | jump char rest written used matched ih =>
    have shape := matched
    unfold secretRule at shape
    split at shape
    · cases shape
      have positive : 0 < value.length := List.length_pos_of_ne_nil secret.nonempty
      rw [Nat.max_eq_left positive] at ih
      rw [rewrite_match matched positive]
      intro inside
      rcases @infix_of_avoids _ _ [] _ _ inside (by decide) secret.2 with empty | later
      · exact secret.nonempty (List.infix_nil.mp empty)
      · exact ih later
    · cases shape

theorem not_infix_redactText {values : List Text} (secret : ∀ value ∈ values, Secret value) (text : Text) :
    ∀ value ∈ values, ¬ value.IsInfix (redactText values text) := by
  -- no later value brings back what an earlier one has removed
  have kept : ∀ (values : List Text) (text : Text) (part : Text), Secret part ->
      (∀ value ∈ values, Secret value) -> part.IsInfix (redactText values text) -> part.IsInfix text := by
    intro values
    induction values with
    | nil => exact fun _ _ _ _ inside => inside
    | cons value values ih =>
      intro text part here all inside
      have first := all value List.mem_cons_self
      rw [redactText, List.foldl_cons, if_pos first.1] at inside
      have before := ih _ part here (fun other member => all other (List.mem_cons_of_mem _ member)) inside
      have marks : Marks (secretRule value) (· ∈ redactedMark) (fun _ => True) :=
        DurableMemory.marks_secretRule (Nat.lt_trans (by decide) first.1) (fun _ member => member) True.intro
          True.intro
      simpa using infix_rewrite marks here.2 text [] [] (by simpa using before)
  induction values generalizing text with
  | nil => exact fun value member => absurd member List.not_mem_nil
  | cons first values ih =>
    have here := secret first List.mem_cons_self
    have later := fun other member => secret other (List.mem_cons_of_mem first member)
    rw [redactText, List.foldl_cons, if_pos here.1]
    intro value member
    rcases List.mem_cons.mp member with rfl | member
    · exact fun inside => not_infix_rewrite here text (kept values _ _ here later inside)
    · exact ih later _ value member

/-! ## Artifacts -/

section

-- `str.upper` and `str.isalpha`
variable (upper : String -> String) (isAlpha : Char -> Bool)

/-- The keyword stands in the text, the first time between characters that are
no letters. -/
def standsAlone (keyword : Text) : Option Char -> Text -> Bool
  | _, [] => false
  | before, char :: rest =>
    if keyword.isPrefixOf (char :: rest) then
      !(before.map isAlpha).getD false && !((((char :: rest).drop keyword.length).head?).map isAlpha).getD false
    else standsAlone keyword (some char) rest

def looksSensitiveEnvName (name : String) : Bool :=
  ["API_KEY", "TOKEN", "SECRET", "PASSWORD", "PASS", "CREDENTIAL"].any (fun keyword =>
    standsAlone isAlpha keyword.toList none (upper name).toList)

def safeMetricKeys : List String :=
  ["token_usage", "token_usage_by_agent", "tool_usage_by_agent", "total_tool_steps", "total_tokens", "input_tokens",
    "output_tokens", "cache_read_tokens", "cache_creation_tokens", "cache_hit_rate", "estimated_total",
    "estimated_sections", "run_count", "api", "api_calls", "tool_steps"]

/-- What stands under the key is replaced as a whole. -/
def covers (key : String) : Bool := !safeMetricKeys.contains key && looksSensitiveEnvName upper isAlpha key

variable (values : List Text)

mutual

/-- `redact_artifact`.  Replacing a value that is not there changes nothing,
so the strings are redacted as `redact_text` does. -/
def redactArtifact : Json -> Json
  | .obj members => .obj (redactMembers members)
  | .arr items => .arr (redactItems items)
  | .str text => .str (String.ofList (redactText values text.toList))
  | other => other

def redactItems : List Json -> List Json
  | [] => []
  | item :: rest => redactArtifact item :: redactItems rest

def redactMembers : List (String × Json) -> List (String × Json)
  | [] => []
  | (key, item) :: rest =>
    (key, if covers upper isAlpha key then .str "<redacted>" else redactArtifact item) :: redactMembers rest

end

/-- A key of a dictionary or a place in a list. -/
inductive Step where
  | key (name : String)
  | place (index : Nat)

/-- What stands behind a path. -/
def lookup : List Step -> Json -> Option Json
  | [], value => some value
  | .key name :: path, .obj members =>
    ((members.find? fun entry => entry.1 == name).map Prod.snd).bind (lookup path)
  | .place index :: path, .arr items => (items[index]?).bind (lookup path)
  | _ :: _, _ => none

theorem find?_redactMembers (name : String) (members : List (String × Json)) :
    (redactMembers upper isAlpha values members).find? (fun entry => entry.1 == name) =
      (members.find? fun entry => entry.1 == name).map (fun entry => (entry.1,
        if covers upper isAlpha entry.1 then .str "<redacted>" else redactArtifact upper isAlpha values entry.2)) := by
  induction members with
  | nil => rfl
  | cons entry rest ih =>
    rcases entry with ⟨key, item⟩
    rw [redactMembers, List.find?_cons, List.find?_cons, ih]
    cases key == name <;> rfl

theorem getElem?_redactItems (items : List Json) (index : Nat) :
    (redactItems upper isAlpha values items)[index]? = (items[index]?).map (redactArtifact upper isAlpha values) := by
  induction items generalizing index with
  | nil => rfl
  | cons item rest ih =>
    rw [redactItems]
    cases index with
    | zero => rfl
    | succ index => exact ih index

/-- Behind keys that cover nothing the values are redacted as they stand. -/
theorem lookup_redactArtifact (path : List Step)
    (open_ : ∀ name, .key name ∈ path -> covers upper isAlpha name = false) (value : Json) :
    lookup path (redactArtifact upper isAlpha values value) =
      (lookup path value).map (redactArtifact upper isAlpha values) := by
  induction path generalizing value with
  | nil => rfl
  | cons step path ih =>
    have later := ih fun name member => open_ name (List.mem_cons_of_mem _ member)
    cases step with
    | place index =>
      cases value with
      | arr items =>
        rw [redactArtifact, lookup, lookup, getElem?_redactItems]
        cases items[index]? with
        | none => rfl
        | some item => exact later item
      | _ => rfl
    | key name =>
      cases value with
      | obj members =>
        rw [redactArtifact, lookup, lookup, find?_redactMembers]
        cases found : members.find? (fun entry => entry.1 == name) with
        | none => rfl
        | some entry =>
          have same : entry.1 = name := by simpa using List.find?_some found
          rw [Option.map_some, Option.map_some, Option.map_some, Option.bind_some, Option.bind_some, same,
            open_ name List.mem_cons_self]
          exact later entry.2
      | _ => rfl

/-- What stands under a key that covers is the mark. -/
theorem lookup_covered {name : String} (covered : covers upper isAlpha name = true) (value : Json) :
    lookup [.key name] (redactArtifact upper isAlpha values value) =
      (lookup [.key name] value).map (fun _ => .str "<redacted>") := by
  cases value with
  | obj members =>
    rw [redactArtifact, lookup, lookup, find?_redactMembers]
    cases found : members.find? (fun entry => entry.1 == name) with
    | none => rfl
    | some entry =>
      have same : entry.1 = name := by simpa using List.find?_some found
      rw [Option.map_some, Option.map_some, same, covered]
      rfl
  | _ => rfl

end

/-- No value is left.  Where no two occurrences overlap, each of them becomes
the mark, whichever secret it is and however the values are listed.  The strings
of an artifact are redacted where no sensitive key covers them. -/
theorem redacts (upper : String -> String) (isAlpha : Char -> Bool) (values : List Text)
    (secret : ∀ value ∈ values, Secret value) :
    (∀ text value, value ∈ values -> ¬ value.IsInfix (redactText values text)) ∧
      (∀ text, NoOverlap values text ->
        (∀ order : List Text, order.Perm values -> redactText order text = redactText values text) ∧
        ∀ before occurrence after, occurrence ∈ values -> text = before ++ (occurrence ++ after) ->
          redactText values text = redactText values before ++ (redactedMark ++ redactText values after)) ∧
      ∀ path value inner, (∀ name, .key name ∈ path -> covers upper isAlpha name = false) ->
        lookup path value = some inner ->
        (∀ text, inner = .str text -> lookup path (redactArtifact upper isAlpha values value) =
          some (.str (String.ofList (redactText values text.toList)))) ∧
        ∀ name, covers upper isAlpha name = true ->
          (lookup path (redactArtifact upper isAlpha values value)).bind (lookup [.key name]) =
            (lookup [.key name] inner).map (fun _ => .str "<redacted>") := by
  refine ⟨not_infix_redactText secret, fun text clear_ => ⟨fun order listed => ?_, ?_⟩,
    fun path value inner open_ there => ?_⟩
  · exact redactText_perm secret clear_ listed
  · rintro before occurrence after listed rfl
    exact redactText_occurrence secret listed clear_
  · rw [lookup_redactArtifact _ _ _ path open_, there]
    refine ⟨fun text same => ?_, fun name covered => lookup_covered upper isAlpha values covered inner⟩
    subst same
    rfl

theorem redacts_one : ¬ "12345".toList.IsInfix (redactText ["12345".toList] "x12345".toList) := by
  refine (redacts id Char.isAlpha ["12345".toList] ?_).1 _ _ List.mem_cons_self
  intro value member
  rw [List.mem_singleton.mp member]
  exact ⟨by decide, forall_mem_of_all (by decide)⟩

/-- A secret that begins with another one is cut where that one comes first. -/
example : redactText ["12345".toList, "1234567".toList] "1234567".toList = "<redacted>67".toList := by
  decide +kernel

end Security
end FixLoop
