import FixLoop.EditLock.Paths
import FixLoop.Library.Scanning

namespace FixLoop
namespace DurableMemory

open Library Scanning
open EditLock (Text strip)

/-!
# `_redact_value`

What is written to a topic is redacted first: the values of sensitive
environment variables, then values behind names such as `token`, then bearer
tokens.  Redaction never empties a text, never leaves white space at its ends
and never makes a line that would be read as a separator.
-/

def redactedMark : Text := "<redacted>".toList

/-- `redact_text`, for one value. -/
def secretRule (secret : Text) : Rule Char := fun text =>
  if secret.isPrefixOf text then some (redactedMark, secret.length) else none

/-- `redact_text`; values of at most four characters are passed over. -/
def redactText (secrets : List Text) (text : Text) : Text :=
  secrets.foldl (fun text secret => if 4 < secret.length then rewrite (secretRule secret) 0 text else text) text

/-- A letter of a pattern that ignores case. -/
def sameLetter (letter char : Char) : Bool :=
  char = letter || char = letter.toUpper || (letter = 'k' && char = '\u212a') ||
    (letter = 'i' && (char = '\u0130' || char = '\u0131')) || (letter = 's' && char = '\u017f')

/-- The rest of the text behind a word. -/
def expectWord : Text -> Text -> Option Text
  | [], text => some text
  | letter :: word, char :: text => if sameLetter letter char then expectWord word text else none
  | _ :: _, [] => none

def afterJoint : Text -> Text
  | char :: rest => if char = '_' || char = '-' then rest else char :: rest
  | [] => []

/-- `api[_-]?key|token|secret|password`. -/
def credentialName (text : Text) : Option Text :=
  ((expectWord "api".toList text).bind fun rest => expectWord "key".toList (afterJoint rest)).or
    ((expectWord "token".toList text).or ((expectWord "secret".toList text).or (expectWord "password".toList text)))

/-- A character of `[^\s,;]`. -/
def ofValue (char : Char) : Bool := !Strings.isSpace char && char ≠ ',' && char ≠ ';'

/-- `\s*[:=]\s*([^\s,;]+)`: the rest behind the value. -/
def afterValue (text : Text) : Option Text :=
  match text.dropWhile Strings.isSpace with
  | char :: value =>
    if char = ':' || char = '=' then
      let value := value.dropWhile Strings.isSpace
      if value.takeWhile ofValue = [] then none else some (value.dropWhile ofValue)
    else none
  | [] => none

/-- `text` without the end `rest`. -/
def upTo (rest text : Text) : Text := text.take (text.length - rest.length)

def credentialRule : Rule Char := fun text =>
  (credentialName text).bind (fun after => (afterValue after).map (fun rest =>
    (upTo after text ++ "=<redacted>".toList, text.length - rest.length)))

/-- `authorization\s*:\s*bearer`. -/
def bearerName (text : Text) : Option Text :=
  (expectWord "authorization".toList text).bind (fun after =>
    match after.dropWhile Strings.isSpace with
    | ':' :: rest => expectWord "bearer".toList (rest.dropWhile Strings.isSpace)
    | _ => none)

/-- `\s+[^\s]+`: the rest behind the token. -/
def afterToken (text : Text) : Option Text :=
  let token := text.dropWhile Strings.isSpace
  if text.takeWhile Strings.isSpace = [] || token = [] then none
  else some (token.dropWhile fun char => !Strings.isSpace char)

def bearerRule : Rule Char := fun text =>
  (bearerName text).bind (fun after => (afterToken after).map (fun rest =>
    (upTo after text ++ " <redacted>".toList, text.length - rest.length)))

def redactValue (secrets : List Text) (text : Text) : Text :=
  rewrite bearerRule 0 (rewrite credentialRule 0 (redactText secrets text))

example : redactValue ["hunter2".toList] "api_key: abc, Token=\nx hunter2 Authorization: Bearer q".toList =
    "api_key=<redacted>, Token=<redacted> <redacted> Authorization: Bearer <redacted>".toList := by
  decide +kernel

/-! ## What redaction keeps -/

/-- `---` on a line of its own. -/
def rule : Text := "\n---\n".toList

/-- An entry of a topic: nonempty, stripped, without a line that separates. -/
structure Writable (text : Text) : Prop where
  nonempty : text ≠ []
  stripped : strip text = text
  noRule : ¬ rule.IsInfix ('\n' :: (text ++ ['\n']))

variable {text rest : Text}

theorem strip_eq_iff : strip text = text <->
    (∀ char, text.head? = some char -> Strings.isSpace char = false) ∧
      ∀ char, text.getLast? = some char -> Strings.isSpace char = false := by
  have begins (text : Text) : text.dropWhile Strings.isSpace = text <->
      ∀ char, text.head? = some char -> Strings.isSpace char = false := by
    cases text with
    | nil =>
      refine ⟨fun _ char impossible => ?_, fun _ => rfl⟩
      cases impossible
    | cons first rest =>
      by_cases space : Strings.isSpace first = true
      · constructor
        · intro kept
          have shorter := (List.dropWhile_suffix Strings.isSpace (l := rest)).length_le
          rw [List.dropWhile_cons_of_pos space] at kept
          rw [kept, List.length_cons] at shorter
          omega
        · intro solid
          exact absurd space (Bool.eq_false_iff.mp (solid first rfl))
      · rw [List.dropWhile_cons_of_neg space]
        refine ⟨fun _ char same => ?_, fun _ => rfl⟩
        cases same
        exact Bool.eq_false_iff.mpr space
  have ends : (text.reverse.dropWhile Strings.isSpace).reverse = text <->
      ∀ char, text.getLast? = some char -> Strings.isSpace char = false := by
    rw [<- List.head?_reverse, <- begins text.reverse]
    constructor
    · intro same
      rw [<- List.reverse_inj, List.reverse_reverse] at same
      exact same
    · intro same
      rw [same, List.reverse_reverse]
  unfold strip
  constructor
  · intro same
    have whole : text.dropWhile Strings.isSpace = text := by
      refine (List.dropWhile_suffix Strings.isSpace).eq_of_length_le ?_
      have shorter := (List.dropWhile_suffix Strings.isSpace
        (l := (text.dropWhile Strings.isSpace).reverse)).length_le
      rw [List.length_reverse] at shorter
      conv_lhs => rw [<- same]
      rw [List.length_reverse]
      exact shorter
    rw [whole] at same
    exact ⟨(begins text).mp whole, ends.mp same⟩
  · rintro ⟨first, last⟩
    rw [(begins text).mpr first]
    exact ends.mpr last

def Mark (char : Char) : Prop := char ∉ ['\n', '-', '\r']

def Edge (char : Char) : Prop := Strings.isSpace char = false

theorem Writable.rewrite (writable : Writable text) {change : Rule Char} (marks : Marks change Mark Edge) :
    Writable (rewrite change 0 text) := by
  have edges := strip_eq_iff.mp writable.stripped
  refine ⟨fun empty => writable.nonempty (rewrite_eq_nil marks empty), strip_eq_iff.mpr ⟨?_, ?_⟩, ?_⟩
  · intro char first
    exact (head_rewrite marks first).elim (edges.1 char) id
  · intro char last
    exact (last_rewrite marks last).elim (edges.2 char) id
  · intro inside
    have ordinary : ∀ char ∈ rule, char ∈ ['\n', '-', '\r'] :=
      forall_mem_of_all (by decide)
    have plain (char : Char) (member : char ∈ rule) : ¬ Mark char := fun mark => mark (ordinary char member)
    exact writable.noRule (infix_rewrite marks plain text ['\n'] ['\n'] inside)

theorem noReturn_rewrite (noReturn : '\r' ∉ text) {change : Rule Char} (marks : Marks change Mark Edge) :
    '\r' ∉ rewrite change 0 text := by
  intro member
  rcases mem_rewrite marks member with inside | mark
  · exact noReturn inside
  · exact mark (by decide)

/-! ## The rules -/

theorem expectWord_suffix {word : Text} (found : expectWord word text = some rest) :
    rest.IsSuffix text ∧ rest.length + word.length = text.length := by
  induction word generalizing text with
  | nil =>
    cases found
    exact ⟨List.suffix_rfl, rfl⟩
  | cons letter word ih =>
    cases text with
    | nil => cases found
    | cons char text =>
      rw [expectWord] at found
      split at found
      · rcases ih found with ⟨ends, count⟩
        refine ⟨ends.trans (List.suffix_cons _ _), ?_⟩
        rw [List.length_cons, List.length_cons]
        omega
      · cases found

theorem afterJoint_suffix (text : Text) : (afterJoint text).IsSuffix text := by
  cases text with
  | nil => exact List.suffix_rfl
  | cons char rest =>
    rw [afterJoint]
    split
    · exact List.suffix_cons _ _
    · exact List.suffix_rfl

/-- The rest is a proper end of the text. -/
def Shorter (rest text : Text) : Prop := rest.IsSuffix text ∧ rest.length < text.length

theorem expectWord_shorter {word : Text} (found : expectWord word text = some rest)
    (nonempty : 0 < word.length) : Shorter rest text := by
  rcases expectWord_suffix found with ⟨ends, count⟩
  exact ⟨ends, by omega⟩

theorem Shorter.trans {first second third : Text} (later : first.IsSuffix second) (earlier : Shorter second third) :
    Shorter first third :=
  ⟨later.trans earlier.1, Nat.lt_of_le_of_lt later.length_le earlier.2⟩

theorem credentialName_shorter (found : credentialName text = some rest) : Shorter rest text := by
  unfold credentialName at found
  rcases Option.or_eq_some_iff.mp found with joined | ⟨_, found⟩
  · rcases Option.bind_eq_some_iff.mp joined with ⟨middle, api, key⟩
    exact Shorter.trans ((expectWord_suffix key).1.trans (afterJoint_suffix middle))
      (expectWord_shorter api (by decide))
  rcases Option.or_eq_some_iff.mp found with token | ⟨_, found⟩
  · exact expectWord_shorter token (by decide)
  rcases Option.or_eq_some_iff.mp found with secret | ⟨_, password⟩
  · exact expectWord_shorter secret (by decide)
  · exact expectWord_shorter password (by decide)

theorem afterValue_suffix (found : afterValue text = some rest) : rest.IsSuffix text := by
  unfold afterValue at found
  split at found
  · rename_i char value begins
    split at found
    · dsimp only at found
      split at found
      · cases found
      · cases found
        have opens : (char :: value).IsSuffix text := begins ▸ List.dropWhile_suffix _
        exact ((List.dropWhile_suffix _).trans (List.dropWhile_suffix _)).trans
          ((List.suffix_cons _ _).trans opens)
    · cases found
  · cases found

theorem bearerName_shorter (found : bearerName text = some rest) : Shorter rest text := by
  rcases Option.bind_eq_some_iff.mp found with ⟨after, opens, found⟩
  refine Shorter.trans ?_ (expectWord_shorter opens (by decide))
  split at found
  · rename_i value begins
    have colon : (':' :: value).IsSuffix after := begins ▸ List.dropWhile_suffix _
    exact ((expectWord_suffix found).1.trans (List.dropWhile_suffix _)).trans
      ((List.suffix_cons _ _).trans colon)
  · cases found

theorem afterToken_suffix (found : afterToken text = some rest) : rest.IsSuffix text := by
  unfold afterToken at found
  dsimp only at found
  split at found
  · cases found
  · cases found
    exact (List.dropWhile_suffix _).trans (List.dropWhile_suffix _)

/-- A rule that keeps a name and writes a closing behind it. -/
theorem marks_named {change : Rule Char} {closing : Text} (filled : closing ≠ [])
    (marked : ∀ char ∈ closing, Mark char)
    (last : ∀ char, closing.getLast? = some char -> Edge char)
    (shape : ∀ text written used, change text = some (written, used) ->
      ∃ after : Text, ∃ rest : Text, Shorter after text ∧ rest.IsSuffix after ∧
        written = upTo after text ++ closing ∧ used = text.length - rest.length) : Marks change Mark Edge := by
  constructor
  intro text written used matched
  rcases shape text written used matched with ⟨after, rest, shorter, ends, rfl, rfl⟩
  have progress := (Shorter.trans ends shorter).2
  refine ⟨by omega, upTo after text, closing, rfl, List.take_prefix _ _, filled, marked, ?_, last⟩
  intro empty
  have some_ := shorter.2
  have count := congrArg List.length empty
  rw [upTo, List.length_take, List.length_nil] at count
  omega

theorem marks_credentialRule : Marks credentialRule Mark Edge := by
  refine @marks_named _ "=<redacted>".toList (by decide) ?_ ?_ ?_
  · have known : ∀ char ∈ "=<redacted>".toList, char ∉ ['\n', '-', '\r'] :=
      forall_mem_of_all (by decide)
    exact known
  · intro char last
    cases last
    rfl
  · intro text written used matched
    rcases Option.bind_eq_some_iff.mp matched with ⟨after, name, found⟩
    rcases Option.map_eq_some_iff.mp found with ⟨rest, value, same⟩
    cases same
    exact ⟨after, rest, credentialName_shorter name, afterValue_suffix value, rfl, rfl⟩

theorem marks_bearerRule : Marks bearerRule Mark Edge := by
  refine @marks_named _ " <redacted>".toList (by decide) ?_ ?_ ?_
  · have known : ∀ char ∈ " <redacted>".toList, char ∉ ['\n', '-', '\r'] :=
      forall_mem_of_all (by decide)
    exact known
  · intro char last
    cases last
    rfl
  · intro text written used matched
    rcases Option.bind_eq_some_iff.mp matched with ⟨after, name, found⟩
    rcases Option.map_eq_some_iff.mp found with ⟨rest, value, same⟩
    cases same
    exact ⟨after, rest, bearerName_shorter name, afterToken_suffix value, rfl, rfl⟩

theorem marks_secretRule {mark edge : Char -> Prop} {secret : Text} (nonempty : 0 < secret.length)
    (marked : ∀ char ∈ redactedMark, mark char) (opens : edge '<') (closes : edge '>') :
    Marks (secretRule secret) mark edge := by
  constructor
  intro text written used matched
  unfold secretRule at matched
  split at matched
  · cases matched
    refine ⟨nonempty, [], redactedMark, rfl, List.nil_prefix, by decide, marked, ?_, ?_⟩
    · intro _ char first
      cases first
      exact opens
    · intro char last
      cases last
      exact closes
  · cases matched

theorem redactText_keeps {motive : Text -> Prop}
    (step : ∀ text change, motive text -> Marks change Mark Edge -> motive (rewrite change 0 text))
    (secrets : List Text) {text : Text} (start : motive text) : motive (redactText secrets text) := by
  unfold redactText
  induction secrets generalizing text with
  | nil => exact start
  | cons secret rest ih =>
    rw [List.foldl_cons]
    apply ih
    split
    · rename_i long
      have known : ∀ char ∈ redactedMark, char ∉ ['\n', '-', '\r'] := forall_mem_of_all (by decide)
      exact step text _ start (marks_secretRule (by omega) known rfl rfl)
    · exact start

theorem Writable.redactValue (writable : Writable text) (secrets : List Text) :
    Writable (redactValue secrets text) := by
  have plain := @redactText_keeps Writable (fun _ _ writable marks => writable.rewrite marks) secrets text writable
  exact (plain.rewrite marks_credentialRule).rewrite marks_bearerRule

theorem noReturn_redactValue (noReturn : '\r' ∉ text) (secrets : List Text) :
    '\r' ∉ redactValue secrets text := by
  have plain := @redactText_keeps (fun text => '\r' ∉ text) (fun _ _ noReturn marks =>
    noReturn_rewrite noReturn marks) secrets text noReturn
  exact noReturn_rewrite (noReturn_rewrite plain marks_credentialRule) marks_bearerRule

end DurableMemory
end FixLoop
