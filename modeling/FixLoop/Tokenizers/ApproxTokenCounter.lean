import FixLoop.Library.Strings

namespace FixLoop
namespace Tokenizers

open Library

/-!
# Approximate token counts

Where no tokenizer can be loaded, `ApproxTokenCounter` counts one token for a
short run of ASCII characters, a quarter of the characters of a longer run, and
one for each other character; white space only ends a run.
-/

abbrev Text := List Char

/-- What `count` keeps: the tokens so far, and the ASCII run it stands in. -/
structure Scan where
  total : Nat := 0
  asciiRun : Nat := 0

namespace Scan

def flushAscii (scan : Scan) : Scan where
  total :=
    if scan.asciiRun = 0 then scan.total
    else scan.total + if scan.asciiRun ≤ 6 then 1 else max 1 ((scan.asciiRun + 3) / 4)

/-- One turn of the loop of `count`. -/
def read (scan : Scan) (ch : Char) : Scan :=
  if Strings.isSpace ch then scan.flushAscii
  else if 127 < ch.toNat then { scan.flushAscii with total := scan.flushAscii.total + 1 }
  else { scan with asciiRun := scan.asciiRun + 1 }

/-- A character never takes back tokens; a run grows by none at its second to
sixth character and by one at its seventh. -/
theorem flushAscii_read (scan : Scan) (ch : Char) :
    scan.flushAscii.total ≤ (scan.read ch).flushAscii.total := by
  unfold read
  split
  · simp [flushAscii]
  · split
    · simp [flushAscii]
    · have more : scan.asciiRun + 1 ≠ 0 := Nat.succ_ne_zero _
      simp only [flushAscii, if_neg more]
      split_ifs <;> omega

theorem flushAscii_foldl (text : Text) (scan : Scan) :
    scan.flushAscii.total ≤ (text.foldl read scan).flushAscii.total := by
  induction text generalizing scan with
  | nil => simp
  | cons ch rest ih =>
    apply (flushAscii_read scan ch).trans
    exact ih (scan.read ch)

end Scan

def count (text : Text) : Nat :=
  if text = [] then 0 else max 1 (text.foldl Scan.read {}).flushAscii.total

theorem count_mono {shorter text : Text} (opens : shorter.IsPrefix text) : count shorter ≤ count text := by
  rcases opens with ⟨rest, rfl⟩
  unfold count
  by_cases empty : shorter = []
  · simp [empty]
  · have filled : shorter ++ rest ≠ [] := by simp [empty]
    rw [if_neg empty, if_neg filled, List.foldl_append]
    have grown := Scan.flushAscii_foldl rest (shorter.foldl Scan.read {})
    omega

/-- The loop of `fit`, with what has been taken. -/
def fitLoop (limit : Int) (out : Text) : Text -> Text
  | [] => out
  | ch :: rest => if limit < count (out ++ [ch]) then out else fitLoop limit (out ++ [ch]) rest

def fit (text : Text) (limit : Int) : Text := if limit ≤ 0 then [] else fitLoop limit [] text

/-! ## The longest prefix that fits -/

/-- The longest prefix of a text whose count is within the limit. -/
structure LongestWithin (limit : Int) (text found : Text) : Prop where
  opens : found.IsPrefix text
  within : count found ≤ limit
  longest : ∀ other : Text, other.IsPrefix text -> count other ≤ limit -> other.IsPrefix found

/-- The first character that does not fit ends every prefix that fits. -/
theorem fitLoop_longest (limit : Int) (out rest : Text) (within : count out ≤ limit) :
    LongestWithin limit (out ++ rest) (fitLoop limit out rest) := by
  induction rest generalizing out with
  | nil =>
    rw [List.append_nil, fitLoop]
    exact ⟨List.prefix_rfl, within, fun other opens _ => opens⟩
  | cons ch rest ih =>
    rw [fitLoop]
    split
    next over_ =>
      refine ⟨List.prefix_append out _, within, ?_⟩
      intro other opens fits
      rcases List.prefix_or_prefix_of_prefix opens (List.prefix_append out (ch :: rest)) with shorter | longer
      · exact shorter
      · rcases longer with ⟨more, rfl⟩
        cases more with
        | nil => simp
        | cons next more =>
          have same : next = ch := (List.cons_prefix_cons.mp ((List.prefix_append_right_inj out).mp opens)).1
          have one : (out ++ [ch]).IsPrefix (out ++ next :: more) := ⟨more, by simp [same]⟩
          have grown := count_mono one
          omega
    next fits =>
      have later := ih (out ++ [ch]) (by omega)
      rwa [List.append_assoc, List.singleton_append] at later

theorem fit_longest {limit : Int} (positive : 0 < limit) (text : Text) :
    LongestWithin limit text (fit text limit) := by
  rw [fit, if_neg (by omega)]
  apply fitLoop_longest limit [] text
  simp only [count, if_true]
  omega

theorem fit_eq_self {text : Text} {limit : Int} (fits : count text ≤ limit) : fit text limit = text := by
  by_cases positive : 0 < limit
  · have found := fit_longest positive text
    exact found.opens.eq_of_length_le (found.longest text List.prefix_rfl fits).length_le
  · have none_ : count text = 0 := by omega
    have empty : text = [] := by
      by_contra filled
      rw [count, if_neg filled] at none_
      omega
    simp [fit, positive, empty]

/-- `fit` takes the longest prefix that fits; more room never takes less, and
what has been fitted fits. -/
theorem fit_spec (text : Text) (limit : Int) :
    (∀ shorter : Text, shorter.IsPrefix text -> count shorter ≤ count text) ∧
      (if limit ≤ 0 then fit text limit = [] else LongestWithin limit text (fit text limit)) ∧
      fit (fit text limit) limit = fit text limit ∧
      (∀ higher, limit ≤ higher -> (fit text limit).IsPrefix (fit text higher)) ∧
      (count text ≤ limit -> fit text limit = text) := by
  refine ⟨fun shorter => count_mono, ?_, ?_, ?_, fit_eq_self⟩
  · split
    next none_ => simp [fit, none_]
    next some_ => exact fit_longest (by omega) text
  · by_cases none_ : limit ≤ 0
    · simp [fit, none_]
    · exact fit_eq_self (fit_longest (by omega) text).within
  · intro higher more
    by_cases none_ : limit ≤ 0
    · simp [fit, none_]
    · have found := fit_longest (Int.not_le.mp none_) text
      apply (fit_longest (by omega) text).longest _ found.opens
      exact Int.le_trans found.within more

example : fit "abcdefg h".toList 2 = "abcdefg ".toList := by decide +kernel

end Tokenizers
end FixLoop
