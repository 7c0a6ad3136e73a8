import Mathlib.Data.List.Infix

namespace FixLoop
namespace Library
namespace Scanning

universe u

/-!
# Scanning a text from the left

`rewrite` replaces what a rule matches, as regular expressions are
substituted: from the left, without overlaps.  `splitText` cuts a text at a
separator in the same way.
-/

variable {A : Type u}

theorem forall_mem_of_all {p : A -> Prop} [DecidablePred p] {ls : List A}
    (tested : ls.all (fun a => decide (p a)) = true) : ∀ a ∈ ls, p a := by
  intro a member
  exact of_decide_eq_true (List.all_eq_true.mp tested a member)

/-- A rule that looks at the start of the rest: what it writes, and how much it
consumes. -/
abbrev Rule (A : Type u) := List A -> Option (List A × Nat)

/-- Replace what the rule matches, once `skip` more places have been passed. -/
def rewrite (rule : Rule A) : Nat -> List A -> List A
  | _, [] => []
  | skip + 1, _ :: rest => rewrite rule skip rest
  | 0, a :: rest =>
    match rule (a :: rest) with
    | some (written, used) => written ++ rewrite rule (used - 1) rest
    | none => a :: rewrite rule 0 rest

theorem rewrite_skip (rule : Rule A) (skip : Nat) (text : List A) :
    rewrite rule skip text = rewrite rule 0 (text.drop skip) := by
  induction text generalizing skip with
  | nil => cases skip <;> rfl
  | cons a rest ih =>
    cases skip with
    | zero => rfl
    | succ skip => exact ih skip

/-- What closes a match is made of marks, and its outer ends are `edge`s. -/
structure Closing (mark edge : A -> Prop) (kept closing : List A) : Prop where
  filled : closing ≠ []
  marked : ∀ a ∈ closing, mark a
  first : kept = [] -> ∀ a, closing.head? = some a -> edge a
  last : ∀ a, closing.getLast? = some a -> edge a

/-- What a rule writes keeps a start of the text and closes it with marks. -/
structure Marks (rule : Rule A) (mark edge : A -> Prop) : Prop where
  shape : ∀ {text written : List A} {used : Nat}, rule text = some (written, used) -> 0 < used ∧
    ∃ kept closing, written = kept ++ closing ∧ kept.IsPrefix text ∧
      Closing mark edge kept closing

/-- A text goes on as it was until the rule matches. -/
theorem rewrite_match {rule : Rule A} {a : A} {rest written : List A} {used : Nat}
    (matched : rule (a :: rest) = some (written, used)) (progress : 0 < used) :
    rewrite rule 0 (a :: rest) = written ++ rewrite rule 0 ((a :: rest).drop used) := by
  rcases Nat.exists_eq_succ_of_ne_zero (Nat.pos_iff_ne_zero.mp progress) with ⟨more, rfl⟩
  rw [rewrite, matched]
  change written ++ rewrite rule more rest = written ++ rewrite rule 0 (rest.drop more)
  rw [rewrite_skip]

theorem rewrite_unmatched {rule : Rule A} {a : A} {rest : List A} (unmatched : rule (a :: rest) = none) :
    rewrite rule 0 (a :: rest) = a :: rewrite rule 0 rest := by
  rw [rewrite, unmatched]

/-- Induction over the places where a rule is tried. -/
theorem rewrite_induction {rule : Rule A} {motive : List A -> Prop} (nil : motive [])
    (skip : ∀ a rest, rule (a :: rest) = none -> motive rest -> motive (a :: rest))
    (jump : ∀ a rest written used, rule (a :: rest) = some (written, used) ->
      motive ((a :: rest).drop (max used 1)) -> motive (a :: rest)) (text : List A) : motive text := by
  generalize size : text.length = n
  induction n using Nat.strongRecOn generalizing text with
  | ind n ih =>
    cases text with
    | nil => exact nil
    | cons a rest =>
      cases matched : rule (a :: rest) with
      | none =>
        refine skip a rest matched (ih rest.length ?_ rest rfl)
        rw [<- size, List.length_cons]
        exact Nat.lt_succ_self _
      | some result =>
        refine jump a rest result.1 result.2 matched (ih _ ?_ _ rfl)
        rw [List.length_drop, size]
        rw [List.length_cons] at size
        omega

/-- A part that avoids the middle lies on one of the two sides. -/
theorem infix_of_avoids {part left middle right : List A} (inside : part.IsInfix (left ++ (middle ++ right)))
    (filled : middle ≠ []) (avoids : ∀ a ∈ part, a ∉ middle) :
    part.IsInfix left ∨ part.IsInfix right := by
  rcases inside with ⟨before, after, same⟩
  rw [List.append_assoc] at same
  rcases List.append_eq_append_iff.mp same with ⟨gap, whole, rest⟩ | ⟨gap, whole, rest⟩
  · -- the part begins within `left`
    rcases List.append_eq_append_iff.mp rest with ⟨tail, ends, later⟩ | ⟨tail, ends, later⟩
    · exact Or.inl ⟨before, tail, by rw [whole, ends, List.append_assoc]⟩
    · cases tail with
      | nil =>
        rw [List.append_nil] at ends
        exact Or.inl ⟨before, [], by rw [whole, ends, List.append_nil]⟩
      | cons a tail =>
        cases middle with
        | nil => exact absurd rfl filled
        | cons b middle =>
          have same : b = a := (List.cons.inj later).1
          exact absurd List.mem_cons_self (avoids b (by rw [ends, same]; simp))
  · rcases List.append_eq_append_iff.mp rest with ⟨tail, ends, later⟩ | ⟨tail, ends, later⟩
    · exact Or.inr ⟨tail, after, by rw [later, List.append_assoc]⟩
    · cases part with
      | nil => exact Or.inr (List.nil_infix)
      | cons b part =>
        cases tail with
        | nil =>
          rw [List.nil_append] at later
          exact Or.inr ⟨[], after, by rw [<- later]; rfl⟩
        | cons a tail =>
          have same : b = a := (List.cons.inj later).1
          exact absurd (by rw [ends, same]; simp) (avoids b List.mem_cons_self)

section Marked

variable {rule : Rule A} {mark edge : A -> Prop} (marks : Marks rule mark edge)

include marks

theorem rewrite_marked {a : A} {rest written : List A} {used : Nat}
    (matched : rule (a :: rest) = some (written, used)) :
    ∃ kept closing,
      rewrite rule 0 (a :: rest) = kept ++ (closing ++ rewrite rule 0 ((a :: rest).drop (max used 1))) ∧
        kept.IsPrefix (a :: rest) ∧ Closing mark edge kept closing := by
  rcases marks.shape matched with ⟨progress, kept, closing, same, opens, closed⟩
  refine ⟨kept, closing, ?_, opens, closed⟩
  have one : max used 1 = used := by omega
  rw [rewrite_match matched progress, same, one, List.append_assoc]

/-- What avoids the marks stood in the text before. -/
theorem infix_rewrite {part : List A} (plain : ∀ a ∈ part, ¬ mark a) (text before after : List A)
    (inside : part.IsInfix (before ++ (rewrite rule 0 text ++ after))) :
    part.IsInfix (before ++ (text ++ after)) := by
  induction text using @rewrite_induction A rule generalizing before with
  | nil => exact inside
  | skip a rest unmatched ih =>
    rw [rewrite_unmatched unmatched, List.cons_append, List.append_cons] at inside
    rw [List.cons_append, List.append_cons]
    exact ih _ inside
  | jump a rest written used matched ih =>
    rcases rewrite_marked marks matched with ⟨kept, closing, same, opens, closed⟩
    rw [same, List.append_assoc, List.append_assoc, <- List.append_assoc before] at inside
    rcases infix_of_avoids inside closed.filled
      (fun b member listed => plain b member (closed.marked b listed)) with
      left | right
    · rcases opens with ⟨tail, whole⟩
      rw [<- whole, List.append_assoc, <- List.append_assoc before]
      exact left.trans (List.prefix_append _ _).isInfix
    · have later := ih [] right
      rw [List.nil_append] at later
      refine later.trans (List.IsSuffix.isInfix ?_)
      have cut := List.take_append_drop (max used 1) (a :: rest)
      refine ⟨before ++ (a :: rest).take (max used 1), ?_⟩
      rw [List.append_assoc, <- List.append_assoc (List.take _ _), cut]

theorem mem_rewrite {text : List A} {b : A} (member : b ∈ rewrite rule 0 text) : b ∈ text ∨ mark b := by
  induction text using @rewrite_induction A rule with
  | nil => exact Or.inl member
  | skip a rest unmatched ih =>
    rw [rewrite_unmatched unmatched] at member
    rcases List.mem_cons.mp member with rfl | member
    · exact Or.inl List.mem_cons_self
    · exact (ih member).imp_left (List.mem_cons_of_mem _)
  | jump a rest written used matched ih =>
    rcases rewrite_marked marks matched with ⟨kept, closing, same, opens, closed⟩
    rw [same] at member
    rcases List.mem_append.mp member with inside | member
    · exact Or.inl (opens.subset inside)
    rcases List.mem_append.mp member with closes | member
    · exact Or.inr (closed.marked b closes)
    · exact (ih member).imp_left List.mem_of_mem_drop

theorem head_rewrite {text : List A} {b : A} (first : (rewrite rule 0 text).head? = some b) :
    text.head? = some b ∨ edge b := by
  cases text with
  | nil => cases first
  | cons a rest =>
    cases matched : rule (a :: rest) with
    | none =>
      rw [rewrite_unmatched matched] at first
      exact Or.inl first
    | some result =>
      rcases rewrite_marked marks matched with ⟨kept, closing, same, ⟨tail, whole⟩, closed⟩
      rw [same] at first
      cases kept with
      | nil =>
        cases closing with
        | nil => exact absurd rfl closed.filled
        | cons c closing => exact Or.inr (closed.first rfl b first)
      | cons d kept =>
        cases first
        rw [<- whole]
        exact Or.inl rfl

theorem rewrite_eq_nil {text : List A} (empty : rewrite rule 0 text = []) : text = [] := by
  cases text with
  | nil => rfl
  | cons a rest =>
    cases matched : rule (a :: rest) with
    | none => rw [rewrite_unmatched matched] at empty; cases empty
    | some result =>
      rcases rewrite_marked marks matched with ⟨kept, closing, same, _, closed⟩
      rw [same] at empty
      exact absurd (List.append_eq_nil_iff.mp (List.append_eq_nil_iff.mp empty).2).1 closed.filled

theorem last_rewrite {text : List A} {b : A} (last : (rewrite rule 0 text).getLast? = some b) :
    text.getLast? = some b ∨ edge b := by
  induction text using @rewrite_induction A rule with
  | nil => cases last
  | skip a rest unmatched ih =>
    rw [rewrite_unmatched unmatched] at last
    cases empty : rewrite rule 0 rest with
    | nil =>
      rw [empty] at last
      rw [rewrite_eq_nil marks empty]
      exact Or.inl last
    | cons c others =>
      rw [empty, List.getLast?_cons_cons, <- empty] at last
      cases rest with
      | nil => cases empty
      | cons d rest =>
        rw [List.getLast?_cons_cons]
        exact ih last
  | jump a rest written used matched ih =>
    rcases rewrite_marked marks matched with ⟨kept, closing, same, _, closed⟩
    rw [same, <- List.append_assoc] at last
    cases others : (a :: rest).drop (max used 1) with
    | nil =>
      rw [others, rewrite, List.append_nil, List.getLast?_append_of_ne_nil _ closed.filled] at last
      exact Or.inr (closed.last b last)
    | cons c more =>
      rw [others] at ih last
      have split : (a :: rest).getLast? = (c :: more).getLast? := by
        rw [<- others, List.getLast?_drop, if_neg]
        intro over_
        rw [List.drop_eq_nil_of_le over_] at others
        cases others
      rw [split]
      refine ih ?_
      cases written' : rewrite rule 0 (c :: more) with
      | nil => cases rewrite_eq_nil marks written'
      | cons d others' =>
        rw [written', List.getLast?_append_cons] at last
        exact last

end Marked

/-! ## Erasing -/

/-- The rule that erases what stands before the rest that `after` finds. -/
def erase (after : List A -> Option (List A)) : Rule A := fun text =>
  (after text).map fun rest => ([], text.length - rest.length)

/-- What `after` finds is a proper end of the text. -/
def Advances (after : List A -> Option (List A)) : Prop :=
  ∀ text rest, after text = some rest -> rest.IsSuffix text ∧ rest.length < text.length

section Erasing

variable {after : List A -> Option (List A)}

theorem erase_none {a : A} {rest : List A} (none_ : after (a :: rest) = none) :
    rewrite (erase after) 0 (a :: rest) = a :: rewrite (erase after) 0 rest :=
  rewrite_unmatched (by rw [erase, none_]; rfl)

theorem erase_some (advances : Advances after) {text rest : List A} (found : after text = some rest) :
    rewrite (erase after) 0 text = rewrite (erase after) 0 rest := by
  rcases advances text rest found with ⟨⟨gap, whole⟩, shorter⟩
  cases text with
  | nil => exact absurd shorter (Nat.not_lt_zero _)
  | cons a others =>
    have matched : erase after (a :: others) = some ([], (a :: others).length - rest.length) := by
      rw [erase, found]
      rfl
    have size := congrArg List.length whole
    rw [List.length_append] at size
    have cut : (a :: others).length - rest.length = gap.length := by omega
    rw [rewrite_match matched (by omega), List.nil_append, cut, <- whole, List.drop_left]

/-- Induction over the places where `after` is tried. -/
theorem erase_induction (advances : Advances after) {motive : List A -> Prop} (nil : motive [])
    (skip : ∀ a rest, after (a :: rest) = none -> motive rest -> motive (a :: rest))
    (jump : ∀ a others rest, after (a :: others) = some rest -> motive rest -> motive (a :: others))
    (text : List A) : motive text := by
  generalize size : text.length = n
  induction n using Nat.strongRecOn generalizing text with
  | ind n ih =>
    cases text with
    | nil => exact nil
    | cons a others =>
      cases found : after (a :: others) with
      | none =>
        refine skip a others found (ih others.length ?_ others rfl)
        rw [<- size, List.length_cons]
        exact Nat.lt_succ_self _
      | some rest =>
        exact jump a others rest found (ih rest.length (size ▸ (advances _ _ found).2) rest rfl)

theorem erase_nothing (text : List A) (absent : ∀ tail, tail.IsSuffix text -> tail ≠ [] -> after tail = none) :
    rewrite (erase after) 0 text = text := by
  induction text with
  | nil => rfl
  | cons a rest ih =>
    rw [erase_none (absent _ List.suffix_rfl (List.cons_ne_nil _ _)),
      ih fun tail ends => absent tail (ends.trans (List.suffix_cons _ _))]

end Erasing

section Separators

variable [DecidableEq A]

/-- `text.split(separator)`, with the piece that has been begun, once `skip`
more places have been passed. -/
def splitFrom (separator : List A) : Nat -> List A -> List A -> List (List A)
  | _, piece, [] => [piece]
  | skip + 1, piece, _ :: rest => splitFrom separator skip piece rest
  | 0, piece, a :: rest =>
    if separator.isPrefixOf (a :: rest) then piece :: splitFrom separator (separator.length - 1) [] rest
    else splitFrom separator 0 (piece ++ [a]) rest

def splitText (separator text : List A) : List (List A) := splitFrom separator 0 [] text

variable {separator : List A}

theorem splitFrom_skip (skip : Nat) (piece text : List A) :
    splitFrom separator skip piece text = splitFrom separator 0 piece (text.drop skip) := by
  induction text generalizing skip with
  | nil => cases skip <;> rfl
  | cons a rest ih =>
    cases skip with
    | zero => rfl
    | succ skip => exact ih skip

/-- Where the separator does not begin, the piece goes on. -/
theorem splitFrom_append {first rest : List A}
    (free : ∀ tail, tail ≠ [] -> tail.IsSuffix first -> ¬ separator.IsPrefix (tail ++ rest)) (piece : List A) :
    splitFrom separator 0 piece (first ++ rest) = splitFrom separator 0 (piece ++ first) rest := by
  induction first generalizing piece with
  | nil => rw [List.nil_append, List.append_nil]
  | cons a first ih =>
    have here : ¬ separator.isPrefixOf (a :: (first ++ rest)) = true := fun opens =>
      free (a :: first) (List.cons_ne_nil _ _) List.suffix_rfl (List.isPrefixOf_iff_prefix.mp opens)
    have later := ih (fun tail filled ends => free tail filled (ends.trans (List.suffix_cons _ _)))
      (piece ++ [a])
    rw [List.cons_append, splitFrom, if_neg here, later, List.append_assoc, List.singleton_append]

theorem splitFrom_separator (filled : separator ≠ []) (piece rest : List A) :
    splitFrom separator 0 piece (separator ++ rest) = piece :: splitFrom separator 0 [] rest := by
  cases separator with
  | nil => exact absurd rfl filled
  | cons a others =>
    have opens : (a :: others).isPrefixOf (a :: (others ++ rest)) = true :=
      List.isPrefixOf_iff_prefix.mpr (List.prefix_append (a :: others) rest)
    rw [List.cons_append, splitFrom, if_pos opens, splitFrom_skip]
    congr 2
    exact List.drop_left

end Separators

end Scanning
end Library
end FixLoop
