import FixLoop.Library.Fallible

namespace FixLoop
namespace Library

universe u v

/-!
# Rewriting one position after another

While a list is busy, the first position at which the change applies is
changed.  The loop has fuel; where a changed position is not changed again,
the length of the list is enough of it, and the oldest positions are changed.
-/

variable {Item : Type u} {Error : Type v} (change : Nat -> Item -> Except Error (Option Item))

/-- Change the first position, counted from the index, to which the change
applies. -/
def changeFirst : Nat -> List Item -> Except Error (Option (List Item))
  | _, [] => .ok none
  | index, item :: rest =>
    change index item >>= fun changed =>
      match changed with
      | some other => .ok (some (other :: rest))
      | none => (changeFirst (index + 1) rest).map (Option.map (List.cons item))

def changeWhile (busy : List Item -> Bool) : Nat -> List Item -> Except Error (List Item)
  | 0, items => .ok items
  | fuel + 1, items =>
    if busy items then
      changeFirst change 0 items >>= fun changed =>
        match changed with
        | some others => changeWhile busy fuel others
        | none => .ok items
    else .ok items

theorem changeWhile_step (busy : List Item -> Bool) (fuel : Nat) (items : List Item) :
    changeWhile change busy (fuel + 1) items =
      if busy items then
        changeFirst change 0 items >>= fun changed =>
          match changed with
          | some others => changeWhile change busy fuel others
          | none => .ok items
      else .ok items :=
  rfl

variable {change}

theorem changeFirst_cons {index : Nat} {item : Item} {rest others : List Item}
    (changed : changeFirst change index (item :: rest) = .ok (some others)) :
    (∃ other, change index item = .ok (some other) ∧ others = other :: rest) ∨
      change index item = .ok none ∧ ∃ later,
        changeFirst change (index + 1) rest = .ok (some later) ∧ others = item :: later := by
  rw [changeFirst] at changed
  rcases Fallible.bind_ok changed with ⟨outcome, tried, continued⟩
  cases outcome with
  | some other =>
    cases continued
    exact Or.inl ⟨other, tried, rfl⟩
  | none =>
    rcases Fallible.map_ok continued with ⟨found, searched, attached⟩
    cases found with
    | none => cases attached
    | some later =>
      cases attached
      exact Or.inr ⟨tried, later, searched, rfl⟩

/-! ## What every change preserves -/

theorem forall₂_transitive {related : Item -> Item -> Prop}
    (transitive : ∀ first second third, related first second -> related second third ->
      related first third) {items others results : List Item}
    (before : List.Forall₂ related items others) (after : List.Forall₂ related others results) :
    List.Forall₂ related items results := by
  induction before generalizing results with
  | nil =>
    cases after
    exact List.Forall₂.nil
  | cons here _ ih =>
    cases after with
    | cons there later => exact List.Forall₂.cons (transitive _ _ _ here there) (ih later)

theorem forall₂_valid {valid : Item -> Prop} {items others : List Item}
    (related : List.Forall₂ (fun item other => valid item -> valid other) items others)
    (allValid : ∀ item ∈ items, valid item) :
    ∀ item ∈ others, valid item := by
  induction related with
  | nil => nofun
  | cons keeps _ ih =>
    rcases List.forall_mem_cons.mp allValid with ⟨head, tail⟩
    exact List.forall_mem_cons.mpr ⟨keeps head, ih tail⟩

section Related

variable {related : Item -> Item -> Prop} (reflexive : ∀ item, related item item)
  (changes : ∀ index item other, change index item = .ok (some other) -> related item other)
include reflexive changes

theorem changeFirst_related {index : Nat} {items others : List Item}
    (changed : changeFirst change index items = .ok (some others)) :
    List.Forall₂ related items others := by
  induction items generalizing index others with
  | nil => cases changed
  | cons item rest ih =>
    rcases changeFirst_cons changed with ⟨other, here, rfl⟩ | ⟨-, later, found, rfl⟩
    · exact List.Forall₂.cons (changes index item other here)
        (List.forall₂_same.mpr fun same _ => reflexive same)
    · exact List.Forall₂.cons (reflexive item) (ih found)

theorem changeWhile_related
    (transitive : ∀ first second third, related first second -> related second third ->
      related first third)
    {busy : List Item -> Bool} {fuel : Nat} {items others : List Item}
    (changed : changeWhile change busy fuel items = .ok others) :
    List.Forall₂ related items others := by
  have stays : List.Forall₂ related items items :=
    List.forall₂_same.mpr fun same _ => reflexive same
  induction fuel generalizing items with
  | zero =>
    cases changed
    exact stays
  | succ fuel ih =>
    rw [changeWhile_step] at changed
    split at changed
    · rcases Fallible.bind_ok changed with ⟨outcome, first, continued⟩
      cases outcome with
      | none =>
        cases continued
        exact stays
      | some middle =>
        have begun := changeFirst_related reflexive changes first
        have finished := ih continued (List.forall₂_same.mpr fun same _ => reflexive same)
        exact forall₂_transitive transitive begun finished
    · cases changed
      exact stays

end Related

section Returns

variable {valid : Item -> Prop}
  (returns : ∀ index item, valid item -> Fallible.Returns (change index item))
include returns

theorem changeFirst_returns {index : Nat} {items : List Item}
    (allValid : ∀ item ∈ items, valid item) :
    Fallible.Returns (changeFirst change index items) := by
  induction items generalizing index with
  | nil => exact Fallible.returns_ok none
  | cons item rest ih =>
    refine (returns index item (allValid item List.mem_cons_self)).bind fun outcome _ => ?_
    cases outcome with
    | some other => exact Fallible.returns_ok _
    | none =>
      exact (ih fun other member => allValid other (List.mem_cons_of_mem _ member)).map

/-- The loop returns if every change does and leaves the items valid. -/
theorem changeWhile_returns
    (keeps : ∀ index item other, change index item = .ok (some other) -> valid item -> valid other)
    (busy : List Item -> Bool) (fuel : Nat) {items : List Item}
    (allValid : ∀ item ∈ items, valid item) :
    Fallible.Returns (changeWhile change busy fuel items) := by
  induction fuel generalizing items with
  | zero => exact Fallible.returns_ok items
  | succ fuel ih =>
    rw [changeWhile_step]
    split
    · refine (changeFirst_returns returns allValid).bind fun outcome first => ?_
      cases outcome with
      | none => exact Fallible.returns_ok items
      | some others =>
        have related := changeFirst_related (fun _ held => held) keeps first
        exact ih (forall₂_valid related allValid)
    · exact Fallible.returns_ok items

end Returns

section Oldest

variable (change)

/-- As many positions are changed as the count says, the first ones to which
the change applies. -/
inductive Oldest : Nat -> Nat -> List Item -> List Item -> Prop where
  | stop (index : Nat) (items : List Item) : Oldest index 0 items items
  | skip {index count : Nat} {item : Item} {rest later : List Item} :
      change index item = .ok none -> Oldest (index + 1) (count + 1) rest later ->
        Oldest index (count + 1) (item :: rest) (item :: later)
  | next {index count : Nat} {item other : Item} {rest later : List Item} :
      change index item = .ok (some other) -> Oldest (index + 1) count rest later ->
        Oldest index (count + 1) (item :: rest) (other :: later)

/-- The oldest positions are changed, and no more of them than it takes to
make the list idle.  It stays busy only if nothing is left to change. -/
def Least (busy : List Item -> Bool) (items others : List Item) : Prop :=
  ∃ count, Oldest change 0 count items others ∧
    (∀ fewer < count, ∃ middle, Oldest change 0 fewer items middle ∧ busy middle = true) ∧
    (busy others = true -> changeFirst change 0 others = .ok none)

variable {change} {items others middle : List Item}

theorem Oldest.count_le {index count : Nat} (oldest : Oldest change index count items others) :
    count ≤ items.length := by
  induction oldest with
  | stop index items => exact Nat.zero_le _
  | skip _ _ ih => exact Nat.le_succ_of_le ih
  | next _ _ ih => exact Nat.succ_le_succ ih

theorem changeFirst_oldest {index : Nat}
    (changed : changeFirst change index items = .ok (some others)) :
    Oldest change index 1 items others := by
  induction items generalizing index others with
  | nil => cases changed
  | cons item rest ih =>
    rcases changeFirst_cons changed with ⟨other, here, rfl⟩ | ⟨alone, later, found, rfl⟩
    · exact Oldest.next here (Oldest.stop _ rest)
    · exact Oldest.skip alone (ih found)

variable {valid : Item -> Prop}
  (settles : ∀ index item other, valid item -> change index item = .ok (some other) ->
    change index other = .ok none)
include settles

/-- A position that was changed is passed over by the next search. -/
theorem Oldest.snoc {index count : Nat} (oldest : Oldest change index count items middle)
    (allValid : ∀ item ∈ items, valid item)
    (changed : changeFirst change index middle = .ok (some others)) :
    Oldest change index (count + 1) items others := by
  induction oldest generalizing others with
  | stop index items => exact changeFirst_oldest changed
  | @skip index count item rest later alone _ ih =>
    have tail := (List.forall_mem_cons.mp allValid).2
    rcases changeFirst_cons changed with ⟨other, here, -⟩ | ⟨-, found, search, rfl⟩
    · rw [alone] at here
      cases here
    · exact Oldest.skip alone (ih tail search)
  | @next index count item other rest later here _ ih =>
    rcases List.forall_mem_cons.mp allValid with ⟨head, tail⟩
    have closed := settles index item other head here
    rcases changeFirst_cons changed with ⟨again, reopened, -⟩ | ⟨-, found, search, rfl⟩
    · rw [closed] at reopened
      cases reopened
    · exact Oldest.next here (ih tail search)

/-- Where every position was changed, nothing is left to change. -/
theorem Oldest.closed {index count : Nat} (oldest : Oldest change index count items others)
    (allValid : ∀ item ∈ items, valid item) (full : items.length ≤ count) :
    changeFirst change index others = .ok none := by
  induction oldest with
  | stop index items =>
    rw [List.length_eq_zero_iff.mp (Nat.le_zero.mp full)]
    rfl
  | skip _ later _ =>
    exact absurd (Nat.le_trans full later.count_le) (Nat.not_succ_le_self _)
  | @next index count item other rest later here _ ih =>
    rcases List.forall_mem_cons.mp allValid with ⟨head, tail⟩
    rw [changeFirst, settles index item other head here]
    exact congrArg (Except.map (Option.map (List.cons other))) (ih tail (Nat.le_of_succ_le_succ full))

/-- With as much fuel as there are positions, the loop ends where it should. -/
theorem changeWhile_least {busy : List Item -> Bool} (allValid : ∀ item ∈ items, valid item)
    (changed : changeWhile change busy items.length items = .ok others) :
    Least change busy items others := by
  have run : ∀ fuel count middle, fuel + count = items.length -> Oldest change 0 count items middle ->
      (∀ fewer < count, ∃ passed, Oldest change 0 fewer items passed ∧ busy passed = true) ->
      changeWhile change busy fuel middle = .ok others -> Least change busy items others := by
    intro fuel
    induction fuel with
    | zero =>
      intro count middle full oldest passed ended
      cases ended
      refine ⟨count, oldest, passed, fun _ => oldest.closed settles allValid ?_⟩
      exact Nat.le_of_eq (full.symm.trans (Nat.zero_add count))
    | succ fuel ih =>
      intro count middle full oldest passed ended
      rw [changeWhile_step] at ended
      split at ended
      · rename_i stillBusy
        rcases Fallible.bind_ok ended with ⟨outcome, first, continued⟩
        cases outcome with
        | none =>
          cases continued
          exact ⟨count, oldest, passed, fun _ => first⟩
        | some next =>
          refine ih (count + 1) next (by omega) (oldest.snoc settles allValid first) ?_ continued
          intro fewer below
          rcases Nat.lt_succ_iff_lt_or_eq.mp below with earlier | rfl
          · exact passed fewer earlier
          · exact ⟨middle, oldest, stillBusy⟩
      · rename_i idle
        cases ended
        exact ⟨count, oldest, passed, fun stillBusy => absurd stillBusy idle⟩
  exact run items.length 0 items rfl (Oldest.stop 0 items) (fun _ below => nomatch below) changed

end Oldest

end Library
end FixLoop
