import Mathlib.Data.List.Basic

namespace FixLoop
namespace Library

/-!
# Hash chains

A chain numbers its links from one number on, and every link carries the
checksum of the one before.  Where the checksum determines what it covers, the
last link of a chain determines all of it.
-/

structure Link (Body : Type) where
  seq : Int
  previous : String
  checksum : String
  body : Body

variable {Body : Type}

section Chains

variable (checksumOf : Int -> String -> Body -> String)

/-- The links are a chain from the given number and checksum on. -/
def Chained : Int -> String -> List (Link Body) -> Prop
  | _, _, [] => True
  | seq, previous, link :: rest =>
    link.seq = seq ∧ link.previous = previous ∧
      link.checksum = checksumOf link.seq link.previous link.body ∧
      Chained (seq + 1) link.checksum rest

/-- The checksum determines the number, the checksum before and the body. -/
def Binding : Prop := ∀ seq previous body seq' previous' body',
  checksumOf seq previous body = checksumOf seq' previous' body' ->
    seq = seq' ∧ previous = previous' ∧ body = body'

end Chains

variable {checksumOf : Int -> String -> Body -> String} {seq : Int} {previous : String}

theorem Chained.take {links : List (Link Body)} (chained : Chained checksumOf seq previous links)
    (count : Nat) : Chained checksumOf seq previous (links.take count) := by
  induction count generalizing links seq previous with
  | zero => exact True.intro
  | succ count ih =>
    cases links with
    | nil => exact True.intro
    | cons link rest => exact ⟨chained.1, chained.2.1, chained.2.2.1, ih chained.2.2.2⟩

/-- The number of the last link tells the length. -/
theorem Chained.last_seq {links : List (Link Body)} (chained : Chained checksumOf seq previous links)
    {last : Link Body} (ends : links.getLast? = some last) :
    last.seq = seq + links.length - 1 := by
  induction links generalizing seq previous with
  | nil => cases ends
  | cons link rest ih =>
    cases rest with
    | nil =>
      have same : link = last := Option.some.inj ends
      rw [← same, chained.1, List.length_singleton]
      omega
    | cons next later =>
      rw [List.getLast?_cons_cons] at ends
      rw [ih chained.2.2.2 ends, List.length_cons (a := link)]
      push_cast
      omega

/-- Chains of one length with one last checksum are equal from the start on. -/
theorem Chained.eq_of_last (binding : Binding checksumOf) {first second : List (Link Body)}
    {earlier : String} (left : Chained checksumOf seq previous first)
    (right : Chained checksumOf seq earlier second) (nonempty : first ≠ [])
    (lengths : first.length = second.length)
    (ends : first.getLast?.map Link.checksum = second.getLast?.map Link.checksum) :
    first = second ∧ previous = earlier := by
  induction first generalizing seq previous earlier second with
  | nil => exact absurd rfl nonempty
  | cons link rest ih =>
    cases second with
    | nil => cases lengths
    | cons other others =>
      rcases left with ⟨number, before, sealed, later⟩
      rcases right with ⟨number', before', sealed', later'⟩
      have heads : rest = others ∧ link.checksum = other.checksum := by
        cases rest with
        | nil =>
          cases others with
          | nil => exact ⟨rfl, Option.some.inj ends⟩
          | cons _ _ => cases lengths
        | cons next remaining =>
          cases others with
          | nil => cases lengths
          | cons _ _ =>
            rw [List.getLast?_cons_cons, List.getLast?_cons_cons] at ends
            exact ih later later' (List.cons_ne_nil _ _) (Nat.succ.inj lengths) ends
      rcases heads with ⟨rfl, same⟩
      rcases binding _ _ _ _ _ _ (sealed.symm.trans (same.trans sealed')) with ⟨_, earlier, bodies⟩
      refine ⟨?_, before.symm.trans (earlier.trans before')⟩
      cases link
      cases other
      cases number
      cases number'
      cases earlier
      cases bodies
      cases same
      rfl

end Library
end FixLoop
