/-!
Courier.Text.Split — texts cut at a separator.
-/

namespace Courier.Text

/-- The pieces of a text between the places where a character stands: one more than there are
such places. -/
def splitAt (separator : Char) : List Char → List (List Char)
  | [] => [[]]
  | c :: rest =>
      match splitAt separator rest with
      | [] => [[c]]
      | piece :: pieces => if c = separator then [] :: piece :: pieces else (c :: piece) :: pieces

theorem splitAt_ne_nil (separator : Char) (cs : List Char) : splitAt separator cs ≠ [] := by
  cases cs with
  | nil => simp [splitAt]
  | cons c rest =>
      simp only [splitAt]
      split
      · simp
      · split <;> simp

/-- What stands before and after the first place where two such characters stand together. -/
def splitAtPair (separator : Char) : List Char → Option (List Char × List Char)
  | a :: b :: rest =>
      if a = separator ∧ b = separator then some ([], rest)
      else (splitAtPair separator (b :: rest)).map fun parts => (a :: parts.1, parts.2)
  | _ => none

end Courier.Text
