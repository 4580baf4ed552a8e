import DebugClient.Text.CharClass

/-!
`NAME = VALUE`, the form of a variable in a list of locals and of a field in a printed struct.
-/

namespace DebugClient.Assignment
open Text CharClass

/-- The name and the value. The value goes to the end of the text, which must be a single line
    from the value on. -/
def read? : Text → Option (Text × Text)
  | [] => none
  | c :: t =>
    if isNameStart c then
      match after? " = ".toList (t.dropWhile isWord) with
      | some value => if '\n' ∈ value then none else some (c :: t.takeWhile isWord, value)
      | none => none
    else none

theorem length_of_read? {t name value : Text} (hread : read? t = some (name, value)) :
    value.length < t.length := by
  cases t with
  | nil => simp [read?] at hread
  | cons c t =>
    simp only [read?] at hread
    split at hread
    · split at hread
      · next found hafter =>
        split at hread
        · simp at hread
        · have hlen : (t.dropWhile isWord).length ≤ t.length :=
            (List.dropWhile_sublist _).length_le
          rw [after?_eq_some_iff.1 hafter] at hlen
          simp only [Option.some.injEq, Prod.mk.injEq] at hread
          simp only [List.length_append, List.length_cons, ← hread.2] at hlen ⊢
          omega
      · simp at hread
    · simp at hread

end DebugClient.Assignment
