import DebugClient.Reply.Locals
import Mathlib.Data.List.TakeWhile

/-!
What is read from a list of variables. A name fits into a command: it is a single line, however the
values are spread over lines.
-/

namespace DebugClient

theorem Assignment.notMem_of_read? {line name value : Text} (hread : read? line = some (name, value)) :
    '\n' ∉ name := by
  cases line with
  | nil => cases hread
  | cons c line =>
    rw [read?] at hread
    split at hread
    · next hc =>
      split at hread
      · split at hread
        · cases hread
        · cases hread
          rw [List.mem_cons, not_or]
          refine ⟨?_, fun hmem => ?_⟩
          · rintro rfl
            exact absurd hc (by decide)
          · exact absurd (List.mem_takeWhile_imp hmem) (by decide)
      · cases hread
    · cases hread

namespace Locals

/-- The names read so far are all single lines. -/
def Progress.Named (progress : Progress) : Prop := ∀ observed ∈ progress.locals, '\n' ∉ observed.name

theorem Progress.Named.begin {progress : Progress} (hnamed : progress.Named) (line : Text) :
    (progress.begin line).Named := by
  rw [Progress.begin]
  split
  · next name value hread =>
    exact List.forall_mem_cons.2 ⟨Assignment.notMem_of_read? hread, hnamed⟩
  · exact hnamed

theorem Progress.Named.addLine {progress : Progress} (hnamed : progress.Named) (line : Text) :
    (progress.addLine line).Named := by
  rw [Progress.addLine]
  split
  · next latest earlier hlocals =>
    split
    · rw [Named, hlocals] at hnamed
      obtain ⟨hlatest, hearlier⟩ := List.forall_mem_cons.1 hnamed
      exact List.forall_mem_cons.2 ⟨hlatest, hearlier⟩
    · exact hnamed.begin line
  · exact hnamed.begin line

/-- However the values in a reply are spread over lines, the names are single lines. -/
theorem name_of_mem_all {reply : Text} {observed : Local} (hmem : observed ∈ all reply) :
    '\n' ∉ observed.name := by
  have hnamed (found : List Text) (progress : Progress) (hprogress : progress.Named) :
      (found.foldl Progress.addLine progress).Named := by
    induction found generalizing progress with
    | nil => exact hprogress
    | cons line found ih => exact ih _ (hprogress.addLine line)
  have hnone : Progress.Named {} := by
    intro observed hobserved
    cases hobserved
  exact hnamed _ _ hnone observed (List.mem_reverse.1 hmem)

end Locals

end DebugClient
