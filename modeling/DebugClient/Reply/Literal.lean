import DebugClient.Reply.Assignment
import DebugClient.Text.Numeral
import DebugClient.Text.Quoting

/-!
Values as the debugger prints them.

    {x = 3, next = 0x0}        a struct
    {1, 2, 0 <repeats 98 times>, 7...}        an array, abbreviated
    (node *) 0x5010            a pointer
    97 'a'                     anything else, kept as text
-/

namespace DebugClient

/-- A printed value. -/
inductive Literal where
  | scalar (text : Text)
  | pointer (address : Nat)
  | fields (fields : List (Text × Literal))
  | elements (elements : List Literal)
  deriving Repr, Inhabited

namespace Literal
open Text CharClass Numeral

/-- Most elements that one array expands to. -/
def elementLimit : Nat := 10000

/-- The stretches between commas that stand outside brackets and quotation marks. The depth may
    become negative where brackets are closed that were never opened. -/
def topLevelPieces : Quoting → Int → Text → List Text
  | _, _, [] => [[]]
  | quoting, depth, c :: t =>
    if quoting = .outside ∧ depth = 0 ∧ c = ',' then [] :: topLevelPieces quoting depth t
    else match topLevelPieces (quoting.next c) (depth + quoting.bracketStep c) t with
      | [] => [[c]]
      | first :: others => (c :: first) :: others

/-- The items between the braces of an aggregate. Blank text behind the last comma is no item. -/
def items (inner : Text) : List Text :=
  let stretches := (topLevelPieces .outside 0 inner).map trim
  match stretches.getLast? with
  | some [] => stretches.dropLast
  | _ => stretches

/-- The text between the outermost braces. -/
def braced? (t : Text) : Option Text := (after? ['{'] t).bind (before? ['}'])

/-- Dots behind the last item say that the debugger's limit cut the array short. -/
def dropEllipsis : List Text → List Text
  | [] => []
  | [last] =>
    match before? "...".toList last with
    | some printed => [trimEnd printed]
    | none => [last]
  | item :: others => item :: dropEllipsis others

/-- The digits in `repeats NUMBER times>`. -/
def repeatDigits? (t : Text) : Option Text := do
  let t ← after? "repeats ".toList t
  let (digits, t) ← run? isDigit t
  if t = " times>".toList then some digits else none

/-- An item's element and how often it stands in the array: `ITEM <repeats NUMBER times>` stands
    for as many elements, and once if the number is out of range. -/
def runOf (item : Text) : Text × Nat :=
  match splitLast? '<' item with
  | none => (item, 1)
  | some (before, mark) =>
    match repeatDigits? mark with
    | none => (item, 1)
    | some digits =>
      let element := trimEnd before
      if '\n' ∈ element then (item, 1) else (element, (decimal? largest64 digits).getD 1)

/-- The elements that runs of equal elements stand for, as far as there is room. -/
def expandRuns : Nat → List (Literal × Nat) → List Literal
  | _, [] => []
  | room, (element, count) :: others =>
    List.replicate (min count room) element ++ expandRuns (room - min count room) others

/-- Without a cast to a pointer type in front. -/
def dropPointerCast (t : Text) : Text :=
  match t with
  | '(' :: t =>
    match t.dropWhile (· ≠ ')') with
    | _ :: rest =>
      if (t.takeWhile (· ≠ ')')).getLast? = some '*' then trimStart rest else '(' :: t
    | [] => '(' :: t
  | _ => t

/-- The address that the text begins with, if no word character is joined to it. -/
def pointer? (t : Text) : Option Nat := do
  let t ← after? "0x".toList (dropPointerCast t)
  let (digits, rest) ← run? isHex t
  if rest.head?.any isWord then none else hex? largest64 digits

/-! Every part that is read on its own is shorter than the text that it is part of. -/

theorem length_trim_le (t : Text) : (trim t).length ≤ t.length := by
  have hstart : (trimStart t).length ≤ t.length := (List.dropWhile_sublist _).length_le
  have hend : ((trimStart t).reverse.dropWhile isBlank).length ≤ (trimStart t).reverse.length :=
    (List.dropWhile_sublist _).length_le
  simp only [List.length_reverse] at hend
  simp only [trim, trimEnd, List.length_reverse]
  omega

theorem length_trimEnd_le (t : Text) : (trimEnd t).length ≤ t.length := by
  have hend : (t.reverse.dropWhile isBlank).length ≤ t.reverse.length :=
    (List.dropWhile_sublist _).length_le
  simpa [trimEnd] using hend

theorem length_topLevelPieces {quoting : Quoting} {depth : Int} {t piece : Text}
    (hpiece : piece ∈ topLevelPieces quoting depth t) : piece.length ≤ t.length := by
  induction t generalizing quoting depth piece with
  | nil => simp_all [topLevelPieces]
  | cons c t ih =>
    simp only [topLevelPieces] at hpiece
    split at hpiece
    · rcases List.mem_cons.1 hpiece with rfl | hmem
      · simp
      · have := ih hmem
        simp only [List.length_cons]
        omega
    · split at hpiece
      · simp_all
      · next first others heq =>
        rcases List.mem_cons.1 hpiece with rfl | hmem
        · have := ih (heq ▸ List.mem_cons_self : first ∈ _)
          simp only [List.length_cons]
          omega
        · have := ih (heq ▸ List.mem_cons_of_mem first hmem : piece ∈ _)
          simp only [List.length_cons]
          omega

theorem length_items {inner item : Text} (hitem : item ∈ items inner) :
    item.length ≤ inner.length := by
  have hmem : item ∈ (topLevelPieces .outside 0 inner).map trim := by
    simp only [items] at hitem
    split at hitem
    · exact (List.dropLast_sublist _).mem hitem
    · exact hitem
  obtain ⟨piece, hpiece, rfl⟩ := List.mem_map.1 hmem
  exact Nat.le_trans (length_trim_le piece) (length_topLevelPieces hpiece)

theorem length_dropEllipsis {bound : Nat} {printed : List Text} {item : Text}
    (hbound : ∀ other ∈ printed, other.length ≤ bound) (hitem : item ∈ dropEllipsis printed) :
    item.length ≤ bound := by
  fun_induction dropEllipsis printed with
  | case1 => simp at hitem
  | case2 last shown hshown =>
    rw [List.mem_singleton.1 hitem]
    have hlast := hbound last (by simp)
    rw [before?_eq_some_iff.1 hshown] at hlast
    have := length_trimEnd_le shown
    simp only [List.length_append] at hlast
    omega
  | case3 last hshown => exact hbound item hitem
  | case4 first others hne ih =>
    rcases List.mem_cons.1 hitem with rfl | hmem
    · exact hbound _ (by simp)
    · exact ih (fun other hother => hbound other (by simp [hother])) hmem

theorem length_splitLast? {c : Char} {t before after : Text}
    (hsplit : splitLast? c t = some (before, after)) : before.length < t.length := by
  simp only [splitLast?] at hsplit
  split at hsplit
  · simp at hsplit
  · next d front heq =>
    simp only [Option.some.injEq, Prod.mk.injEq] at hsplit
    have hlen : (t.reverse.dropWhile fun d => decide (d ≠ c)).length ≤ t.reverse.length :=
      (List.dropWhile_sublist _).length_le
    rw [heq] at hlen
    simp only [List.length_cons, List.length_reverse] at hlen
    rw [← hsplit.1, List.length_reverse]
    omega

theorem length_runOf (item : Text) : (runOf item).1.length ≤ item.length := by
  unfold runOf
  split
  · simp
  · next before mark hsplit =>
    split
    · simp
    · have hbefore := length_splitLast? hsplit
      have htrim := length_trimEnd_le before
      dsimp only
      split
      · simp
      · simp only
        omega

theorem length_braced? {t inner : Text} (hbraced : braced? t = some inner) :
    inner.length < t.length := by
  simp only [braced?, Option.bind_eq_some_iff, after?_eq_some_iff, before?_eq_some_iff] at hbraced
  obtain ⟨rest, rfl, rfl⟩ := hbraced
  simp only [List.length_append, List.length_cons]
  omega

/-- The value that the debugger printed as `t`. An aggregate is a struct if its first item is an
    assignment, and then items that are none are passed over. -/
def read (t : Text) : Literal :=
  match _ : braced? (trim t) with
  | some inner =>
    if ((items inner).head?.bind Assignment.read?).isSome then
      .fields <| (items inner).attach.filterMap fun ⟨item, _⟩ =>
        match _ : Assignment.read? item with
        | some (name, value) => some (name, read value)
        | none => none
    else
      .elements <| expandRuns elementLimit <|
        (dropEllipsis (items inner)).attach.map fun ⟨item, _⟩ =>
          (read (runOf item).1, (runOf item).2)
  | none =>
    match pointer? (trim t) with
    | some address => .pointer address
    | none => .scalar (trim t)
termination_by t.length
decreasing_by
  · have hinner := length_braced? ‹_›
    have htrim := length_trim_le t
    have hlen := length_items ‹_›
    have hvalue := Assignment.length_of_read? ‹_›
    omega
  · have hinner := length_braced? ‹_›
    have htrim := length_trim_le t
    have hlen := length_dropEllipsis (fun _ => length_items) ‹_›
    have hrun := length_runOf item
    omega

/-- What `read` makes of a text, in terms of what it makes of the parts. -/
theorem read_eq (t : Text) :
    read t =
      match braced? (trim t) with
      | some inner =>
        if ((items inner).head?.bind Assignment.read?).isSome then
          .fields <| (items inner).filterMap fun item =>
            (Assignment.read? item).map fun (name, value) => (name, read value)
        else
          .elements <| expandRuns elementLimit <|
            (dropEllipsis (items inner)).map fun item => (read (runOf item).1, (runOf item).2)
      | none =>
        match pointer? (trim t) with
        | some address => .pointer address
        | none => .scalar (trim t) := by
  rw [read]
  split
  · next inner hbraced =>
    simp only [hbraced]
    split
    · congr 1
      conv => rhs; rw [← List.attach_map_subtype_val (items inner), List.filterMap_map]
      congr 1
      funext ⟨item, hitem⟩
      dsimp only [Function.comp]
      split <;> simp_all
    · congr 2
      conv => rhs; rw [← List.attach_map_subtype_val (dropEllipsis (items inner)), List.map_map]
      rfl
  · next hbraced => simp only [hbraced]

/-! Equality of printed values can be decided. -/

mutual
def decEq : (a b : Literal) → Decidable (a = b)
  | .scalar s, .scalar t => if h : s = t then isTrue (h ▸ rfl) else isFalse (by simp [h])
  | .pointer m, .pointer n => if h : m = n then isTrue (h ▸ rfl) else isFalse (by simp [h])
  | .fields fs, .fields gs =>
    match decEqFields fs gs with
    | isTrue h => isTrue (h ▸ rfl)
    | isFalse h => isFalse (by simp [h])
  | .elements xs, .elements ys =>
    match decEqList xs ys with
    | isTrue h => isTrue (h ▸ rfl)
    | isFalse h => isFalse (by simp [h])
  | .scalar _, .pointer _ | .scalar _, .fields _ | .scalar _, .elements _
  | .pointer _, .scalar _ | .pointer _, .fields _ | .pointer _, .elements _
  | .fields _, .scalar _ | .fields _, .pointer _ | .fields _, .elements _
  | .elements _, .scalar _ | .elements _, .pointer _ | .elements _, .fields _ => isFalse (by simp)

def decEqList : (xs ys : List Literal) → Decidable (xs = ys)
  | [], [] => isTrue rfl
  | [], _ :: _ | _ :: _, [] => isFalse (by simp)
  | x :: xs, y :: ys =>
    match decEq x y, decEqList xs ys with
    | isTrue hx, isTrue hxs => isTrue (hx ▸ hxs ▸ rfl)
    | isFalse hx, _ => isFalse (by simp [hx])
    | _, isFalse hxs => isFalse (by simp [hxs])

def decEqFields : (fs gs : List (Text × Literal)) → Decidable (fs = gs)
  | [], [] => isTrue rfl
  | [], _ :: _ | _ :: _, [] => isFalse (by simp)
  | (m, x) :: fs, (n, y) :: gs =>
    if hn : m = n then
      match decEq x y, decEqFields fs gs with
      | isTrue hx, isTrue hfs => isTrue (hn ▸ hx ▸ hfs ▸ rfl)
      | isFalse hx, _ => isFalse (by simp [hx])
      | _, isFalse hfs => isFalse (by simp [hfs])
    else isFalse (by simp [hn])
end

instance : DecidableEq Literal := decEq

end Literal
end DebugClient
