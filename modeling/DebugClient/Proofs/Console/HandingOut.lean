import DebugClient.Proofs.Console.Reception

/-!
Handing out the output of a command, each byte of it once. The buffer keeps what has been handed out
apart from what is held. Kept as one text with an offset to where it has been handed out, it would have
to be cut at that offset and at places that the caller names; it behaves the same, and no cut can fail.
Whatever is asked of the buffer, the pieces handed out since it was last new make up the text in front
of the offset.
-/

namespace DebugClient

namespace Text

/-- A place between two characters, or at an end of the text. -/
def IsBoundary (t : Text) (n : Nat) : Prop := (splitAtByte? n t).isSome

instance (t : Text) (n : Nat) : Decidable (IsBoundary t n) :=
  inferInstanceAs (Decidable (_ = true))

/-- The bytes from `start` up to `stop`. There are none to be had unless both places are in the text, in
    this order, and neither is inside a character. -/
def slice? (start stop : Nat) (t : Text) : Option Text :=
  (splitAtByte? stop t).bind fun (front, _) => (splitAtByte? start front).map (·.2)

theorem isBoundary_iff {t : Text} {n : Nat} :
    IsBoundary t n ↔ ∃ front back, t = front ++ back ∧ byteLength front = n := by
  rw [IsBoundary, Option.isSome_iff_exists]
  constructor
  · rintro ⟨⟨front, back⟩, hsplit⟩
    exact ⟨front, back, eq_append_of_splitAtByte? hsplit⟩
  · rintro ⟨front, back, rfl, rfl⟩
    exact ⟨_, splitAtByte?_append front back⟩

theorem slice?_append (front part back : Text) :
    slice? (byteLength front) (byteLength (front ++ part)) (front ++ part ++ back) = some part := by
  rw [slice?, splitAtByte?_append, Option.bind_some]
  dsimp only
  rw [splitAtByte?_append]
  rfl

theorem slice?_zero_append (front back : Text) :
    slice? 0 (byteLength front) (front ++ back) = some front :=
  slice?_append [] front back

theorem takeBytes_of_byteLength_le {t : Text} {n : Nat} (hle : byteLength t ≤ n) :
    takeBytes n t = t := by
  induction t generalizing n with
  | nil => rfl
  | cons c t ih =>
    rw [byteLength] at hle
    rw [takeBytes, if_pos (by omega), ih (by omega)]

end Text

namespace CarryBuffer
open Text

/-- What may be asked of the buffer. -/
inductive Operation where
  | push (chunk : Text)
  | take (stop : Nat)
  | finish (stop : Nat)
  | clear
  deriving DecidableEq, Repr

/-- What the operation returns, if anything, and the buffer that it leaves. -/
def perform (operation : Operation) (carry : CarryBuffer) : Option Text × CarryBuffer :=
  match operation with
  | .push chunk => (none, carry.push chunk)
  | .take stop => carry.takeUnstreamed stop
  | .finish stop => (some (carry.finish stop).1, (carry.finish stop).2)
  | .clear => (none, carry.clear)

def performAll : List Operation → CarryBuffer → List (Option Text) × CarryBuffer
  | [], carry => ([], carry)
  | operation :: operations, carry =>
    let (result, next) := carry.perform operation
    let (results, last) := next.performAll operations
    (result :: results, last)

/-- The output ends at a place between two characters, or is all of the text. -/
def Admits (carry : CarryBuffer) : Operation → Prop
  | .finish stop => byteLength carry.text ≤ stop ∨ IsBoundary carry.text stop
  | _ => True

instance (carry : CarryBuffer) (operation : Operation) : Decidable (carry.Admits operation) :=
  match operation with
  | .finish _ => inferInstanceAs (Decidable (_ ∨ _))
  | .push _ | .take _ | .clear => inferInstanceAs (Decidable True)

/-- Each operation is admitted at the moment when it is performed. -/
def AdmitsAll : CarryBuffer → List Operation → Prop
  | _, [] => True
  | carry, operation :: operations =>
    carry.Admits operation ∧ (carry.perform operation).2.AdmitsAll operations

instance decidableAdmitsAll : (carry : CarryBuffer) → (operations : List Operation) →
    Decidable (carry.AdmitsAll operations)
  | _, [] => inferInstanceAs (Decidable True)
  | carry, operation :: operations =>
    have := decidableAdmitsAll (carry.perform operation).2 operations
    inferInstanceAs (Decidable (_ ∧ _))

/-! ### One text and an offset -/

/-- The same output as one text, of which so many bytes have been handed out. -/
structure Cursor where
  text : Text := []
  position : Nat := 0
  deriving DecidableEq, Repr

namespace Cursor

/-- Hand out the bytes up to `stop`, unless that place has been passed or is inside a character. -/
def take? (stop : Nat) (cursor : Cursor) : Option (Option Text × Cursor) :=
  let stop := min stop (byteLength cursor.text)
  if stop ≤ cursor.position ∨ ¬ IsBoundary cursor.text stop then some (none, cursor)
  else (slice? cursor.position stop cursor.text).map fun piece =>
    (some piece, { cursor with position := stop })

def finish? (stop : Nat) (cursor : Cursor) : Option (Option Text × Cursor) :=
  if byteLength cursor.text < stop then some (some cursor.text, {})
  else (slice? 0 stop cursor.text).map fun front => (some front, {})

/-- Fails if the text has to be cut at a place where it cannot be cut. -/
def perform? (operation : Operation) (cursor : Cursor) : Option (Option Text × Cursor) :=
  match operation with
  | .push chunk => some (none, { cursor with text := cursor.text ++ chunk })
  | .take stop => cursor.take? stop
  | .finish stop => cursor.finish? stop
  | .clear => some (none, {})

def performAll? : List Operation → Cursor → Option (List (Option Text) × Cursor)
  | [], cursor => some ([], cursor)
  | operation :: operations, cursor =>
    (cursor.perform? operation).bind fun (result, next) =>
      (next.performAll? operations).map fun (results, last) => (result :: results, last)

end Cursor

def cursor (carry : CarryBuffer) : Cursor :=
  { text := carry.text, position := byteLength carry.streamed }

variable {carry : CarryBuffer} {operation : Operation} {operations : List Operation}

theorem take?_cursor (stop : Nat) (carry : CarryBuffer) : carry.cursor.take? stop =
    some ((carry.takeUnstreamed stop).1, (carry.takeUnstreamed stop).2.cursor) := by
  change Cursor.take? stop ⟨carry.text, byteLength carry.streamed⟩ = _
  rw [Cursor.take?, takeUnstreamed]
  dsimp only
  by_cases hpassed : min stop (byteLength carry.text) ≤ byteLength carry.streamed
  · rw [if_pos (Or.inl hpassed), if_pos hpassed]
    rfl
  · rw [if_neg hpassed]
    cases hsplit : splitAtByte? (min stop (byteLength carry.text) - byteLength carry.streamed)
        carry.held with
    | some parts =>
      obtain ⟨out, held⟩ := parts
      obtain ⟨hheld, hlength⟩ := eq_append_of_splitAtByte? hsplit
      have htext : carry.text = carry.streamed ++ out ++ held := by
        rw [text, hheld, List.append_assoc]
      have hstop : min stop (byteLength carry.text) = byteLength (carry.streamed ++ out) := by
        rw [byteLength_append]
        omega
      have hboundary : IsBoundary carry.text (min stop (byteLength carry.text)) :=
        isBoundary_iff.2 ⟨_, held, htext, hstop.symm⟩
      rw [if_neg (not_or.2 ⟨hpassed, not_not.2 hboundary⟩), hstop, htext, slice?_append]
      rfl
    | none =>
      have hinside : ¬ IsBoundary carry.text (min stop (byteLength carry.text)) := by
        intro hboundary
        obtain ⟨front, back, htext, hfront⟩ := isBoundary_iff.1 hboundary
        obtain ⟨more, rfl⟩ := prefix_of_byteLength_le (List.prefix_append _ carry.held)
          (htext ▸ List.prefix_append front back) (by omega)
        have hheld : carry.held = more ++ back := by
          rw [text, List.append_assoc] at htext
          exact List.append_cancel_left htext
        rw [← hfront, byteLength_append, Nat.add_sub_cancel_left, hheld, splitAtByte?_append] at hsplit
        cases hsplit
      rw [if_pos (Or.inr hinside)]
      rfl

theorem finish?_cursor {stop : Nat} (hadmits : carry.Admits (.finish stop)) :
    carry.cursor.finish? stop = some (some (carry.finish stop).1, (carry.finish stop).2.cursor) := by
  change Cursor.finish? stop ⟨carry.text, byteLength carry.streamed⟩ = _
  rw [Cursor.finish?, finish]
  dsimp only
  by_cases hbeyond : byteLength carry.text < stop
  · rw [if_pos hbeyond, takeBytes_of_byteLength_le (Nat.le_of_lt hbeyond)]
    rfl
  · have hboundary : IsBoundary carry.text stop := by
      rcases hadmits with hall | hboundary
      · exact isBoundary_iff.2 ⟨carry.text, [], by simp, by omega⟩
      · exact hboundary
    obtain ⟨front, back, htext, rfl⟩ := isBoundary_iff.1 hboundary
    rw [if_neg hbeyond, htext, slice?_zero_append, takeBytes_append]
    rfl

theorem perform?_cursor (hadmits : carry.Admits operation) : carry.cursor.perform? operation =
    some ((carry.perform operation).1, (carry.perform operation).2.cursor) := by
  cases operation with
  | push chunk => simp [Cursor.perform?, perform, cursor, push, text]
  | take stop => exact take?_cursor stop carry
  | finish stop => exact finish?_cursor hadmits
  | clear => rfl

/-- The buffer and the text with its offset return the same, and no cut fails. -/
theorem performAll?_cursor (hadmits : carry.AdmitsAll operations) :
    carry.cursor.performAll? operations =
      some ((carry.performAll operations).1, (carry.performAll operations).2.cursor) := by
  induction operations generalizing carry with
  | nil => rfl
  | cons operation operations ih =>
    obtain ⟨hfirst, hothers⟩ := hadmits
    rw [Cursor.performAll?, perform?_cursor hfirst, Option.bind_some]
    dsimp only
    rw [ih hothers]
    rfl

/-! ### The account of a run -/

/-- What has come in and what has been handed out since the buffer was last new. -/
structure Account where
  arrived : Text := []
  pieces : List Text := []
  deriving DecidableEq, Repr

/-- Enter an operation with what it returned. -/
def Account.enter (account : Account) : Operation × Option Text → Account
  | (.push chunk, _) => { account with arrived := account.arrived ++ chunk }
  | (.take _, piece) => { account with pieces := account.pieces ++ piece.toList }
  | (.finish _, _) | (.clear, _) => {}

def Account.ofRun (operations : List Operation) (results : List (Option Text)) : Account :=
  (operations.zip results).foldl Account.enter {}

/-- The text is what has arrived, and the part that counts as handed out is what has been handed out. -/
structure Account.Agrees (account : Account) (carry : CarryBuffer) : Prop where
  text : carry.text = account.arrived
  streamed : carry.streamed = account.pieces.flatten

theorem Account.Agrees.enter {account : Account} (hagrees : account.Agrees carry)
    (operation : Operation) :
    (account.enter (operation, (carry.perform operation).1)).Agrees (carry.perform operation).2 := by
  obtain ⟨htext, hstreamed⟩ := hagrees
  cases operation with
  | push chunk => exact ⟨by rw [perform, text_push, htext]; rfl, hstreamed⟩
  | take stop =>
    refine ⟨(text_takeUnstreamed stop carry).trans htext, ?_⟩
    have hout := streamed_takeUnstreamed stop carry
    rw [hstreamed] at hout
    cases htake : (carry.takeUnstreamed stop).1 with
    | none => simpa [perform, Account.enter, htake] using hout
    | some piece => simpa [perform, Account.enter, htake] using hout
  | finish stop => exact ⟨rfl, rfl⟩
  | clear => exact ⟨rfl, rfl⟩

theorem Account.Agrees.enterAll {account : Account} (hagrees : account.Agrees carry)
    (operations : List Operation) :
    ((operations.zip (carry.performAll operations).1).foldl Account.enter account).Agrees
      (carry.performAll operations).2 := by
  induction operations generalizing account carry with
  | nil => exact hagrees
  | cons operation operations ih => exact ih (hagrees.enter operation)

theorem ne_nil_of_takeUnstreamed {stop : Nat} {piece : Text}
    (htake : (carry.takeUnstreamed stop).1 = some piece) : piece ≠ [] := by
  rintro rfl
  rw [takeUnstreamed] at htake
  split at htake
  · cases htake
  · next hbeyond =>
    split at htake
    · next hsplit =>
      cases htake
      have hlength := (eq_append_of_splitAtByte? hsplit).2
      rw [byteLength] at hlength
      omega
    · cases htake

theorem ne_nil_of_mem_performAll {stop : Nat} {piece : Text}
    (hmem : (Operation.take stop, some piece) ∈ operations.zip (carry.performAll operations).1) :
    piece ≠ [] := by
  induction operations generalizing carry with
  | nil => cases hmem
  | cons operation operations ih =>
    rw [performAll, List.zip_cons_cons, List.mem_cons] at hmem
    rcases hmem with hfirst | hlater
    · obtain ⟨rfl, hpiece⟩ := Prod.mk.inj hfirst
      exact ne_nil_of_takeUnstreamed hpiece.symm
    · exact ih hlater

/-- Whatever is asked of a new buffer, it behaves as one text with an offset, and no cut of that text
    fails. The offset is a place in the text between two characters, what has been handed out since the
    buffer was last new is just the text in front of it, and no piece of it is empty. Where the output is
    finished or dropped, nothing of the past remains. -/
theorem handsOut_performAll (hadmits : AdmitsAll {} operations) :
    ∃ results last, performAll operations {} = (results, last) ∧
      Cursor.performAll? operations {} = some (results, last.cursor) ∧
      last.cursor.text = (Account.ofRun operations results).arrived ∧
      last.cursor.position ≤ byteLength last.cursor.text ∧
      IsBoundary last.cursor.text last.cursor.position ∧
      slice? 0 last.cursor.position last.cursor.text =
        some (Account.ofRun operations results).pieces.flatten ∧
      (∀ stop piece, (.take stop, some piece) ∈ operations.zip results → piece ≠ []) ∧
      ∀ reset, reset = .clear ∨ (∃ stop, reset = .finish stop) →
        (last.perform reset).2 = {} ∧
          (last.Admits reset → (last.cursor.perform? reset).map (·.2) = some {}) := by
  refine ⟨_, _, rfl, performAll?_cursor hadmits, ?_⟩
  generalize hrun : performAll operations {} = run
  obtain ⟨results, last⟩ := run
  have hagrees : (Account.ofRun operations results).Agrees last := by
    have hnew : Account.Agrees {} {} := ⟨rfl, rfl⟩
    have h := hnew.enterAll operations
    rwa [hrun] at h
  refine ⟨hagrees.text, ?_, isBoundary_iff.2 ⟨_, last.held, rfl, rfl⟩, ?_, ?_, ?_⟩
  · dsimp only [cursor, text]
    rw [byteLength_append]
    exact Nat.le_add_right _ _
  · rw [← hagrees.streamed]
    exact slice?_zero_append last.streamed last.held
  · intro stop piece hmem
    have hresults := congrArg Prod.fst hrun
    exact ne_nil_of_mem_performAll (hresults ▸ hmem)
  · intro reset hreset
    have hnew : (last.perform reset).2 = {} := by
      rcases hreset with rfl | ⟨stop, rfl⟩ <;> rfl
    refine ⟨hnew, fun hadmitted => ?_⟩
    rw [perform?_cursor hadmitted, hnew]
    rfl

/-- Places that have been passed, that are beyond the text and that are inside a character. -/
theorem handsOut_performAll_out_of_order :
    let operations : List Operation := [.push "aé".toList, .take 2, .take 1, .take 0,
      .push "→b".toList, .take 5, .take 99, .finish 3, .push "→→".toList, .take 4, .take 3]
    AdmitsAll {} operations ∧ ∃ results last, performAll operations {} = (results, last) ∧
      results = [none, none, some "a".toList, none, none, none, some "é→b".toList,
        some "aé".toList, none, none, some "→".toList] ∧
      last.cursor = ⟨"→→".toList, 3⟩ ∧
      Cursor.performAll? operations {} = some (results, last.cursor) ∧
      slice? 0 last.cursor.position last.cursor.text =
        some (Account.ofRun operations results).pieces.flatten := by
  intro operations
  have hadmits : AdmitsAll {} operations := by decide
  have hperform : performAll operations {} = ([none, none, some "a".toList, none, none, none,
      some "é→b".toList, some "aé".toList, none, none, some "→".toList],
      { streamed := "→".toList, held := "→".toList }) := by
    decide
  obtain ⟨results, last, hrun, hcursor, -, -, -, hpieces, -⟩ := handsOut_performAll hadmits
  rw [hperform] at hrun
  cases hrun
  exact ⟨hadmits, _, _, hperform, rfl, rfl, hcursor, hpieces⟩

end CarryBuffer
end DebugClient
