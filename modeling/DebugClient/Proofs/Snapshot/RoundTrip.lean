import Mathlib.Data.List.Basic
import DebugClient.Snapshot.JsonLines
import DebugClient.Proofs.Json.Written
import DebugClient.Proofs.Text.Lines

/-!
Snapshots that have been recorded are written on one line each and read back as they are, and their
numbers count the stops with a known source line.
-/

namespace DebugClient
open Json Numeral Text

/-- The position in the call stack has 64 bits at most, the line 32. -/
structure StackFrame.InRange (frame : StackFrame) : Prop where
  index : frame.index ≤ largest64
  line : ∀ line ∈ frame.line, line ≤ largest32

instance (frame : StackFrame) : Decidable frame.InRange :=
  decidable_of_iff (frame.index ≤ largest64 ∧ ∀ line ∈ frame.line, line ≤ largest32)
    ⟨fun ⟨index, line⟩ => ⟨index, line⟩, fun ⟨index, line⟩ => ⟨index, line⟩⟩

namespace Snapshot

/-- The numbers in the snapshot stay within their types. -/
structure InRange (snapshot : Snapshot) : Prop where
  sequence : snapshot.sequence ≤ largest64
  frames : ∀ frame ∈ snapshot.frames, frame.InRange
  currentLine : ∀ line ∈ snapshot.currentLine, line ≤ largest32

theorem largest32_le_largest64 : largest32 ≤ largest64 := by decide

theorem reads_line {line? : Option Nat} (hline : ∀ line ∈ line?, line ≤ largest32) :
    Reads (optional (natural largest32)) ((line?.map decimal).getD "null".toList) line? := by
  cases line? with
  | none => exact reads_null
  | some line =>
    exact (reads_natural (hline line rfl) largest32_le_largest64).optional (opens_decimal line)

theorem reads_writeFrame {frame : StackFrame} (hrange : frame.InRange) :
    Reads readFrame (writeFrame frame) frame := by
  obtain ⟨function, index, file?, line?⟩ := frame
  have hfunction := (reads_string function).field "function_name" .needed
    fun function (frame : StackFrame) => { frame with function }
  have hindex := (reads_natural hrange.index (Nat.le_refl _)).field "frame_index" .needed
    fun index (frame : StackFrame) => { frame with index }
  have hfile (file : Text) := ((reads_string file).optional (opens_quote file)).field
    "source_file" .defaulted fun file (frame : StackFrame) => { frame with file }
  have hline (line : Nat) (heq : line? = some line) :=
    ((reads_natural (hrange.line line heq) largest32_le_largest64).optional
      (opens_decimal line)).field
    "source_line" .defaulted fun line (frame : StackFrame) => { frame with line }
  -- The members that are left out are those whose fields have nothing to change.
  cases file? with
  | none =>
    cases line? with
    | none =>
      refine reads_record (.cons ⟨_, rfl, hfunction⟩ (.cons ⟨_, rfl, hindex⟩ .nil)) ?_ ?_ rfl
      · simp
      · simp [Field.of]
    | some line =>
      refine reads_record (.cons ⟨_, rfl, hfunction⟩ (.cons ⟨_, rfl, hindex⟩
        (.cons ⟨_, rfl, hline line rfl⟩ .nil))) ?_ ?_ rfl
      · simp
      · simp [Field.of]
  | some file =>
    cases line? with
    | none =>
      refine reads_record (.cons ⟨_, rfl, hfunction⟩ (.cons ⟨_, rfl, hindex⟩
        (.cons ⟨_, rfl, hfile file⟩ .nil))) ?_ ?_ rfl
      · simp
      · simp [Field.of]
    | some line =>
      refine reads_record (.cons ⟨_, rfl, hfunction⟩ (.cons ⟨_, rfl, hindex⟩
        (.cons ⟨_, rfl, hfile file⟩ (.cons ⟨_, rfl, hline line rfl⟩ .nil)))) ?_ ?_ rfl
      · simp
      · simp [Field.of]

theorem reads_write {snapshot : Snapshot} (hrange : snapshot.InRange) :
    Reads read snapshot.write snapshot := by
  have hsequence := (reads_natural hrange.sequence (Nat.le_refl _)).field "sequence" .needed
    fun sequence (snapshot : Snapshot) => { snapshot with sequence }
  have hwritten : List.Forall₂ (Reads readFrame) (snapshot.frames.map writeFrame) snapshot.frames :=
    List.forall₂_map_left_iff.2
      (List.forall₂_same.2 fun frame hframe => reads_writeFrame (hrange.frames frame hframe))
  have hopens : ∀ item ∈ snapshot.frames.map writeFrame, Opens item := by
    intro item hitem
    obtain ⟨frame, -, rfl⟩ := List.mem_map.1 hitem
    exact opens_writeObject _
  have hframes := (reads_list hwritten hopens).field "frames" .needed
    fun frames (snapshot : Snapshot) => { snapshot with frames }
  have hline := (reads_line hrange.currentLine).field "current_line" .nullable
    fun currentLine (snapshot : Snapshot) => { snapshot with currentLine }
  refine reads_record (.cons ⟨_, rfl, hsequence⟩ (.cons ⟨_, rfl, hframes⟩
    (.cons ⟨_, rfl, hline⟩ .nil))) ?_ ?_ rfl
  · simp
  · simp [Field.of]

theorem newline_notMem_writeFrame (frame : StackFrame) : '\n' ∉ writeFrame frame := by
  refine newline_notMem_writeObject fun member hmember => ?_
  simp only [List.mem_append, List.mem_cons, List.not_mem_nil, or_false, Option.mem_toList,
    Option.map_eq_some_iff] at hmember
  rcases hmember with ((rfl | rfl) | ⟨file, -, rfl⟩) | ⟨line, -, rfl⟩
  · exact newline_notMem_quote _
  · exact newline_notMem_decimal _
  · exact newline_notMem_quote _
  · exact newline_notMem_decimal _

theorem newline_notMem_write (snapshot : Snapshot) : '\n' ∉ snapshot.write := by
  have hframes : '\n' ∉ writeList (snapshot.frames.map writeFrame) := by
    refine newline_notMem_writeList fun item hitem => ?_
    obtain ⟨frame, -, rfl⟩ := List.mem_map.1 hitem
    exact newline_notMem_writeFrame frame
  have hline : '\n' ∉ (snapshot.currentLine.map decimal).getD "null".toList := by
    cases snapshot.currentLine with
    | none => decide
    | some line => exact newline_notMem_decimal line
  refine newline_notMem_writeObject fun member hmember => ?_
  simp only [List.mem_cons, List.not_mem_nil, or_false] at hmember
  rcases hmember with rfl | rfl | rfl
  · exact newline_notMem_decimal _
  · exact hframes
  · exact hline

/-- A snapshot is written between braces. -/
theorem exists_write_eq (snapshot : Snapshot) : ∃ t, snapshot.write = '{' :: t ++ ['}'] :=
  ⟨_, rfl⟩

theorem readLine_write {snapshot : Snapshot} (hrange : snapshot.InRange) :
    readLine (Utf8.encode snapshot.write) = .ok (some snapshot) := by
  have hdecode : Utf8.decode? (Utf8.encode snapshot.write) = some snapshot.write :=
    Utf8.decode?_eq_some_iff.2 rfl
  have hread : document read snapshot.write = .ok snapshot := by
    have hvalue := reads_write hrange [] nofun
    rw [List.append_nil] at hvalue
    rw [document, hvalue]
    rfl
  have htrim : (trim snapshot.write).isEmpty = false := by
    obtain ⟨t, heq⟩ := exists_write_eq snapshot
    rw [heq]
    simp [trim, trimStart, trimEnd, show isBlank '{' = false by rfl, show isBlank '}' = false by rfl]
  rw [readLine, hdecode]
  dsimp only
  rw [htrim, hread]
  rfl

theorem readLines_write {snapshots : List Snapshot}
    (hrange : ∀ snapshot ∈ snapshots, snapshot.InRange) :
    readLines (snapshots.map fun snapshot => Utf8.encode snapshot.write) = .ok snapshots := by
  induction snapshots with
  | nil => rfl
  | cons snapshot snapshots ih =>
    obtain ⟨hhead, htail⟩ := List.forall_mem_cons.1 hrange
    rw [List.map_cons, readLines, readLine_write hhead, ih htail]
    rfl

end Snapshot

namespace SnapshotLog

theorem lines_write (log : SnapshotLog) : lines log.write = log.snapshots.map Snapshot.write := by
  have hwrite : log.write = (log.snapshots.map Snapshot.write).flatMap (· ++ ['\n']) := by
    rw [write, List.flatMap_map]
  rw [lines, hwrite, linesOfPieces_flatMap]
  intro line hline
  obtain ⟨snapshot, -, rfl⟩ := List.mem_map.1 hline
  obtain ⟨t, heq⟩ := snapshot.exists_write_eq
  refine ⟨snapshot.newline_notMem_write, ?_⟩
  rw [heq, List.getLast?_concat]
  decide

theorem lines_encode_write (log : SnapshotLog) : Utf8.lines (Utf8.encode log.write) =
    log.snapshots.map fun snapshot => Utf8.encode snapshot.write := by
  have hwrite : Utf8.encode log.write =
      (log.snapshots.map fun snapshot => Utf8.encode snapshot.write).flatMap (· ++ [10]) := by
    simp only [write, Utf8.encode, List.flatMap_assoc, List.flatMap_map, List.flatMap_append]
    rfl
  rw [Utf8.lines, hwrite, linesOfPieces_flatMap]
  intro line hline
  obtain ⟨snapshot, -, rfl⟩ := List.mem_map.1 hline
  obtain ⟨t, heq⟩ := snapshot.exists_write_eq
  have hlast : Utf8.encode ['}'] = [125] := by rfl
  refine ⟨mt Utf8.newline_mem_encode.1 snapshot.newline_notMem_write, ?_⟩
  rw [heq, Utf8.encode_append, hlast, List.getLast?_concat]
  decide

/-- The log after stops with these call stacks. -/
def recordAll (stops : List (List StackFrame)) : SnapshotLog :=
  stops.foldl (fun log frames => (log.record frames).2) {}

/-- How many of the snapshots have a known source line. -/
def resolved (snapshots : List Snapshot) : Nat := snapshots.countP (·.currentLine.isSome)

/-- Every snapshot holds the line of its innermost frame and the number of resolved snapshots up to
    it, and the log holds the number of all of them. -/
structure Numbered (log : SnapshotLog) : Prop where
  sequence : log.sequence = resolved log.snapshots
  each : ∀ k snapshot, log.snapshots[k]? = some snapshot →
    snapshot.sequence = resolved (log.snapshots.take (k + 1))
  line : ∀ snapshot ∈ log.snapshots, snapshot.currentLine = currentLine snapshot.frames

theorem Numbered.record {log : SnapshotLog} (hnumbered : log.Numbered) (frames : List StackFrame) :
    (log.record frames).2.Numbered := by
  obtain ⟨hsequence, heach, hline⟩ := hnumbered
  have hnumber : (log.record frames).1.sequence =
      resolved (log.snapshots ++ [(log.record frames).1]) := by
    rw [resolved, List.countP_append, ← resolved, ← hsequence]
    cases hcurrent : currentLine frames <;> simp [SnapshotLog.record, hcurrent]
  refine ⟨hnumber, ?_, ?_⟩
  · intro k snapshot hsnapshot
    change (log.snapshots ++ [(log.record frames).1])[k]? = some snapshot at hsnapshot
    change snapshot.sequence = resolved ((log.snapshots ++ [(log.record frames).1]).take (k + 1))
    rcases Nat.lt_trichotomy k log.snapshots.length with hlt | rfl | hgt
    · rw [List.getElem?_append_left hlt] at hsnapshot
      rw [List.take_append_of_le_length hlt]
      exact heach k snapshot hsnapshot
    · rw [List.getElem?_concat_length, Option.some.injEq] at hsnapshot
      rw [List.take_of_length_le (by simp), ← hsnapshot]
      exact hnumber
    · have hlength : (log.snapshots ++ [(log.record frames).1]).length ≤ k := by
        rw [List.length_append, List.length_singleton]
        exact hgt
      rw [List.getElem?_eq_none hlength] at hsnapshot
      cases hsnapshot
  · intro snapshot hsnapshot
    change snapshot ∈ log.snapshots ++ [(log.record frames).1] at hsnapshot
    rw [List.mem_append, List.mem_singleton] at hsnapshot
    rcases hsnapshot with hold | rfl
    · exact hline snapshot hold
    · rfl

theorem recordAll_concat (stops : List (List StackFrame)) (frames : List StackFrame) :
    recordAll (stops ++ [frames]) = ((recordAll stops).record frames).2 := by
  rw [recordAll, List.foldl_append]
  rfl

theorem numbered_recordAll (stops : List (List StackFrame)) : (recordAll stops).Numbered := by
  induction stops using List.reverseRecOn with
  | nil => exact ⟨rfl, nofun, nofun⟩
  | append_singleton stops frames ih =>
    rw [recordAll_concat]
    exact ih.record frames

theorem frames_recordAll (stops : List (List StackFrame)) :
    (recordAll stops).snapshots.map (·.frames) = stops := by
  induction stops using List.reverseRecOn with
  | nil => rfl
  | append_singleton stops frames ih =>
    rw [recordAll_concat]
    change ((recordAll stops).snapshots ++ [((recordAll stops).record frames).1]).map _ = _
    rw [List.map_append, ih]
    rfl

/-- A resolved snapshot has a larger number than any before it. -/
theorem Numbered.lt {log : SnapshotLog} (hnumbered : log.Numbered) {j k : Nat} {s t : Snapshot}
    (hlt : j < k) (hs : log.snapshots[j]? = some s) (ht : log.snapshots[k]? = some t)
    (hresolved : t.currentLine.isSome) : s.sequence < t.sequence := by
  have hprefix : (log.snapshots.take k).take (j + 1) = log.snapshots.take (j + 1) := by
    rw [List.take_take, Nat.min_eq_left hlt]
  have hle : resolved (log.snapshots.take (j + 1)) ≤ resolved (log.snapshots.take k) := by
    rw [← hprefix]
    exact (List.take_sublist _ _).countP_le
  have hlast : resolved (log.snapshots.take (k + 1)) = resolved (log.snapshots.take k) + 1 := by
    rw [List.take_add_one, ht, resolved, List.countP_append, ← resolved]
    simp [hresolved]
  rw [hnumbered.each j s hs, hnumbered.each k t ht, hlast]
  omega

theorem inRange_recordAll {stops : List (List StackFrame)}
    (hframes : ∀ frames ∈ stops, ∀ frame ∈ frames, frame.InRange) (hcount : stops.length ≤ largest64) :
    ∀ snapshot ∈ (recordAll stops).snapshots, snapshot.InRange := by
  intro snapshot hsnapshot
  have hnumbered := numbered_recordAll stops
  have hstops := frames_recordAll stops
  have hmem : snapshot.frames ∈ stops := by
    rw [← hstops]
    exact List.mem_map_of_mem hsnapshot
  have hlength : (recordAll stops).snapshots.length = stops.length := by
    rw [← List.length_map (·.frames), hstops]
  refine ⟨?_, hframes _ hmem, ?_⟩
  · obtain ⟨k, hk⟩ := List.mem_iff_getElem?.1 hsnapshot
    rw [hnumbered.each k snapshot hk]
    have hle := ((recordAll stops).snapshots.take_sublist (k + 1)).length_le
    exact List.countP_le_length.trans (hle.trans (hlength.le.trans hcount))
  · intro line hline
    rw [hnumbered.line snapshot hsnapshot, currentLine] at hline
    obtain ⟨frame, hframe, hline⟩ := Option.mem_bind_iff.1 hline
    exact (hframes _ hmem frame (List.mem_of_find?_eq_some hframe)).line line hline

/-- The stops stand in the log in order, each on a line of its own when it is written and as it was
    when the file is read, and numbered by the resolved stops up to it. -/
structure Persists (stops : List (List StackFrame)) (log : SnapshotLog) : Prop where
  frames : log.snapshots.map (·.frames) = stops
  lines : Text.lines log.write = log.snapshots.map Snapshot.write
  ofFile : Snapshot.ofFile (Utf8.encode log.write) = .ok log.snapshots
  currentLine : ∀ snapshot ∈ log.snapshots,
    snapshot.currentLine = SnapshotLog.currentLine snapshot.frames
  sequence : ∀ k snapshot, log.snapshots[k]? = some snapshot →
    snapshot.sequence = (log.snapshots.take (k + 1)).countP (·.currentLine.isSome)
  distinct : ∀ (j k : Nat) (s t : Snapshot), j ≠ k →
    log.snapshots[j]? = some s → log.snapshots[k]? = some t →
    s.currentLine.isSome → t.currentLine.isSome → s.sequence ≠ t.sequence

theorem persists_recordAll {stops : List (List StackFrame)}
    (hframes : ∀ frames ∈ stops, ∀ frame ∈ frames, frame.InRange) (hcount : stops.length ≤ largest64) :
    Persists stops (recordAll stops) := by
  have hnumbered := numbered_recordAll stops
  refine ⟨frames_recordAll stops, lines_write _, ?_, hnumbered.line, hnumbered.each, ?_⟩
  · rw [Snapshot.ofFile, lines_encode_write]
    exact Snapshot.readLines_write (inRange_recordAll hframes hcount)
  · intro j k s t hne hs ht hsResolved htResolved
    rcases Nat.lt_or_gt_of_ne hne with hlt | hgt
    · exact Nat.ne_of_lt (hnumbered.lt hlt hs ht htResolved)
    · exact Nat.ne_of_gt (hnumbered.lt hgt ht hs hsResolved)

/-- Names with quotation marks, a backslash, a line break and a control character, a position of 64
    bits, and a stop without a line between two with one. -/
theorem persists_recordAll_three_stops :
    let stops : List (List StackFrame) :=
      [[{ function := "operator\"\" \\\n".toList, index := 0, file := some "a\t\x01.c".toList,
          line := some largest32 }],
        [{ function := "strlen".toList, index := 0 }, { function := [], index := largest64 }],
        [{ function := "café".toList, index := 0, line := some 0 }]]
    (∀ frames ∈ stops, ∀ frame ∈ frames, frame.InRange) ∧ stops.length ≤ largest64 ∧
      Persists stops (recordAll stops) ∧ (recordAll stops).snapshots.map (·.sequence) = [1, 1, 2] :=
  have hframes := by decide
  ⟨hframes, by decide, persists_recordAll hframes (by decide), by decide⟩

end SnapshotLog
end DebugClient
