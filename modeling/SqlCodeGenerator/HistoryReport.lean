import SqlCodeGenerator.AdminMessages

/-!
# The history in the report

`history_add` writes at the place of the counter modulo `MAX_HISTORY`, and the report
reads from the place of the oldest line on.  Both compute their places from the counter
alone, which is not reset.

* `HistoryRun`: the calls of `history_add` so far, with any other code in between;
* `HistoryRun.recent`: they keep the last lines in the ring;
* `historyReport_eq`: the report prints these lines, and its buffer cuts none of them.
-/

namespace SqlCodeGenerator

open Library

/-- The lines that `history_add` has been called with since `state_init`, other code that
leaves the history alone running before, between and after the calls.  The counter is an
`int`, so there are fewer than 2^31 calls. -/
inductive HistoryRun : List CString → SharedState → Prop
  | init (now : Int) : HistoryRun [] (stateInit now)
  | add {lines : List CString} {state : SharedState} (line : CString)
      (h : HistoryRun lines state) : HistoryRun (lines ++ [line]) (historyAdd state line)
  | other {lines : List CString} {state state' : SharedState} (h : HistoryRun lines state)
      (hlines : state'.history = state.history)
      (hcount : state'.historyCount = state.historyCount) : HistoryRun lines state'

/-- The calls one after the other. -/
theorem HistoryRun.calls (now : Int) (lines : List CString) :
    HistoryRun lines (lines.foldl historyAdd (stateInit now)) := by
  induction lines using List.reverseRecOn with
  | nil => exact .init now
  | append_singleton lines line ih =>
      rw [List.foldl_append]
      exact .add line ih

/-- The counter is the number of the calls, and the ring keeps the last lines. -/
theorem HistoryRun.recent {lines : List CString} {state : SharedState}
    (h : HistoryRun lines state) :
    state.historyCount = lines.length ∧ RecentRing state.history (lines.map snprintf) := by
  induction h with
  | init now => exact ⟨rfl, RecentRing.nil _⟩
  | @add lines state line h ih =>
      obtain ⟨hcount, hring⟩ := ih
      refine ⟨?_, ?_⟩
      · show state.historyCount + 1 = _
        rw [hcount, List.length_append, List.length_singleton]
      · have hstored := hring.store (snprintf line)
        rw [List.length_map, ← hcount] at hstored
        rw [List.map_append]
        exact hstored
  | other h hlines hcount ih =>
      rw [hlines, hcount]
      exact ih

/-- A line of the report: the line, cut to its place in the ring, and a line end. -/
def historyLine (line : CString) : CString := line.take (maxCommand - 1) ++ lit "\n"

/-- The lines of the report are the last `MAX_HISTORY` ones, the oldest first. -/
theorem history_eq {lines : List CString} {state : SharedState} (h : HistoryRun lines state) :
    AdminReport.history state =
      lit "Recent history:\n" :: (lines.rtake maxHistory).map historyLine := by
  obtain ⟨hcount, hring⟩ := h.recent
  have hread := congrArg (List.map fun line => line.chars ++ lit "\n") hring.read_eq
  rw [List.rtake, List.length_map, List.map_map, ← List.map_drop, List.map_map, ← hcount] at hread
  have hlast : lines.rtake maxHistory = lines.drop (state.historyCount - maxHistory) := by
    rw [List.rtake, hcount]
  rw [hlast]
  exact congrArg (List.cons (lit "Recent history:\n")) hread

/-- The lines fit the buffer. -/
theorem length_history_lt (lines : List CString) :
    (lit "Recent history:\n" :: (lines.rtake maxHistory).map historyLine).flatten.length <
      reportSize := by
  have hline : ∀ line : CString, (historyLine line).length ≤ maxCommand := by
    intro line
    have hend : (lit "\n").length = 1 := by decide
    rw [historyLine, List.length_append, hend]
    exact Nat.add_le_of_le_sub (by decide) (List.length_take_le _ _)
  have hlines : ∀ shown : List CString,
      (shown.map historyLine).flatten.length ≤ shown.length * maxCommand := by
    intro shown
    induction shown with
    | nil => simp
    | cons line shown ih =>
        rw [List.map_cons, List.flatten_cons, List.length_append, List.length_cons, Nat.add_mul,
          Nat.one_mul, Nat.add_comm]
        exact Nat.add_le_add ih (hline line)
  have hmost : (lines.rtake maxHistory).length ≤ maxHistory :=
    (length_rtake maxHistory lines).trans_le (Nat.min_le_right _ _)
  have hstart : (lit "Recent history:\n").length = 16 := by decide
  have hroom : 16 + maxHistory * maxCommand < reportSize := by decide
  rw [List.flatten_cons, List.length_append, hstart]
  exact Nat.lt_of_le_of_lt
    (Nat.add_le_add_left ((hlines _).trans (Nat.mul_le_mul_right _ hmost)) 16) hroom

/-- `admin_report` prints the last `MAX_HISTORY` lines that `history_add` was called with,
the oldest first, one a line and each cut to `MAX_COMMAND - 1` characters. -/
theorem historyReport_eq (now : Int) {lines : List CString} {state : SharedState}
    (h : HistoryRun lines state) :
    adminReport now state (lit "history") reportSize =
        lit "Recent history:\n" ++ (lines.rtake maxHistory).flatMap historyLine ∧
      (lines.rtake maxHistory).length = min lines.length maxHistory := by
  refine ⟨?_, length_rtake _ _⟩
  have hcategory : adminReport now state (lit "history") reportSize =
      appendLines reportSize (AdminReport.history state) := rfl
  rw [hcategory, appendLines_eq, history_eq h,
    List.take_of_length_le (Nat.le_sub_one_of_lt (length_history_lt lines)), List.flatten_cons]
  rfl

/-- Two lines more than the ring holds: the report begins with the third one. -/
theorem historyReport_overfull :
    adminReport 0 (((List.range 130).map decimal).foldl historyAdd (stateInit 0))
        (lit "history") reportSize =
      lit "Recent history:\n" ++ ((List.range' 2 128).map decimal).flatMap historyLine := by
  have hlast :
      ((List.range 130).map decimal).rtake maxHistory = (List.range' 2 128).map decimal := by
    decide +kernel
  rw [← hlast]
  exact (historyReport_eq 0 (.calls 0 ((List.range 130).map decimal))).1

end SqlCodeGenerator
