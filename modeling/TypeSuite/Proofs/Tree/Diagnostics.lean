import TypeSuite.Tree.Problem

/-!
# Diagnostics of syntax errors

The problems of a tree are searched with a stack of the trees to visit, the next one last.
`diagnostics_eq` says that the search ends, and that it finds the first five of the reports that a
preorder of the tree gives, in which a problem hides what is below it.
-/

namespace TypeSuite

/-- The report of the problem that a root is, if it is one, with its line and column counted from
one. -/
def Head.report? (head : Head) : Option String :=
  if head.missing ∨ head.kind = "ERROR" then
    some (toString (head.row + 1) ++ ":" ++ toString (head.column + 1) ++ ": " ++
      if head.missing then "missing " ++ head.kind else "syntax error")
  else none

/-- A root is reported by the text of its problem. -/
theorem Head.report_eq (head : Head) : head.report? = head.problem?.map Problem.text := by
  unfold Head.report? Head.problem?
  by_cases hmissing : head.missing
  · simp [hmissing, Problem.text]
  · by_cases hkind : head.kind = "ERROR"
    · simp [hmissing, hkind, Problem.text]
    · simp [hmissing, hkind]

/-- A report says where its problem is, so it is not the bare remark on an error. -/
theorem Head.report_ne {head : Head} {report : String} (h : head.report? = some report) :
    report ≠ "syntax error" := by
  have hcolon : ':' ∈ report.toList := by
    unfold Head.report? at h
    split at h
    case isTrue =>
      obtain rfl := Option.some.inj h
      simp [String.toList_append]
    case isFalse => cases h
  rintro rfl
  exact absurd hcolon (by decide)

namespace Tree

mutual
/-- The reports of the topmost problems of a tree in document order. A problem hides those below it,
and a tree without errors has none. -/
def reports : Tree → List String
  | .node head children =>
    match head.report? with
    | some report => [report]
    | none => if head.hasError then reportsAll children else []

/-- The reports of trees that stand one after the other. -/
def reportsAll : List Tree → List String
  | [] => []
  | tree :: rest => reports tree ++ reportsAll rest
end

variable {head : Head} {children : List Tree}

/-- A problem has its own report only. -/
theorem reports_of_problem {report : String} (h : head.report? = some report) :
    reports (.node head children) = [report] := by
  simp only [reports, h]

/-- A tree that is no problem has the reports of its children if an error lies in it. -/
theorem reports_of_no_problem (h : head.report? = none) :
    reports (.node head children) = if head.hasError then reportsAll children else [] := by
  simp only [reports, h]

/-- The reports of two lists of trees. -/
theorem reports_all_append (left right : List Tree) :
    reportsAll (left ++ right) = reportsAll left ++ reportsAll right := by
  induction left with
  | nil => rfl
  | cons tree rest ih => simp only [List.cons_append, reportsAll, ih, List.append_assoc]

mutual
/-- Each report of a tree says where its problem is. -/
theorem ne_of_mem_reports {tree : Tree} {report : String} (h : report ∈ tree.reports) :
    report ≠ "syntax error" := by
  cases tree with
  | node head children =>
      cases hroot : head.report? with
      | some own =>
          rw [reports_of_problem hroot, List.mem_singleton] at h
          exact h ▸ Head.report_ne hroot
      | none =>
          rw [reports_of_no_problem hroot] at h
          split at h
          case isTrue => exact ne_of_mem_reports_all h
          case isFalse => cases h

/-- Each report of trees says where its problem is. -/
theorem ne_of_mem_reports_all {trees : List Tree} {report : String}
    (h : report ∈ reportsAll trees) :
    report ≠ "syntax error" := by
  cases trees with
  | nil => cases h
  | cons tree rest =>
      obtain h | h := List.mem_append.mp h
      · exact ne_of_mem_reports h
      · exact ne_of_mem_reports_all h
end

/-- What is collected from trees are the first of their reports. -/
theorem collect_eq_take (limit : Nat) (pending : List Tree) :
    (collect limit pending).map Problem.text = (reportsAll pending).take limit := by
  fun_induction collect limit pending with
  | case1 => simp
  | case2 limit hlimit => simp [reportsAll]
  | case3 limit head children rest problem hproblem ih =>
      have hreport : head.report? = some problem.text := by
        rw [head.report_eq, hproblem, Option.map_some]
      simp [reportsAll, reports_of_problem hreport, ih]
  | case4 limit head children rest hproblem herror ih =>
      have hreport : head.report? = none := by rw [head.report_eq, hproblem, Option.map_none]
      rw [ih, reports_all_append, reportsAll, reports_of_no_problem hreport, if_pos herror]
  | case5 limit head children rest hproblem herror ih =>
      have hreport : head.report? = none := by rw [head.report_eq, hproblem, Option.map_none]
      rw [ih, reportsAll, reports_of_no_problem hreport, if_neg herror, List.nil_append]

/-! ## The search -/

/-- The number of roots does not depend on the order of the trees. -/
theorem sizeAll_reverse (trees : List Tree) : sizeAll trees.reverse = sizeAll trees := by
  induction trees with
  | nil => rfl
  | cons tree rest ih =>
      rw [List.reverse_cons, sizeAll_append, ih]
      simp only [sizeAll]
      omega

end Tree

/-- A state of the search: the trees to visit, the next one last, and the reports so far. -/
structure ProblemSearch where
  stack : List Tree
  found : List String

namespace ProblemSearch

/-- The start of the search in a tree. -/
def start (tree : Tree) : ProblemSearch :=
  ⟨[tree], []⟩

/-- One round of the search, which takes the next tree off the stack; `none` when there is no tree
to visit or there are enough reports. The children of a tree with errors are put onto the stack from
the last to the first. -/
def next? (search : ProblemSearch) : Option ProblemSearch :=
  if search.found.length < maxProblems then
    search.stack.getLast?.map fun tree =>
      let rest := search.stack.dropLast
      match tree.head.report? with
      | some report => ⟨rest, search.found ++ [report]⟩
      | none => ⟨if tree.head.hasError then rest ++ tree.children.reverse else rest, search.found⟩
  else none

/-- The search after a number of rounds; `none` when it ends before. -/
def run : Nat → ProblemSearch → Option ProblemSearch
  | 0, search => some search
  | rounds + 1, search => search.next? >>= run rounds

/-- The reports so far with those of all trees to visit. -/
def outlook (search : ProblemSearch) : List String :=
  search.found ++ Tree.reportsAll search.stack.reverse

/-- A round takes the last tree off the stack and reports it, or puts its children in its place if
an error lies in it. -/
theorem next_cases {search after : ProblemSearch} (h : search.next? = some after) :
    search.found.length < maxProblems ∧
    ∃ rest head children, search.stack = rest ++ [.node head children] ∧
      ((∃ report, head.report? = some report ∧ after = ⟨rest, search.found ++ [report]⟩) ∨
        (head.report? = none ∧ after =
          ⟨if head.hasError then rest ++ children.reverse else rest, search.found⟩)) := by
  obtain ⟨stack, found⟩ := search
  unfold next? at h
  split at h
  case isFalse => cases h
  case isTrue hfew =>
    obtain ⟨⟨head, children⟩, hlast, hafter⟩ := Option.map_eq_some_iff.mp h
    obtain ⟨rest, rfl⟩ := List.getLast?_eq_some_iff.mp hlast
    refine ⟨hfew, rest, head, children, rfl, ?_⟩
    simp only [List.dropLast_concat, Tree.head, Tree.children] at hafter
    cases hroot : head.report? with
    | some report => exact .inl ⟨report, rfl, by rw [← hafter, hroot]⟩
    | none => exact .inr ⟨rfl, by rw [← hafter, hroot]⟩

/-- A round takes a tree off the stack without a change of the outlook. -/
theorem next_keeps {search after : ProblemSearch} (h : search.next? = some after) :
    after.outlook = search.outlook ∧ Tree.sizeAll after.stack < Tree.sizeAll search.stack ∧
      after.found.length ≤ maxProblems := by
  obtain ⟨hfew, rest, head, children, hstack, ⟨report, hroot, rfl⟩ | ⟨hroot, rfl⟩⟩ := next_cases h
  · refine ⟨?_, ?_, ?_⟩
    · simp [outlook, hstack, Tree.reportsAll, Tree.reports_of_problem hroot]
    · simp only [hstack, Tree.sizeAll_append, Tree.sizeAll, Tree.size]
      omega
    · rw [List.length_append, List.length_singleton]
      exact hfew
  · refine ⟨?_, ?_, Nat.le_of_lt hfew⟩
    · by_cases herror : head.hasError
      · simp [outlook, hstack, Tree.reportsAll, Tree.reports_of_no_problem hroot, herror,
          Tree.reports_all_append]
      · simp [outlook, hstack, Tree.reportsAll, Tree.reports_of_no_problem hroot, herror]
    · rw [hstack, Tree.sizeAll_append]
      by_cases herror : head.hasError
      · simp only [herror, if_pos, Tree.sizeAll_append, Tree.sizeAll_reverse, Tree.sizeAll,
          Tree.size]
        omega
      · simp [herror, Tree.sizeAll, Tree.size]

/-- Where the search ends, the first reports of the outlook are found. -/
theorem found_of_end {search : ProblemSearch} (h : search.next? = none)
    (hfound : search.found.length ≤ maxProblems) :
    search.found = search.outlook.take maxProblems := by
  obtain ⟨stack, found⟩ := search
  unfold next? at h
  split at h
  case isTrue =>
    obtain rfl : stack = [] := by simpa using h
    simp [outlook, Tree.reportsAll, List.take_of_length_le hfound]
  case isFalse hmany =>
    have hlength : found.length = maxProblems := by
      simp only at hfound hmany
      omega
    rw [outlook, ← hlength, List.take_left']
    rfl

/-- The search ends after at most as many rounds as there are roots, with the first reports of the
outlook. -/
theorem run_ends (search : ProblemSearch) (hfound : search.found.length ≤ maxProblems) :
    ∃ rounds ≤ Tree.sizeAll search.stack, ∃ last, run rounds search = some last ∧
      last.next? = none ∧ last.found = search.outlook.take maxProblems := by
  cases hnext : search.next? with
  | none => exact ⟨0, Nat.zero_le _, search, rfl, hnext, found_of_end hnext hfound⟩
  | some after =>
      obtain ⟨houtlook, hsize, hafter⟩ := next_keeps hnext
      obtain ⟨rounds, hrounds, last, hrun, hend, hlast⟩ := run_ends after hafter
      refine ⟨rounds + 1, by omega, last, ?_, hend, houtlook ▸ hlast⟩
      rw [run, hnext]
      exact hrun
termination_by Tree.sizeAll search.stack

end ProblemSearch

/-- The search for problems in a tree ends after at most as many rounds as the tree has roots, and
it finds the first five reports of the tree. These are the diagnostics of the tree, or the bare
remark on an error if there are none, and in that case only. -/
theorem Tree.diagnostics_eq (tree : Tree) :
    (∃ rounds ≤ tree.size, ∃ last, ProblemSearch.run rounds (.start tree) = some last ∧
      last.next? = none ∧ last.found = tree.reports.take 5) ∧
    tree.diagnostics = (if tree.reports = [] then ["syntax error"] else tree.reports.take 5) ∧
    (tree.diagnostics = ["syntax error"] ↔ tree.reports = []) := by
  have hall : reportsAll [tree] = tree.reports := by simp [reportsAll]
  have hcollect := collect_eq_take maxProblems [tree]
  rw [hall] at hcollect
  have hdiagnostics : tree.diagnostics =
      if tree.reports = [] then ["syntax error"] else tree.reports.take 5 := by
    unfold diagnostics
    split
    case h_1 hnone =>
      rw [hnone] at hcollect
      have hempty : tree.reports = [] := by simpa [maxProblems] using hcollect.symm
      rw [if_pos hempty]
    case h_2 hsome =>
      have hreports : tree.reports ≠ [] := by
        intro hempty
        rw [hempty, List.take_nil, List.map_eq_nil_iff] at hcollect
        exact hsome hcollect
      rw [if_neg hreports, hcollect]
      rfl
  refine ⟨?_, hdiagnostics, ?_⟩
  · obtain ⟨rounds, hrounds, last, hrun, hend, hfound⟩ :=
      ProblemSearch.run_ends (.start tree) (Nat.zero_le _)
    refine ⟨rounds, by simpa [ProblemSearch.start, sizeAll] using hrounds, last, hrun, hend, ?_⟩
    simpa [ProblemSearch.outlook, ProblemSearch.start, hall, maxProblems] using hfound
  · rw [hdiagnostics]
    constructor
    · intro h
      split at h
      case isTrue hempty => exact hempty
      case isFalse =>
        have hmem : "syntax error" ∈ tree.reports.take 5 := by simp [h]
        exact absurd rfl (ne_of_mem_reports (List.mem_of_mem_take hmem))
    · exact fun hempty => if_pos hempty

end TypeSuite
