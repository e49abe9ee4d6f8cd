import Mathlib.Tactic.ByContra
import NumCheck.Command.Run
import NumCheck.Proofs.Modes

/-!
# Diagnostics by their problems

A diagnostic is a tree of groups, and its problems are the leaves. The reports, the code and the
list of problems are three walks through the tree. The command shows a report with a code for each
problem, and it relies on the reports being in the order of the problems, and one for each.

All of this depends on the problems alone, in their order. How they are grouped, how deep the groups
are nested and whether some of them are empty does not show, neither in the text nor in the JSON
object nor in the exit status.

The texts of the reports are not looked into; that text and JSON say the same is shown in `Notices`.
-/

namespace NumCheck.Diagnostic

/-! ### Codes -/

mutual
/-- The code of a diagnostic is the least bound of the codes of its problems. -/
theorem code_le_iff {n : Nat} : ∀ {d : Diagnostic}, d.code ≤ n ↔ ∀ q ∈ d.leaves, q.code ≤ n
  | .one q => by rw [code, leaves, List.forall_mem_singleton]
  | .many members => by
    rw [code, leaves]
    exact codeList_le_iff
theorem codeList_le_iff {n : Nat} : ∀ {ds : List Diagnostic},
    codeList ds ≤ n ↔ ∀ q ∈ leavesList ds, q.code ≤ n
  | [] => by simp [codeList, leavesList]
  | d :: rest => by
    rw [codeList, leavesList, Nat.max_le, List.forall_mem_append, code_le_iff, codeList_le_iff]
end

/-- The code of a diagnostic with problems is the highest of their codes. -/
theorem max?_codes {d : Diagnostic} (h : d.leaves ≠ []) :
    (d.leaves.map Problem.code).max? = some d.code := by
  have hle : ∀ q ∈ d.leaves, q.code ≤ d.code := code_le_iff.mp (Nat.le_refl _)
  rw [List.max?_eq_some_iff, List.forall_mem_map]
  refine ⟨List.mem_map.mpr ?_, hle⟩
  by_contra hnone
  -- otherwise one less than the code would bound them all
  have hlt : ∀ q ∈ d.leaves, q.code < d.code := by
    intro q hq
    exact Nat.lt_of_le_of_ne (hle q hq) fun heq => hnone ⟨q, hq, heq⟩
  have hbound : d.code ≤ d.code - 1 := by
    rw [code_le_iff]
    intro q hq
    have := hlt q hq
    omega
  obtain ⟨q, hq⟩ := List.exists_mem_of_ne_nil _ h
  have := hlt q hq
  omega

/-- The code of a diagnostic is the highest of its problems, and 0 if there are none. -/
theorem code_eq_max (d : Diagnostic) : d.code = (d.leaves.map Problem.code).max?.getD 0 := by
  by_cases h : d.leaves = []
  · have hzero : d.code ≤ 0 := code_le_iff.mpr (by simp [h])
    rw [h, List.map_nil, List.max?_nil, Option.getD_none]
    omega
  · rw [max?_codes h, Option.getD_some]

theorem exitStatus_ne_zero (d : Diagnostic) : d.exitStatus ≠ 0 := by
  rw [exitStatus]
  split
  · exact Nat.one_ne_zero
  · assumption

/-! ### Reports -/

mutual
/-- The reports of a diagnostic are those of its problems, in order. -/
theorem reports_eq_map : ∀ d : Diagnostic, d.reports = d.leaves.map Problem.report
  | .one q => rfl
  | .many members => by
    rw [reports, leaves]
    exact reportsList_eq_map members
theorem reportsList_eq_map : ∀ ds : List Diagnostic,
    reportsList ds = (leavesList ds).map Problem.report
  | [] => rfl
  | d :: rest => by
    rw [reportsList, leavesList, List.map_append, reports_eq_map d, reportsList_eq_map rest]
end

/-- Each report meets the code of the problem that it is about. -/
theorem zip_codes_reports (d : Diagnostic) :
    (d.leaves.map Problem.code).zip d.reports = d.leaves.map fun q => (q.code, q.report) := by
  rw [reports_eq_map, List.zip_map']

/-! ### Combined diagnostics -/

theorem leavesList_eq_flatMap (ds : List Diagnostic) : leavesList ds = ds.flatMap leaves := by
  induction ds with
  | nil => rfl
  | cons d rest ih => rw [leavesList, List.flatMap_cons, ih]

/-- What is combined has the problems of all, in order. Only of nothing there is nothing. -/
theorem combine_cases (ds : List Diagnostic) :
    (ds = [] ∧ combine ds = none) ∨
      ds ≠ [] ∧ ∃ d, combine ds = some d ∧ d.leaves = ds.flatMap leaves := by
  cases h : combine ds with
  | none => exact .inl ⟨Check.combine_eq_none h, rfl⟩
  | some d =>
    refine .inr ⟨?_, d, rfl, ?_⟩
    · rintro rfl
      cases h
    · rw [Check.leaves_combine h, leavesList_eq_flatMap]

/-! ### What is shown -/

open Command (rejected resultJson)

/-- What is shown of a diagnostic, by its problems. -/
structure ShownByLeaves (d : Diagnostic) : Prop where
  /-- The reports are those of the problems, one for each and in order. -/
  reports : d.reports = d.leaves.map Problem.report
  /-- The code is the highest of the problems, and 0 if there are none. -/
  code : d.code = (d.leaves.map Problem.code).max?.getD 0
  /-- The exit status is never 0, and is the code if that is not 0 either. -/
  exitStatus : 1 ≤ d.exitStatus ∧ (0 < d.code → d.exitStatus = d.code)
  /-- The command ends with the exit status. -/
  exit : ∀ o path source phase, (rejected o path source phase d).exit = d.exitStatus
  /-- The text has a part for each report, with the code of its problem. -/
  text : ∀ o path source phase, o.json = false → (rejected o path source phase d).stderr =
    String.join (((d.leaves.map Problem.code).zip d.reports).map fun (code, report) =>
      report.render code source path ++ "\n")
  /-- The JSON object has an object for each report, with the code of its problem. -/
  json : ∀ o path source phase, o.json = true → (rejected o path source phase d).stdout =
    resultJson d.exitStatus (((d.leaves.map Problem.code).zip d.reports).map fun (code, report) =>
      report.toJson code phase source path)

theorem shownByLeaves (d : Diagnostic) : ShownByLeaves d := by
  refine ⟨d.reports_eq_map, d.code_eq_max, ⟨?_, ?_⟩, ?_, ?_, ?_⟩
  · exact Nat.one_le_iff_ne_zero.mpr d.exitStatus_ne_zero
  · intro hcode
    rw [exitStatus, if_neg (Nat.ne_of_gt hcode)]
  · intro o path source phase
    rw [rejected]
    split <;> rfl
  · intro o path source phase hjson
    rw [rejected, if_neg (by simp [hjson]), zip_codes_reports, List.map_map]
    rfl
  · intro o path source phase hjson
    rw [rejected, if_pos hjson, zip_codes_reports, List.map_map]
    rfl

/-- **Diagnostics depend only on their problems.** Diagnostics with the same problems in the same
order, however these are grouped, have the same reports, code, exit status and output. -/
theorem leaves_determine_output :
    (∀ d : Diagnostic, ShownByLeaves d) ∧
    (∀ ds : List Diagnostic, (combine ds = none ↔ ds = []) ∧
      (ds ≠ [] → ∃ d, combine ds = some d ∧ d.leaves = ds.flatMap leaves)) ∧
    ∀ d d' : Diagnostic, d.leaves = d'.leaves →
      d.reports = d'.reports ∧ d.code = d'.code ∧ d.exitStatus = d'.exitStatus ∧
        ∀ o path source phase,
          rejected o path source phase d = rejected o path source phase d' := by
  refine ⟨shownByLeaves, ?_, ?_⟩
  · intro ds
    rcases combine_cases ds with ⟨hnil, hnone⟩ | ⟨hne, d, hd, hleaves⟩
    · exact ⟨iff_of_true hnone hnil, fun hne => absurd hnil hne⟩
    · exact ⟨iff_of_false (by simp [hd]) hne, fun _ => ⟨d, hd, hleaves⟩⟩
  · intro d d' h
    have hcode : d.code = d'.code := by rw [code_eq_max, code_eq_max, h]
    have hstatus : d.exitStatus = d'.exitStatus := by rw [exitStatus, exitStatus, hcode]
    refine ⟨by rw [reports_eq_map, reports_eq_map, h], hcode, hstatus, ?_⟩
    intro o path source phase
    rw [rejected, rejected, h, hstatus]

end NumCheck.Diagnostic
