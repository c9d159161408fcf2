import ScriptNotebook.Proofs.BatchOutcome

/-!
The accounts of a batch.  Every turn is told by one event and enters one list of the report, so
that the events of a batch, its report and its targets agree position by position, whatever the
plan and whatever becomes of the tree meanwhile.
-/
namespace ScriptNotebook

namespace BatchEvent

def converted? : BatchEvent → Option ConvertedFile
  | converted file _ _ => some file
  | _ => none

def failed? : BatchEvent → Option FailedFile
  | failed file _ _ => some file
  | _ => none

def ofOutcome (input : Path) (position total : Nat) : Except Failure ConvertedFile → BatchEvent
  | .ok file => .converted file position total
  | .error failure => .failed ⟨input, failure⟩ position total

theorem converted?_eq_some_iff {event : BatchEvent} {file : ConvertedFile} :
    event.converted? = some file ↔ ∃ position total, event = .converted file position total := by
  cases event <;> simp [converted?]

end BatchEvent

namespace BatchRun

variable (run : BatchRun) (input : Path) (position total : Nat)
  (outcome : FileTree × IdSupply × Except Failure ConvertedFile)

theorem record_events :
    (run.record input position total outcome).events =
      run.events ++ [.ofOutcome input position total outcome.2.2] := by
  obtain ⟨tree, ids, failure | file⟩ := outcome <;> rfl

theorem record_converted :
    (run.record input position total outcome).report.converted =
      run.report.converted ++
        (BatchEvent.ofOutcome input position total outcome.2.2).converted?.toList := by
  obtain ⟨tree, ids, failure | file⟩ := outcome
  · simp [record, BatchEvent.ofOutcome, BatchEvent.converted?]
  · rfl

theorem record_failed :
    (run.record input position total outcome).report.failed =
      run.report.failed ++
        (BatchEvent.ofOutcome input position total outcome.2.2).failed?.toList := by
  obtain ⟨tree, ids, failure | file⟩ := outcome
  · rfl
  · simp [record, BatchEvent.ofOutcome, BatchEvent.failed?]

end BatchRun

namespace BatchReport

def inputs (report : BatchReport) : List Path :=
  report.converted.map (·.input) ++ report.failed.map (·.input)

theorem anyConverted_iff {report : BatchReport} {events : List BatchEvent}
    (h : report.converted = events.filterMap BatchEvent.converted?) :
    report.anyConverted = true ↔
      ∃ file position total, .converted file position total ∈ events := by
  rw [anyConverted, h, Bool.not_eq_true', List.isEmpty_eq_false_iff_exists_mem]
  simp only [List.mem_filterMap, BatchEvent.converted?_eq_some_iff]
  constructor
  · rintro ⟨file, event, hm, position, total, rfl⟩
    exact ⟨file, position, total, hm⟩
  · rintro ⟨file, position, total, hm⟩
    exact ⟨file, _, hm, position, total, rfl⟩

@[simp] theorem length_inputs (report : BatchReport) : report.inputs.length = report.total := by
  simp [inputs, total]

end BatchReport

namespace BatchPlan

variable (plan : BatchPlan) (options : ConvertOptions) (tree : FileTree) (ids : IdSupply)

/-- What comes of a target's turn in the state that the targets in front of it leave. -/
def outcome (front : List Path) (target : Path) : Except Failure ConvertedFile :=
  ((plan.after options tree ids front).turn plan options target).2.2

theorem outcome_ok {front : List Path} {target : Path} {file : ConvertedFile}
    (h : plan.outcome options tree ids front target = .ok file) :
    file.input = target ∧ file.output = plan.output target := by
  obtain ⟨source, notebook, left, text, after, -, -, -, -, -, rfl⟩ :=
    BatchRun.turn_ok plan options _ h
  exact ⟨rfl, rfl⟩

/-- The accounts agree when the targets `front` have had their turns, of which `turns` tell. -/
structure Accounts (front : List Path) (turns : List BatchEvent) : Prop where
  events : (plan.after options tree ids front).events = .started plan.targets.length :: turns
  length : turns.length = front.length
  turn : ∀ i target, front[i]? = some target →
    turns[i]? = some (BatchEvent.ofOutcome target (i + 1) plan.targets.length
      (plan.outcome options tree ids (front.take i) target))
  converted : (plan.after options tree ids front).report.converted =
    (plan.after options tree ids front).events.filterMap BatchEvent.converted?
  failed : (plan.after options tree ids front).report.failed =
    (plan.after options tree ids front).events.filterMap BatchEvent.failed?
  inputs : (plan.after options tree ids front).report.inputs.Perm front

variable {plan options tree ids}

theorem inputs_after_concat (front : List Path) (target : Path) :
    (plan.after options tree ids (front ++ [target])).report.inputs.Perm
      ((plan.after options tree ids front).report.inputs ++ [target]) := by
  rw [BatchReport.inputs, after_concat, BatchRun.record_converted, BatchRun.record_failed,
    ← outcome]
  cases h : plan.outcome options tree ids front target with
  | ok file =>
    obtain ⟨rfl, -⟩ := plan.outcome_ok options tree ids h
    simpa [BatchEvent.ofOutcome, BatchEvent.converted?, BatchEvent.failed?, BatchReport.inputs]
      using (List.perm_append_singleton file.input _).symm.append_left _
  | error failure =>
    simp [BatchEvent.ofOutcome, BatchEvent.converted?, BatchEvent.failed?, BatchReport.inputs]

theorem Accounts.concat {front : List Path} {turns : List BatchEvent}
    (h : plan.Accounts options tree ids front turns) (target : Path) :
    plan.Accounts options tree ids (front ++ [target])
      (turns ++ [.ofOutcome target (1 + front.length) plan.targets.length
        (plan.outcome options tree ids front target)]) where
  events := by
    rw [after_concat, BatchRun.record_events, h.events]
    rfl
  length := by simp [h.length]
  turn := by
    intro i own hown
    by_cases hi : i < front.length
    · have hfront : front[i]? = some own := by simpa [List.getElem?_append_left hi] using hown
      rw [List.getElem?_append_left (h.length ▸ hi), List.take_append_of_le_length hi.le]
      exact h.turn i own hfront
    · obtain ⟨hle, rfl⟩ : i ≤ front.length ∧ target = own := by
        simpa [List.getElem?_append, hi, List.getElem?_singleton, Nat.sub_eq_zero_iff_le] using hown
      obtain rfl : i = front.length := by omega
      simp [h.length, Nat.add_comm 1]
  converted := by
    rw [after_concat, BatchRun.record_converted, BatchRun.record_events, h.converted,
      List.filterMap_append]
    rfl
  failed := by
    rw [after_concat, BatchRun.record_failed, BatchRun.record_events, h.failed,
      List.filterMap_append]
    rfl
  inputs := (inputs_after_concat front target).trans (h.inputs.append_right [target])

theorem exists_accounts (front : List Path) :
    ∃ turns, plan.Accounts options tree ids front turns := by
  induction front using List.reverseRecOn with
  | nil => exact ⟨[], rfl, rfl, by simp, rfl, rfl, .nil⟩
  | append_singleton front target ih =>
    obtain ⟨turns, h⟩ := ih
    exact ⟨_, h.concat target⟩

/-- The accounts of a batch: it tells of a start, of each target in order, and of its report; what
is told of a target is what its turn comes to; the report lists what is told, and lists every
target once. -/
theorem run_accounts (plan : BatchPlan) (options : ConvertOptions) (tree : FileTree)
    (ids : IdSupply) :
    let run := plan.run options tree ids
    let total := plan.targets.length
    ∃ turns, run.events = .started total :: (turns ++ [.done run.report]) ∧
      turns.length = total ∧
      (∀ i target, plan.targets[i]? = some target →
        (∃ file, turns[i]? = some (.converted file (i + 1) total) ∧
          plan.outcome options tree ids (plan.targets.take i) target = .ok file ∧
          file.input = target ∧ file.output = plan.output target) ∨
        ∃ failure, turns[i]? = some (.failed ⟨target, failure⟩ (i + 1) total) ∧
          plan.outcome options tree ids (plan.targets.take i) target = .error failure) ∧
      run.report.converted = run.events.filterMap BatchEvent.converted? ∧
      run.report.failed = run.events.filterMap BatchEvent.failed? ∧
      (run.report.converted.map (·.input) ++ run.report.failed.map (·.input)).Perm plan.targets ∧
      run.report.total = total ∧
      (run.report.anyConverted = true ↔
        ∃ file position count, .converted file position count ∈ run.events) := by
  intro run total
  obtain ⟨turns, h⟩ : ∃ turns, plan.Accounts options tree ids plan.targets turns :=
    exists_accounts plan.targets
  have hrun : run.events =
      (plan.after options tree ids plan.targets).events ++ [.done run.report] := rfl
  have hconverted : run.report.converted = run.events.filterMap BatchEvent.converted? := by
    rw [hrun, List.filterMap_append]
    exact h.converted.trans (List.append_nil _).symm
  have hfailed : run.report.failed = run.events.filterMap BatchEvent.failed? := by
    rw [hrun, List.filterMap_append]
    exact h.failed.trans (List.append_nil _).symm
  refine ⟨turns, by rw [hrun, h.events, List.cons_append], h.length, ?_, hconverted, hfailed,
    h.inputs, ?_, BatchReport.anyConverted_iff hconverted⟩
  · intro i target ht
    have hturn := h.turn i target ht
    cases hc : plan.outcome options tree ids (plan.targets.take i) target with
    | ok file =>
      rw [hc] at hturn
      obtain ⟨hinput, houtput⟩ := plan.outcome_ok options tree ids hc
      exact Or.inl ⟨file, hturn, rfl, hinput, houtput⟩
    | error failure =>
      rw [hc] at hturn
      exact Or.inr ⟨failure, hturn, rfl⟩
  · rw [← BatchReport.length_inputs]
    exact h.inputs.length_eq

/-- A script twice, which makes one output twice, a file that is no text, and one that is not
there. -/
def repeatedPlan : BatchPlan where
  root := .ofString "."
  targets := [.ofString "./a.py", .ofString "./b.py", .ofString "./gone.py", .ofString "./a.py"]
  outputDir := .ofString "./out"

theorem repeatedPlan_accounts :
    let run := repeatedPlan.run Settings.initial.toOptions mixedTree (.sequential 0)
    let gone := Path.ofString "./gone.py"
    repeatedPlan.targets[2]? = some gone ∧
      (∃ turns, run.events = .started 4 :: (turns ++ [.done run.report]) ∧ turns.length = 4 ∧
        ∃ failure, turns[2]? = some (.failed ⟨gone, failure⟩ 3 4)) ∧
      run.report.total = 4 ∧
      run.report.converted.map (·.input) = [.ofString "./a.py", .ofString "./a.py"] := by
  intro run gone
  have hgone : repeatedPlan.targets[2]? = some gone := rfl
  have hfails : (repeatedPlan.outcome Settings.initial.toOptions mixedTree (.sequential 0)
      (repeatedPlan.targets.take 2) gone).isOk = false := by
    decide +kernel
  obtain ⟨turns, hevents, hlength, hturns, -, -, -, htotal, -⟩ :=
    run_accounts repeatedPlan Settings.initial.toOptions mixedTree (.sequential 0)
  refine ⟨hgone, ⟨turns, hevents, hlength, ?_⟩, htotal, by decide +kernel⟩
  rcases hturns 2 gone hgone with ⟨file, -, hok, -⟩ | ⟨failure, hfailed, -⟩
  · rw [hok] at hfails
    cases hfails
  · exact ⟨failure, hfailed⟩

end BatchPlan

end ScriptNotebook
