import ScriptNotebook.Proofs.BatchUpdates

/-!
The turns of a batch.  A target's turn comes in the state that the targets before it leave; the
report tells whose turns went well, and a batch changes no more than its turns do.
-/
namespace ScriptNotebook

namespace BatchRun

def turn (run : BatchRun) (plan : BatchPlan) (options : ConvertOptions) (input : Path) :
    FileTree × IdSupply × Except Failure ConvertedFile :=
  run.tree.convertFile run.ids input (plan.output input) options.metadata options.writer.writer

variable (plan : BatchPlan) (options : ConvertOptions) (run : BatchRun) (position : Nat)

theorem convertFrom_cons (input : Path) (rest : List Path) :
    run.convertFrom plan options position (input :: rest) =
      (run.record input position plan.targets.length (run.turn plan options input)).convertFrom
        plan options (position + 1) rest := rfl

theorem mem_converted_record {input : Path} {total : Nat}
    {outcome : FileTree × IdSupply × Except Failure ConvertedFile} {file : ConvertedFile} :
    file ∈ (run.record input position total outcome).report.converted ↔
      file ∈ run.report.converted ∨ outcome.2.2 = .ok file := by
  obtain ⟨tree, ids, failure | converted⟩ := outcome
  · simp [record]
  · simp [record, eq_comm]

/-- A file is reported as converted if its target's turn, in the state that the targets before it
leave, comes to it. -/
theorem mem_converted_convertFrom {targets : List Path} {file : ConvertedFile} :
    file ∈ (run.convertFrom plan options position targets).report.converted ↔
      file ∈ run.report.converted ∨ ∃ front input rest, targets = front ++ input :: rest ∧
        ((run.convertFrom plan options position front).turn plan options input).2.2 =
          .ok file := by
  induction targets generalizing run position with
  | nil => simp [convertFrom]
  | cons first targets ih =>
    rw [convertFrom_cons, ih, mem_converted_record, or_assoc]
    refine or_congr_right ⟨?_, ?_⟩
    · rintro (h | ⟨front, input, rest, rfl, h⟩)
      · exact ⟨[], first, targets, rfl, h⟩
      · exact ⟨first :: front, input, rest, rfl, h⟩
    · rintro ⟨front, input, rest, hs, h⟩
      cases front with
      | nil =>
        obtain ⟨rfl, rfl⟩ := List.cons.inj hs
        exact Or.inl h
      | cons head front =>
        obtain ⟨rfl, rfl⟩ := List.cons.inj hs
        exact Or.inr ⟨front, input, rest, rfl, h⟩

/-- How each turn changes the tree, a batch changes it: what holds of every turn and can be chained
holds of all turns together. -/
theorem convertFrom_of_turns {change : FileTree → FileTree → Prop} (refl : ∀ tree, change tree tree)
    (trans : ∀ {before middle after}, change before middle → change middle after →
      change before after) {targets : List Path}
    (h : ∀ front input rest, targets = front ++ input :: rest →
      change (run.convertFrom plan options position front).tree
        ((run.convertFrom plan options position front).turn plan options input).1) :
    change run.tree (run.convertFrom plan options position targets).tree := by
  induction targets generalizing run position with
  | nil => exact refl run.tree
  | cons first targets ih =>
    have hfirst := h [] first targets rfl
    have hrest := ih (run.record first position plan.targets.length (run.turn plan options first))
      (position + 1) fun front input rest hs => h (first :: front) input rest (by rw [hs]; rfl)
    rw [record_tree] at hrest
    exact trans hfirst hrest

theorem turn_ok {input : Path} {file : ConvertedFile}
    (h : (run.turn plan options input).2.2 = .ok file) :
    ∃ source notebook left text after, run.tree.readText input = .ok source ∧
      Notebook.ofSource options.metadata source run.ids = (notebook, left) ∧
      options.writer.writer.render notebook = .ok text ∧
      (run.tree.madeFor (plan.output input)).1.writeText (plan.output input) text = .ok after ∧
      run.turn plan options input = (after, left, .ok file) ∧
      file = ⟨input, plan.output input, notebook.count .code, notebook.count .markdown⟩ := by
  rw [turn] at h ⊢
  rcases FileTree.convertFile_cases run.tree run.ids input (plan.output input)
      options.metadata options.writer.writer with
    ⟨cause, -, hc⟩ |
      ⟨source, notebook, left, hr, hn, ⟨failure, hc⟩ | ⟨text, after, hrender, hwrite, hc⟩⟩
  · simp [hc] at h
  · simp [hc] at h
  · rw [hc] at h
    obtain rfl := Except.ok.inj h
    exact ⟨source, notebook, left, text, after, hr, hn, hrender, hwrite, hc, rfl⟩

theorem turn_error_updates {input : Path} {failure : Failure}
    (h : (run.turn plan options input).2.2 = .error failure) :
    FileTree.Updates (fun _ => False) run.tree (run.turn plan options input).1 := by
  rcases hc : run.turn plan options input with ⟨tree, ids, result⟩
  rw [hc] at h
  obtain rfl : result = .error failure := h
  exact FileTree.convertFile_error_updates hc

end BatchRun

namespace BatchPlan

variable (plan : BatchPlan) (options : ConvertOptions) (tree : FileTree) (ids : IdSupply)

def after (front : List Path) : BatchRun := (plan.start tree ids).convertFrom plan options 1 front

def Converts (file : ConvertedFile) : Prop :=
  ∃ front input rest, plan.targets = front ++ input :: rest ∧
    ((plan.after options tree ids front).turn plan options input).2.2 = .ok file

theorem mem_converted_iff {file : ConvertedFile} :
    file ∈ (plan.run options tree ids).report.converted ↔ plan.Converts options tree ids file := by
  refine (BatchRun.mem_converted_convertFrom plan options (plan.start tree ids) 1).trans ?_
  exact or_iff_right (List.not_mem_nil)

theorem run_updates_of_converted_nil (h : (plan.run options tree ids).report.converted = []) :
    FileTree.Updates (fun _ => False) tree (plan.run options tree ids).tree := by
  refine BatchRun.convertFrom_of_turns plan options (plan.start tree ids) 1
    FileTree.Updates.refl FileTree.Updates.trans ?_
  intro front input rest hs
  cases hr : ((plan.after options tree ids front).turn plan options input).2.2 with
  | error failure => exact BatchRun.turn_error_updates plan options _ hr
  | ok file =>
    have hm := (plan.mem_converted_iff options tree ids).mpr ⟨front, input, rest, hs, hr⟩
    rw [h] at hm
    cases hm

end BatchPlan

end ScriptNotebook
