import ScriptNotebook.Batch
import ScriptNotebook.Proofs.TreeUpdates

/-!
What a batch changes in a tree.  Making a plan adds directories only, converting one script writes
where its output leads at most, and a run writes where the outputs of its targets lead, whatever
the identifiers and whichever writer.
-/
namespace ScriptNotebook

namespace FileTree

def LeadsTo (tree : FileTree) (p : Path) (location : Location) : Prop :=
  tree.locate .look p = .ok location

/-- The tree with the folder of an output, or with what could be made of it. -/
def madeFor (tree : FileTree) (output : Path) : FileTree × Except SystemError Unit :=
  match output.parent? with
  | some directory => tree.makeDirectories directory
  | none => (tree, .ok ())

theorem WellFormed.madeFor {tree : FileTree} (hw : tree.WellFormed) (output : Path) :
    (tree.madeFor output).1.WellFormed := by
  rw [FileTree.madeFor]
  cases output.parent? with
  | none => exact hw
  | some directory => exact hw.makeDirectories directory

theorem madeFor_updates {written : Location → Prop} (tree : FileTree) (output : Path) :
    Updates written tree (tree.madeFor output).1 := by
  rw [madeFor]
  cases output.parent? with
  | none => exact Updates.refl tree
  | some directory => exact makeDirectories_updates tree directory

theorem convertFile_eq {tree : FileTree} {input : Path} {source : Text}
    (hr : tree.readText input = .ok source) {ids left : IdSupply} {metadata : NotebookMetadata}
    {notebook : Notebook} (hn : Notebook.ofSource metadata source ids = (notebook, left))
    (output : Path) (writer : Writer) :
    tree.convertFile ids input output metadata writer =
      match tree.madeFor output with
      | (made, .error cause) => (made, left, .error (.file (output.parent?.getD ⟨[]⟩) cause))
      | (made, .ok ()) =>
        match made.writeNotebook output notebook writer with
        | .error failure => (made, left, .error failure)
        | .ok after =>
          (after, left, .ok ⟨input, output, notebook.count .code, notebook.count .markdown⟩) := by
  rw [convertFile, hr, madeFor]
  simp only [hn]
  cases output.parent? with
  | none => rfl
  | some directory =>
    dsimp only
    rcases tree.makeDirectories directory with ⟨made, cause | u⟩ <;> rfl

/-- A conversion stops before reading and changes nothing, or draws identifiers, makes the folder
and stops there, or also writes the notebook. -/
theorem convertFile_cases (tree : FileTree) (ids : IdSupply) (input output : Path)
    (metadata : NotebookMetadata) (writer : Writer) :
    (∃ cause, tree.readText input = .error cause ∧
        tree.convertFile ids input output metadata writer =
          (tree, ids, .error (.file input cause))) ∨
      ∃ source notebook left, tree.readText input = .ok source ∧
        Notebook.ofSource metadata source ids = (notebook, left) ∧
        ((∃ failure, tree.convertFile ids input output metadata writer =
            ((tree.madeFor output).1, left, .error failure)) ∨
          ∃ text after, writer.render notebook = .ok text ∧
            (tree.madeFor output).1.writeText output text = .ok after ∧
            tree.convertFile ids input output metadata writer =
              (after, left,
                .ok ⟨input, output, notebook.count .code, notebook.count .markdown⟩)) := by
  cases hr : tree.readText input with
  | error cause => exact Or.inl ⟨cause, rfl, by rw [convertFile, hr]⟩
  | ok source =>
    rcases hn : Notebook.ofSource metadata source ids with ⟨notebook, left⟩
    refine Or.inr ⟨source, notebook, left, rfl, hn, ?_⟩
    rw [convertFile_eq hr hn]
    rcases tree.madeFor output with ⟨made, cause | u⟩
    · exact Or.inl ⟨_, rfl⟩
    · cases hw : made.writeNotebook output notebook writer with
      | error failure => exact Or.inl ⟨failure, by simp only [hw]⟩
      | ok after =>
        obtain ⟨text, hrender, hwrite⟩ := bind_eq_ok.mp hw
        exact Or.inr ⟨text, after, hrender, mapError_eq_ok.mp hwrite, by simp only [hw]⟩

theorem convertFile_error_updates {tree after : FileTree} {ids left : IdSupply}
    {input output : Path} {metadata : NotebookMetadata} {writer : Writer} {failure : Failure}
    (h : tree.convertFile ids input output metadata writer = (after, left, .error failure)) :
    Updates (fun _ => False) tree after := by
  rcases convertFile_cases tree ids input output metadata writer with
    ⟨cause, -, hc⟩ | ⟨source, notebook, left', -, -, ⟨failure', hc⟩ | ⟨text, after', -, -, hc⟩⟩
  · obtain ⟨rfl, -⟩ := Prod.mk.inj (hc.symm.trans h)
    exact Updates.refl tree
  · obtain ⟨rfl, -⟩ := Prod.mk.inj (hc.symm.trans h)
    exact madeFor_updates tree output
  · simp [hc] at h

/-- Converting a script writes at most where the output then leads, and a script that is converted
has its notebook there. -/
theorem convertFile_updates {tree after : FileTree} (hw : tree.WellFormed) {ids ids' : IdSupply}
    {input output : Path} {metadata : NotebookMetadata} {writer : Writer}
    {result : Except Failure ConvertedFile}
    (h : tree.convertFile ids input output metadata writer = (after, ids', result)) :
    after.WellFormed ∧ Updates (after.LeadsTo output) tree after ∧
      ∀ file, result = .ok file → ∃ content, after.lookup .look output = .ok (.file content) := by
  rcases convertFile_cases tree ids input output metadata writer with
    ⟨cause, -, hc⟩ | ⟨source, notebook, left, -, -, ⟨failure, hc⟩ | ⟨text, after', -, hwrite, hc⟩⟩
  · cases hc.symm.trans h
    exact ⟨hw, Updates.refl tree, fun _ hr => nomatch hr⟩
  · cases hc.symm.trans h
    exact ⟨hw.madeFor output, madeFor_updates tree output, fun _ hr => nomatch hr⟩
  · cases hc.symm.trans h
    obtain ⟨hu, hcontent⟩ := writeBytes_updates (hw.madeFor output) hwrite
    exact ⟨(hw.madeFor output).writeBytes hwrite, (madeFor_updates tree output).trans hu,
      fun _ _ => ⟨_, hcontent⟩⟩

end FileTree

namespace BatchPlan

def output (plan : BatchPlan) (target : Path) : Path :=
  outputPath target plan.root plan.outputDir

def start (plan : BatchPlan) (tree : FileTree) (ids : IdSupply) : BatchRun :=
  ⟨tree, ids, .empty, [.started plan.targets.length]⟩

end BatchPlan

namespace BatchRun

@[simp] theorem record_tree (run : BatchRun) (input : Path) (position total : Nat)
    (outcome : FileTree × IdSupply × Except Failure ConvertedFile) :
    (run.record input position total outcome).tree = outcome.1 := by
  obtain ⟨tree, ids, result⟩ := outcome
  cases result <;> rfl

theorem convertFrom_append (plan : BatchPlan) (options : ConvertOptions) (run : BatchRun)
    (position : Nat) (front rest : List Path) :
    run.convertFrom plan options position (front ++ rest) =
      (run.convertFrom plan options position front).convertFrom plan options
        (position + front.length) rest := by
  induction front generalizing run position with
  | nil => rfl
  | cons input front ih =>
    rw [List.cons_append, convertFrom, convertFrom, ih, List.length_cons, Nat.add_assoc,
      Nat.add_comm 1]

theorem convertFrom_updates (plan : BatchPlan) (options : ConvertOptions) {run : BatchRun}
    (hw : run.tree.WellFormed) (position : Nat) (targets : List Path) :
    (run.convertFrom plan options position targets).tree.WellFormed ∧
      FileTree.Updates (fun location => ∃ target ∈ targets,
        (run.convertFrom plan options position targets).tree.LeadsTo (plan.output target) location)
        run.tree (run.convertFrom plan options position targets).tree := by
  induction targets generalizing run position with
  | nil => exact ⟨hw, FileTree.Updates.refl run.tree⟩
  | cons input rest ih =>
    rw [convertFrom, ← BatchPlan.output]
    rcases hc : run.tree.convertFile run.ids input (plan.output input) options.metadata
      options.writer.writer with ⟨tree, ids, result⟩
    obtain ⟨hwell, hstep, -⟩ := FileTree.convertFile_updates hw hc
    let next := run.record input position plan.targets.length (tree, ids, result)
    have htree : next.tree = tree := record_tree run input position _ _
    obtain ⟨hwell', hrest⟩ := ih (htree ▸ hwell : next.tree.WellFormed) (position + 1)
    rw [htree] at hrest
    -- The first output leads after its own step where it leads in the end, for what comes later
    -- only adds to the tree.
    refine ⟨hwell', (hstep.mono ?_).trans (hrest.mono ?_)⟩
    · intro location hl
      exact ⟨input, List.mem_cons_self, hrest.locate_ok hl⟩
    · rintro location ⟨target, hm, hl⟩
      exact ⟨target, List.mem_cons_of_mem input hm, hl⟩

end BatchRun

namespace BatchPlan

theorem run_tree (plan : BatchPlan) (options : ConvertOptions) (tree : FileTree)
    (ids : IdSupply) : (plan.run options tree ids).tree =
      ((plan.start tree ids).convertFrom plan options 1 plan.targets).tree := rfl

/-- What a path leads to after some of the targets reads the same after all of them, unless one of
the outputs still to come leads to it in the end. -/
theorem run_readBytes_eq (plan : BatchPlan) (options : ConvertOptions) {tree : FileTree}
    (hw : tree.WellFormed) (ids : IdSupply) {front rest : List Path}
    (hs : plan.targets = front ++ rest) {p : Path}
    (hp : ((plan.start tree ids).convertFrom plan options 1 front).tree.lookup .look p ≠
      .error .noEntry)
    (hn : ∀ target ∈ rest, ¬ (plan.run options tree ids).tree.SameFile (plan.output target) p) :
    (plan.run options tree ids).tree.readBytes p =
      ((plan.start tree ids).convertFrom plan options 1 front).tree.readBytes p := by
  rw [run_tree, hs, BatchRun.convertFrom_append] at hn ⊢
  have hstart : (plan.start tree ids).tree.WellFormed := hw
  have hmid := (BatchRun.convertFrom_updates plan options hstart 1 front).1
  obtain ⟨-, hrest⟩ := BatchRun.convertFrom_updates plan options hmid (1 + front.length) rest
  refine hrest.readBytes_eq hp fun location hl => ?_
  rintro ⟨target, hm, ht⟩
  exact hn target hm ⟨location, ht, hrest.locate_ok hl⟩

theorem run_updates (plan : BatchPlan) (options : ConvertOptions) {tree : FileTree}
    (hw : tree.WellFormed) (ids : IdSupply) :
    FileTree.Updates (fun location => ∃ target ∈ plan.targets,
      (plan.run options tree ids).tree.LeadsTo (plan.output target) location)
      tree (plan.run options tree ids).tree := by
  have hstart : (plan.start tree ids).tree.WellFormed := hw
  exact (BatchRun.convertFrom_updates plan options hstart 1 plan.targets).2

/-- A plan fails for its input before anything is made, or fails for its folder, or is there. -/
theorem make_cases (tree : FileTree) (input : Path) (options : ConvertOptions) :
    (∃ failure, tree.collectTargets input options.extension options.recursive = .error failure ∧
        make tree input options = (tree, .error failure)) ∨
      ∃ targets planned,
        tree.collectTargets input options.extension options.recursive = .ok targets ∧
        ((∃ cause,
            tree.makeDirectories (tree.outputDirectory input options) = (planned, .error cause) ∧
            make tree input options =
              (planned, .error (.outputDirectory (tree.outputDirectory input options) cause))) ∨
          tree.makeDirectories (tree.outputDirectory input options) = (planned, .ok ()) ∧
            make tree input options =
              (planned, .ok
                ⟨if planned.isDirectory input then input else input.parent?.getD ⟨[]⟩, targets,
                  tree.outputDirectory input options⟩)) := by
  rw [make]
  cases hc : tree.collectTargets input options.extension options.recursive with
  | error failure => exact Or.inl ⟨failure, rfl, rfl⟩
  | ok targets =>
    dsimp only [FileTree.prepareOutputDirectory]
    rcases tree.makeDirectories (tree.outputDirectory input options) with ⟨made, cause | u⟩
    · exact Or.inr ⟨targets, made, rfl, Or.inl ⟨cause, rfl, rfl⟩⟩
    · exact Or.inr ⟨targets, made, rfl, Or.inr ⟨rfl, rfl⟩⟩

theorem make_ok {tree planned : FileTree} {input : Path} {options : ConvertOptions}
    {plan : BatchPlan} (h : make tree input options = (planned, .ok plan)) :
    tree.collectTargets input options.extension options.recursive = .ok plan.targets ∧
      plan.outputDir = tree.outputDirectory input options ∧
      plan.root = (if planned.isDirectory input then input else input.parent?.getD ⟨[]⟩) ∧
      (tree.WellFormed → planned.WellFormed) ∧
      ∀ written, FileTree.Updates written tree planned := by
  rcases make_cases tree input options with
    ⟨failure, -, hm⟩ | ⟨targets, made, hc, ⟨cause, -, hm⟩ | ⟨hd, hm⟩⟩
  · cases h.symm.trans hm
  · cases h.symm.trans hm
  · obtain ⟨rfl, hplan⟩ := Prod.mk.inj (h.symm.trans hm)
    obtain rfl := Except.ok.inj hplan
    obtain rfl : (tree.makeDirectories (tree.outputDirectory input options)).1 = planned := by
      rw [hd]
    exact ⟨hc, rfl, rfl, fun hw => hw.makeDirectories _,
      fun written => FileTree.makeDirectories_updates tree _⟩

theorem run_linkFree {tree planned : FileTree} (hw : tree.WellFormed) (hf : tree.LinkFree)
    {input : Path} {options : ConvertOptions} {plan : BatchPlan}
    (h : make tree input options = (planned, .ok plan)) (runOptions : ConvertOptions)
    (ids : IdSupply) : (plan.run runOptions planned ids).tree.LinkFree := by
  obtain ⟨-, -, -, hwell, hupdates⟩ := make_ok h
  exact (run_updates plan runOptions (hwell hw) ids).linkFree
    ((hupdates fun _ => False).linkFree hf)

end BatchPlan

end ScriptNotebook
