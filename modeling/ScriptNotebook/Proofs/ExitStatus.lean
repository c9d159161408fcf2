import ScriptNotebook.Program
import ScriptNotebook.Proofs.BatchReports
import ScriptNotebook.Proofs.CollectedTargets

/-!
What the exit status of a conversion says.  It is zero if something was converted, two if the
caller has named an input or an output folder that cannot be used, and one otherwise; a status that
is not zero comes with all files as they were.
-/
namespace ScriptNotebook

open CommandLine

namespace FileTree

variable {tree : FileTree} {input : Path}

theorem exitStatus_of_collectTargets {extension : Text} {recursive : Bool} {failure : Failure}
    (h : tree.collectTargets input extension recursive = .error failure) :
    (tree.pathExists input = false ∧ failure.exitStatus = 2) ∨
      (tree.pathExists input = true ∧ failure.exitStatus = 1) := by
  rcases collectTargets_error h with ⟨hx, rfl⟩ | ⟨hx, rfl | rfl | ⟨cause, rfl⟩⟩
  · exact Or.inl ⟨hx, rfl⟩
  all_goals exact Or.inr ⟨hx, rfl⟩

/-- The input gives nothing to convert. -/
inductive NothingToConvert (tree : FileTree) (input : Path) (options : ConvertOptions) : Prop
  | missing (h : tree.pathExists input = false)
  | otherFile (hf : tree.isFile input) (he : ¬ input.hasExtension options.extension)
  | emptyFolder (hd : tree.isDirectory input)
      (hs : tree.scriptsOf input options.extension options.recursive = .ok [])

theorem NothingToConvert.collectTargets {options : ConvertOptions}
    (h : tree.NothingToConvert input options) :
    ∃ failure, tree.collectTargets input options.extension options.recursive = .error failure := by
  simp only [collectTargets_eq]
  cases h with
  | missing h => exact ⟨.notFound input, by rw [h, if_neg Bool.false_ne_true]⟩
  | otherFile hf he =>
    exact ⟨.unsupportedInput input options.extension,
      by rw [if_pos (pathExists_of_isFile hf), if_pos hf, if_neg he]⟩
  | emptyFolder hd hs =>
    refine ⟨.noInputs input options.extension, ?_⟩
    rw [if_pos (pathExists_of_isDirectory hd), isFile_of_isDirectory hd,
      if_neg Bool.false_ne_true, hs]
    rfl

/-- The output folder of a conversion cannot be made. -/
def OutputBlocked (tree : FileTree) (input : Path) (options : ConvertOptions) : Prop :=
  ∃ cause, (tree.makeDirectories (tree.outputDirectory input options)).2 = .error cause

/-- The input is missing, or it gives targets and the output folder cannot be made. -/
def PathsAtFault (tree : FileTree) (input : Path) (options : ConvertOptions) : Prop :=
  tree.pathExists input = false ∨
    (∃ targets,
      tree.collectTargets input options.extension options.recursive = .ok targets) ∧
    tree.OutputBlocked input options

end FileTree

namespace BatchPlan

def ConvertsSome (tree : FileTree) (ids : IdSupply) (input : Path) (options : ConvertOptions) :
    Prop :=
  ∃ planned plan file, make tree input options = (planned, .ok plan) ∧
    plan.Converts options planned ids file

theorem convertsSome_iff {tree planned : FileTree} {plan : BatchPlan} {input : Path}
    {options : ConvertOptions} (hm : make tree input options = (planned, .ok plan))
    (ids : IdSupply) :
    ConvertsSome tree ids input options ↔
      (plan.run options planned ids).report.converted ≠ [] := by
  constructor
  · rintro ⟨planned', plan', file, hm', hfile⟩ hnil
    cases hm.symm.trans hm'
    rw [← mem_converted_iff, hnil] at hfile
    cases hfile
  · intro hne
    obtain ⟨file, hfile⟩ := List.exists_mem_of_ne_nil _ hne
    exact ⟨planned, plan, file, hm, (plan.mem_converted_iff options planned ids).mp hfile⟩

end BatchPlan

namespace Program

/-- A conversion converts something, or fails for the paths given, or fails otherwise; unless it
converts something, all files stay. -/
theorem convert_cases (tree : FileTree) (ids : IdSupply) (input : Path)
    (options : ConvertOptions) :
    ((convert tree ids input options).exitStatus = 0 ∧
        BatchPlan.ConvertsSome tree ids input options ∧ ¬ tree.PathsAtFault input options) ∨
      (tree.SameFiles (convert tree ids input options).tree ∧
        ¬ BatchPlan.ConvertsSome tree ids input options ∧
        ((convert tree ids input options).exitStatus = 2 ∧ tree.PathsAtFault input options ∨
          (convert tree ids input options).exitStatus = 1 ∧
            ¬ tree.PathsAtFault input options)) := by
  rw [convert, FileTree.PathsAtFault, FileTree.OutputBlocked]
  rcases BatchPlan.make_cases tree input options with
    ⟨failure, hc, hm⟩ | ⟨targets, planned, hc, hmade⟩
  · refine Or.inr ⟨?_, by simp [BatchPlan.ConvertsSome, hm], ?_⟩
    · rw [hm]
      exact (FileTree.Updates.refl tree).sameFiles
    · rcases FileTree.exitStatus_of_collectTargets hc with ⟨hx, he⟩ | ⟨hx, he⟩
      · exact Or.inl ⟨by simp [hm, he], Or.inl hx⟩
      · exact Or.inr ⟨by simp [hm, he], by simp [hx, hc]⟩
  have hu : FileTree.Updates (fun _ => False) tree planned := by
    rcases hmade with ⟨cause, hd, -⟩ | ⟨hd, -⟩ <;> exact FileTree.updates_of_makeDirectories hd
  rcases hmade with ⟨cause, hd, hm⟩ | ⟨hd, hm⟩
  · refine Or.inr ⟨?_, by simp [BatchPlan.ConvertsSome, hm],
      Or.inl ⟨?_, Or.inr ⟨⟨targets, hc⟩, cause, by rw [hd]⟩⟩⟩
    · rw [hm]
      exact hu.sameFiles
    · simp [hm, Failure.exitStatus]
  · have hx : tree.pathExists input = true := by
      by_contra hx
      rw [FileTree.collectTargets_eq, if_neg hx] at hc
      cases hc
    obtain ⟨plan, hm⟩ : ∃ plan, BatchPlan.make tree input options = (planned, .ok plan) := ⟨_, hm⟩
    have hsome := BatchPlan.convertsSome_iff hm ids
    cases hr : (plan.run options planned ids).report.converted with
    | nil =>
      refine Or.inr ⟨?_, by simp [hsome, hr], Or.inr ⟨?_, by simp [hx, hd]⟩⟩
      · rw [hm]
        exact (hu.trans (plan.run_updates_of_converted_nil options planned ids hr)).sameFiles
      · simp [hm, BatchReport.exitStatus, BatchReport.anyConverted, hr]
    | cons file files =>
      refine Or.inl ⟨?_, by simp [hsome, hr], by simp [hx, hd]⟩
      simp [hm, BatchReport.exitStatus, BatchReport.anyConverted, hr]

theorem convert_of_nothing {tree : FileTree} {input : Path} {options : ConvertOptions}
    (h : tree.NothingToConvert input options) (ids : IdSupply) :
    (convert tree ids input options).exitStatus ≠ 0 ∧
      (convert tree ids input options).tree = tree := by
  obtain ⟨failure, hc⟩ := h.collectTargets
  have hm : BatchPlan.make tree input options = (tree, .error failure) := by
    rw [BatchPlan.make, hc]
  rw [convert, hm]
  rcases FileTree.exitStatus_of_collectTargets hc with ⟨-, he⟩ | ⟨-, he⟩ <;> simp [he]

variable {args : List Text} {given : Arguments} {input : Path}

theorem run_of_settings (tree : FileTree) (home : Path) (ids : IdSupply)
    (hp : Arguments.parse args = .ok given) (hc : given.command = .convert input) :
    run tree home ids args =
      match Settings.load tree home given.taken.settingsFile with
      | .error failure => abort tree failure
      | .ok settings => convert tree ids input (given.options settings) := by
  obtain ⟨command, taken⟩ := given
  obtain rfl : command = .convert input := hc
  rw [run, hp]
  rfl

/-- The status of a conversion is zero if and only if some target was converted, two if and only if
the settings load and the paths given are at fault, and one otherwise.  A status that is not zero
leaves all files as they were; settings that do not load and an input that gives nothing to convert
leave the whole tree. -/
theorem run_exitStatus (tree : FileTree) (home : Path) (ids : IdSupply)
    (hp : Arguments.parse args = .ok given) (hc : given.command = .convert input) :
    ((run tree home ids args).exitStatus = 0 ↔
        ∃ settings, Settings.load tree home given.taken.settingsFile = .ok settings ∧
          BatchPlan.ConvertsSome tree ids input (given.options settings)) ∧
      ((run tree home ids args).exitStatus = 2 ↔
        ∃ settings, Settings.load tree home given.taken.settingsFile = .ok settings ∧
          tree.PathsAtFault input (given.options settings)) ∧
      ((run tree home ids args).exitStatus ≠ 0 → (run tree home ids args).exitStatus ≠ 2 →
        (run tree home ids args).exitStatus = 1) ∧
      ((run tree home ids args).exitStatus ≠ 0 → tree.SameFiles (run tree home ids args).tree) ∧
      (∀ failure, Settings.load tree home given.taken.settingsFile = .error failure →
        (run tree home ids args).exitStatus = 1 ∧ (run tree home ids args).tree = tree) ∧
      ∀ settings, Settings.load tree home given.taken.settingsFile = .ok settings →
        tree.NothingToConvert input (given.options settings) →
        (run tree home ids args).exitStatus ≠ 0 ∧ (run tree home ids args).tree = tree := by
  rw [run_of_settings tree home ids hp hc]
  cases hl : Settings.load tree home given.taken.settingsFile with
  | error failure =>
    simp [abort, quiet, (FileTree.Updates.refl tree).sameFiles]
  | ok settings =>
    simp only [Except.ok.injEq, exists_eq_left', reduceCtorEq, false_imp_iff, implies_true,
      true_and, forall_eq']
    refine ⟨?_, ?_, ?_, ?_, fun hn => convert_of_nothing hn ids⟩ <;>
      rcases convert_cases tree ids input (given.options settings) with
        ⟨he, hsome, hf⟩ | ⟨hs, hsome, ⟨he, hf⟩ | ⟨he, hf⟩⟩ <;> simp [*]

/-- A script, and a file that is no text. -/
def scriptsTree : FileTree where
  entries := [(["a.py".toList], .ofText "x = 1\n".toList), (["b.py".toList], .file ⟨#[0xFF]⟩)]
  here := []

def scriptsPlanned : FileTree := scriptsTree.set ["notebooks".toList] .directory

def planFor (input : String) : BatchPlan where
  root := .ofString ""
  targets := [.ofString input]
  outputDir := .ofString "./notebooks"

def converting (input : String) (outdir : Option Path) : Arguments where
  command := .convert (.ofString input)
  taken := { Taken.nothing with outdir, path := some (.ofString input) }

def convertingOptions (input : String) (outdir : Option Path) : ConvertOptions :=
  (converting input outdir).options Settings.initial

def runScripts (args : List String) : Outcome :=
  run scriptsTree (.ofString "/home") (.sequential 0) (args.map String.toList)

theorem load_scriptsTree :
    Settings.load scriptsTree (.ofString "/home") none = .ok Settings.initial := by
  decide +kernel

theorem exists_load_scriptsTree_iff {p : Settings → Prop} :
    (∃ settings, Settings.load scriptsTree (.ofString "/home") none = .ok settings ∧ p settings) ↔
      p Settings.initial := by
  simp [load_scriptsTree]

theorem make_scriptsTree :
    ∀ input ∈ ["a.py", "b.py"],
      BatchPlan.make scriptsTree (.ofString input) (convertingOptions input none) =
        (scriptsPlanned, .ok (planFor input)) := by
  decide +kernel

theorem not_pathsAtFault_scriptsTree :
    ¬ scriptsTree.PathsAtFault (.ofString "b.py") (convertingOptions "b.py" none) := by
  rintro (hmissing | ⟨-, cause, hblocked⟩)
  · exact absurd hmissing (by decide +kernel)
  · have hmade : (scriptsTree.makeDirectories (scriptsTree.outputDirectory (.ofString "b.py")
        (convertingOptions "b.py" none))).2.isOk = true := by
      decide +kernel
    rw [hblocked] at hmade
    cases hmade

/-- One run for each status: a script is converted, the only target is no text, and a file is where
the output folder should go. -/
theorem run_exitStatus_scriptsTree :
    (runScripts ["a.py"]).exitStatus = 0 ∧
      ((runScripts ["b.py"]).exitStatus = 1 ∧
        scriptsTree.SameFiles (runScripts ["b.py"]).tree) ∧
      ((runScripts ["--outdir=a.py/out", "a.py"]).exitStatus = 2 ∧
        scriptsTree.SameFiles (runScripts ["--outdir=a.py/out", "a.py"]).tree) := by
  refine ⟨?converted, ?failed, ?blocked⟩
  case converted =>
    have hp : Arguments.parse ["a.py".toList] = .ok (converting "a.py" none) := by decide +kernel
    have hsome : BatchPlan.ConvertsSome scriptsTree (.sequential 0) (.ofString "a.py")
        (convertingOptions "a.py" none) :=
      (BatchPlan.convertsSome_iff (make_scriptsTree "a.py" (by decide)) _).mpr (by decide +kernel)
    obtain ⟨hzero, -⟩ := run_exitStatus scriptsTree (.ofString "/home") (.sequential 0) hp rfl
    exact hzero.mpr (exists_load_scriptsTree_iff.mpr hsome)
  case failed =>
    have hp : Arguments.parse ["b.py".toList] = .ok (converting "b.py" none) := by decide +kernel
    have hnone : ¬ BatchPlan.ConvertsSome scriptsTree (.sequential 0) (.ofString "b.py")
        (convertingOptions "b.py" none) := by
      rw [BatchPlan.convertsSome_iff (make_scriptsTree "b.py" (by decide))]
      decide +kernel
    obtain ⟨hzero, htwo, hone, hfiles, -⟩ :=
      run_exitStatus scriptsTree (.ofString "/home") (.sequential 0) hp rfl
    have hnotZero : (runScripts ["b.py"]).exitStatus ≠ 0 := by
      intro h
      have hsome := exists_load_scriptsTree_iff.mp (hzero.mp h)
      exact hnone hsome
    have hnotTwo : (runScripts ["b.py"]).exitStatus ≠ 2 := by
      intro h
      have hf := exists_load_scriptsTree_iff.mp (htwo.mp h)
      exact not_pathsAtFault_scriptsTree hf
    exact ⟨hone hnotZero hnotTwo, hfiles hnotZero⟩
  case blocked =>
    have hp : Arguments.parse ["--outdir=a.py/out".toList, "a.py".toList] =
        .ok (converting "a.py" (some (.ofString "a.py/out"))) := by
      decide +kernel
    have hf : scriptsTree.PathsAtFault (.ofString "a.py")
        (convertingOptions "a.py" (some (.ofString "a.py/out"))) :=
      Or.inr ⟨⟨[.ofString "a.py"], by decide +kernel⟩, .notDirectory, by decide +kernel⟩
    obtain ⟨-, htwo, -, hfiles, -⟩ :=
      run_exitStatus scriptsTree (.ofString "/home") (.sequential 0) hp rfl
    have he : (runScripts ["--outdir=a.py/out", "a.py"]).exitStatus = 2 :=
      htwo.mpr (exists_load_scriptsTree_iff.mpr hf)
    refine ⟨he, hfiles fun h => ?_⟩
    cases he.symm.trans h

end Program

end ScriptNotebook
