import ScriptNotebook.Proofs.GivenPaths
import ScriptNotebook.Proofs.NewDirectories
import ScriptNotebook.Proofs.PlanningAgain

/-!
What planning leaves in a tree, links or not.  An input that gives nothing to convert leaves the
tree alone, whatever stands in the way of the output folder.  Once there are targets, directories
come where the output folder and the paths above it lead, and nothing else changes, be the folder
made in the end or not.
-/
namespace ScriptNotebook

namespace FileTree

variable {tree before after made : FileTree} {input p : Path} {options : ConvertOptions}

/-- Directories come at allowed locations, and all else is as it was. -/
structure OnlyAdds (allowed : Location → Prop) (before after : FileTree) : Prop where
  files : before.SameFiles after
  links : before.SameLinks after
  kept : ∀ location, before.find? location = some .directory →
    after.find? location = some .directory
  added : NewDirectories allowed before after

/-- The path or one above it leads to the location. -/
def OnTheWay (tree : FileTree) (p : Path) (location : Location) : Prop :=
  ∃ q, (q = p ∨ p.Below q) ∧ tree.LeadsTo q location

/-- Making directories for a path, be it with success or not, adds some on the way there. -/
theorem onlyAdds_of_makeDirectories {result : Except SystemError Unit}
    (h : tree.makeDirectories p = (made, result)) : OnlyAdds (made.OnTheWay p) tree made := by
  obtain rfl : (tree.makeDirectories p).1 = made := by rw [h]
  have hu : Updates (fun _ => False) tree (tree.makeDirectories p).1 :=
    makeDirectories_updates tree p
  exact ⟨hu.sameFiles, hu.sameLinks, hu.directory, makeDirectories_newDirectories tree p⟩

theorem outputDirectory_ne
    (hgiven : ∀ directory, options.outputDir = some directory → directory.text ≠ []) :
    (tree.outputDirectory input options).text ≠ [] := by
  rw [outputDirectory]
  cases ho : options.outputDir with
  | some directory => exact hgiven directory ho
  | none =>
    refine Path.join_ne_nil ?_ _
    split
    · next hd => exact text_ne_nil_of_checkPath (checkPath_of_isDirectory hd)
    · cases input.parent? with
      | none => exact List.cons_ne_nil _ _
      | some above =>
        dsimp only
        split
        · exact List.cons_ne_nil _ _
        · next hne => exact hne

end FileTree

namespace BatchPlan

variable {tree planned : FileTree} {input : Path} {options : ConvertOptions}
  {result : Except Failure BatchPlan}

/-- The folder of a plan from an accepted command line is there, whatever the settings say. -/
theorem isDirectory_of_parse {args : List Text} {given : CommandLine.Arguments}
    (hp : CommandLine.Arguments.parse args = .ok given) {settings : Settings} {plan : BatchPlan}
    (h : make tree input (given.options settings) = (planned, .ok plan)) :
    planned.isDirectory plan.outputDir := by
  have hne : (tree.outputDirectory input (given.options settings)).text ≠ [] :=
    FileTree.outputDirectory_ne (CommandLine.noEmptyPath_of_parse hp).outdir
  obtain ⟨-, hdir, -⟩ := make_ok h
  exact FileTree.isDirectory_of_makeDirectories (hdir ▸ hne) (make_makeDirectories h)

/-- Planning leaves the tree alone if it fails for another reason than the output folder.  If it
fails for that, there are targets, and if it does not fail, the output folder is a directory; either
way all that comes are directories on the way to the output folder. -/
theorem make_only_adds (tree : FileTree) (input : Path)
    (hgiven : ∀ directory, options.outputDir = some directory → directory.text ≠ [])
    (h : make tree input options = (planned, result)) :
    (∀ failure, result = .error failure →
        (∀ directory cause, failure ≠ .outputDirectory directory cause) → planned = tree) ∧
      (∀ directory cause, result = .error (.outputDirectory directory cause) →
        (∃ targets,
          tree.collectTargets input options.extension options.recursive = .ok targets) ∧
        FileTree.OnlyAdds (planned.OnTheWay directory) tree planned) ∧
      ∀ plan, result = .ok plan →
        planned.isDirectory plan.outputDir ∧
          FileTree.OnlyAdds (planned.OnTheWay plan.outputDir) tree planned := by
  rcases make_cases tree input options with
    ⟨failure, hc, hm⟩ | ⟨targets, made, hc, ⟨cause, hd, hm⟩ | ⟨hd, hm⟩⟩ <;>
  obtain ⟨rfl, rfl⟩ := Prod.mk.inj (h.symm.trans hm)
  · refine ⟨fun _ _ _ => rfl, fun directory cause he => ?_, fun plan hp => (by cases hp)⟩
    -- A search for targets blames the input and never the output folder.
    obtain rfl := Except.error.inj he
    rcases FileTree.collectTargets_error hc with ⟨-, he⟩ | ⟨-, he | he | ⟨cause', he⟩⟩ <;> cases he
  · refine ⟨fun failure he hne => ?_, fun directory cause' he => ?_, fun plan hp => (by cases hp)⟩
    · exact absurd (Except.error.inj he).symm (hne _ _)
    · obtain ⟨rfl, rfl⟩ := Failure.outputDirectory.inj (Except.error.inj he)
      exact ⟨⟨targets, hc⟩, FileTree.onlyAdds_of_makeDirectories hd⟩
  · refine ⟨fun failure he => (by cases he), fun _ _ he => (by cases he), fun plan hp => ?_⟩
    obtain rfl := Except.ok.inj hp
    exact ⟨FileTree.isDirectory_of_makeDirectories (FileTree.outputDirectory_ne hgiven) hd,
      FileTree.onlyAdds_of_makeDirectories hd⟩

def linkedTree : FileTree where
  entries := [(["a.py".toList], .ofText "x = 1\n".toList), (["real".toList], .directory),
    (["link".toList], .link (.ofString "real"))]
  here := []

def optionsInto (directory : Path) : ConvertOptions :=
  { Settings.initial.toOptions with outputDir := some directory }

/-- The way to the output folder goes through a link into a new folder and back out of it. -/
def detour : Path := .ofString "link/new/../out"

def detourPlan : BatchPlan where
  root := .ofString ""
  targets := [.ofString "a.py"]
  outputDir := detour

def detourTree : FileTree :=
  (linkedTree.set ["new".toList, "real".toList] .directory).set ["out".toList, "real".toList]
    .directory

/-- The way to the output folder goes through a new folder and back out of it to the script. -/
def blockedDetour : Path := .ofString "new/../a.py/out"

theorem make_only_adds_detour :
    make linkedTree (.ofString "a.py") (optionsInto detour) = (detourTree, .ok detourPlan) ∧
      (detourTree.isDirectory detour ∧
        FileTree.OnlyAdds (detourTree.OnTheWay detour) linkedTree detourTree) ∧
      make linkedTree (.ofString "a.py") (optionsInto blockedDetour) =
        (linkedTree.set ["new".toList] .directory,
          .error (.outputDirectory blockedDetour .alreadyExists)) ∧
      FileTree.OnlyAdds ((linkedTree.set ["new".toList] .directory).OnTheWay blockedDetour)
        linkedTree (linkedTree.set ["new".toList] .directory) := by
  have hgiven : ∀ given ∈ [detour, blockedDetour], ∀ directory,
      (optionsInto given).outputDir = some directory → directory.text ≠ [] := by
    rintro given hg directory ho
    obtain rfl : given = directory := Option.some.inj ho
    revert hg given
    decide
  have hmake : make linkedTree (.ofString "a.py") (optionsInto detour) =
      (detourTree, .ok detourPlan) := by
    decide +kernel
  have hblocked : make linkedTree (.ofString "a.py") (optionsInto blockedDetour) =
      (linkedTree.set ["new".toList] .directory,
        .error (.outputDirectory blockedDetour .alreadyExists)) := by
    decide +kernel
  obtain ⟨-, -, hplan⟩ := make_only_adds linkedTree _ (hgiven detour (by simp)) hmake
  obtain ⟨-, hfailed, -⟩ := make_only_adds linkedTree _ (hgiven blockedDetour (by simp)) hblocked
  exact ⟨hmake, hplan detourPlan rfl, hblocked, (hfailed blockedDetour .alreadyExists rfl).2⟩

end BatchPlan

end ScriptNotebook
