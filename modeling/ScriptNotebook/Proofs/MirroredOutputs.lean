import ScriptNotebook.Proofs.OutputClashes
import ScriptNotebook.Proofs.PlanningAgain

/-!
Outputs as a mirror of the input.  A target is the input itself, or folders lead from the input
down to it; its output stands behind the same folders below the output folder, under the name of
the target with the extension of notebooks.
-/
namespace ScriptNotebook

theorem Path.dot_not_mem_of_extension? {p : Path} {own : Text} (h : p.extension? = some own) :
    '.' ∉ own := by
  obtain ⟨name, -, hs⟩ := Option.bind_eq_some_iff.mp h
  exact (eq_append_of_splitName (Prod.ext rfl hs)).2.2

namespace FileTree

/-- How a target stands below an input: as the input itself, a file, or behind folders that lead
from one directory to the next, the first of them in the directory that the input leads to. -/
inductive StandsBelow (tree : FileTree) (input : Path) : Path → List Text → Text → Prop
  | file {front : List Path.Component} {name : Text} (isFile : tree.isFile input)
      (components : input.components = front ++ [.name name]) : StandsBelow tree input input [] name
  | behind {location : Location} {folders : List Text} {name : Text}
      (leads : tree.locate .look input = .ok location)
      (directories : ∀ front, front <+: folders →
        tree.find? (front.reverse ++ location) = some .directory)
      (stands : tree.find? (name :: (folders.reverse ++ location)) ≠ none) :
      StandsBelow tree input (input.joinAll (folders ++ [name])) folders name

variable {tree : FileTree} {input target : Path} {extension name : Text} {folders : List Text}

theorem ScriptUnder.standsBelow (hw : tree.WellFormed)
    (h : tree.ScriptUnder input extension (folders ++ [name]) target) :
    tree.StandsBelow input target folders name := by
  obtain ⟨location, hlocate, hfind⟩ := h.stands
  rw [h.path]
  refine .behind hlocate ?_ (by simpa using hfind)
  rintro front ⟨rest, rfl⟩
  have hne : (rest ++ [name]).reverse ≠ [] := by simp
  apply hw.find?_above hne
  simpa using hfind

theorem ScriptUnder.folders_eq_nil (hw : tree.WellFormed)
    (h : tree.ScriptUnder input extension (folders ++ [name]) target)
    (hs : tree.Sought input extension false target) : folders = [] := by
  obtain ⟨location, -, own, -, hfind, -, hpath, -, -⟩ := hs
  obtain ⟨entry, hentry⟩ := Option.ne_none_iff_exists'.mp hfind
  have hown : ∀ n ∈ [own], Path.IsName n := by simpa using hw.isName_of_find? hentry
  have hnames : folders ++ [name] = [own] :=
    Path.joinAll_inj h.allNames hown (h.path.symm.trans hpath)
  simpa using congrArg List.length hnames

end FileTree

namespace BatchPlan

variable {tree planned : FileTree} {input : Path} {options : ConvertOptions} {plan : BatchPlan}

/-- A target stands behind folders below the input, and behind the same folders below the root. -/
theorem exists_standsBelow (hw : tree.WellFormed)
    (h : make tree input options = (planned, .ok plan)) {target : Path}
    (ht : target ∈ plan.targets) :
    ∃ folders own, tree.StandsBelow input target folders (target.stem ++ '.' :: own) ∧
      '.' ∉ own ∧ (options.recursive = false → folders = []) ∧
      target.components = plan.root.components ++ folders.map .name ++
        [.name (target.stem ++ '.' :: own)] := by
  obtain ⟨hcollect, -, hroot, -, hupdates⟩ := make_ok h
  rw [FileTree.isDirectory_later hw (hupdates fun _ => False) hcollect] at hroot
  rcases FileTree.collectTargets_ok hw hcollect with ⟨hfile, hext, hone⟩ | ⟨-, hall⟩
  · obtain rfl : target = input := List.mem_singleton.mp (hone ▸ ht)
    obtain ⟨front, own, hc, -, hown, -⟩ := Path.exists_of_hasExtension hext
    obtain ⟨above, habove, hfront⟩ := Path.exists_parent hc
    have hr : plan.root = above := by
      simpa [FileTree.isDirectory_of_isFile hfile, habove] using hroot
    refine ⟨[], own, .file hfile hc, Path.dot_not_mem_of_extension? hown, fun _ => rfl, ?_⟩
    simpa [hr, hfront] using hc
  · obtain ⟨names, hunder⟩ := hall target ht
    obtain ⟨folders, own, rfl, hc, hown, -⟩ := hunder.exists_last
    have hd : tree.isDirectory input := hunder.isDirectory hw
    have hr : plan.root = input := by simpa [hd] using hroot
    refine ⟨folders, own, hunder.standsBelow hw, Path.dot_not_mem_of_extension? hown, ?_, ?_⟩
    · intro hflat
      rw [hflat] at hcollect
      have hsought := ((hw.collectTargets_eq_ok_iff hd).mp hcollect).2.2 target
      exact hunder.folders_eq_nil hw (hsought.mp ht)
    · rw [hr, hc]

/-- The output of a target has the components of the output folder, then the folders that lead from
the input to the target, all of them plain names, then the name of the target with `ipynb` in place
of what follows its last dot.  A search without recursion passes through no folders. -/
theorem outputs_mirror_targets (hw : tree.WellFormed)
    (h : make tree input options = (planned, .ok plan)) :
    ∀ target ∈ plan.targets, ∃ folders stem own,
      tree.StandsBelow input target folders (stem ++ '.' :: own) ∧ '.' ∉ own ∧
        (options.recursive = false → folders = []) ∧
        (outputPath target plan.root plan.outputDir).components =
          plan.outputDir.components ++ (folders ++ [stem ++ ".ipynb".toList]).map .name ∧
        ∀ name ∈ folders ++ [stem ++ ".ipynb".toList], Path.IsName name := by
  intro target ht
  obtain ⟨folders, own, hstands, hown, hflat, hc⟩ := exists_standsBelow hw h ht
  have hout := components_outputPath hc plan.outputDir
  refine ⟨folders, target.stem, own, hstands, hown, hflat, hout, fun name hm => ?_⟩
  have hmem : .name name ∈ (outputPath target plan.root plan.outputDir).components := by
    rw [hout]
    exact List.mem_append_right _ (List.mem_map_of_mem hm)
  exact Path.isName_of_mem_components hmem

/-- Scripts at two depths, seen from a directory beside them. -/
def nestedTree : FileTree where
  entries := [(["lib".toList], .directory), (["src".toList], .directory),
    (["etl".toList, "src".toList], .directory),
    (["v1.2.load.PY".toList, "etl".toList, "src".toList], .ofText []),
    (["job.py".toList, "src".toList], .ofText [])]
  here := ["lib".toList]

def nestedOptions : ConvertOptions :=
  { Settings.initial.toOptions with recursive := true, outputDir := some (.ofString "../out//nb/") }

def nestedPlan : BatchPlan where
  root := .ofString "..//src/./"
  targets := [.ofString "..//src/./etl/v1.2.load.PY", .ofString "..//src/./job.py"]
  outputDir := .ofString "../out//nb/"

theorem nestedTree_outputs_mirror :
    let planned := (nestedTree.set ["out".toList] .directory).set ["nb".toList, "out".toList]
      .directory
    let target := Path.ofString "..//src/./etl/v1.2.load.PY"
    nestedTree.WellFormed ∧
      make nestedTree (.ofString "..//src/./") nestedOptions = (planned, .ok nestedPlan) ∧
      target ∈ nestedPlan.targets ∧
      (∃ folders stem own,
        nestedTree.StandsBelow (.ofString "..//src/./") target folders (stem ++ '.' :: own) ∧
          '.' ∉ own ∧ (nestedOptions.recursive = false → folders = []) ∧
          (outputPath target nestedPlan.root nestedPlan.outputDir).components =
            nestedPlan.outputDir.components ++ (folders ++ [stem ++ ".ipynb".toList]).map .name ∧
          ∀ name ∈ folders ++ [stem ++ ".ipynb".toList], Path.IsName name) ∧
      outputPath target nestedPlan.root nestedPlan.outputDir =
        .ofString "../out//nb/etl/v1.2.load.ipynb" := by
  intro planned target
  have hw : nestedTree.WellFormed := by decide +kernel
  have hmake : make nestedTree (.ofString "..//src/./") nestedOptions =
      (planned, .ok nestedPlan) := by
    decide +kernel
  have ht : target ∈ nestedPlan.targets := List.mem_cons_self
  exact ⟨hw, hmake, ht, outputs_mirror_targets hw hmake target ht, by decide +kernel⟩

end BatchPlan

end ScriptNotebook
