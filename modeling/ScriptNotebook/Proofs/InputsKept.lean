import ScriptNotebook.Proofs.BatchUpdates
import ScriptNotebook.Proofs.FoundScripts
import ScriptNotebook.Proofs.OutputPaths

/-!
What a batch does to its own inputs in a tree without links.  Only a target that is named like a
notebook can be one of the outputs, and every target that is none of them is kept.
-/
namespace ScriptNotebook

def notebookExtension : Text := "ipynb".toList

/-- Where an output is a script, the script has the extension of notebooks. -/
theorem extension_of_sameFile_outputPath {tree : FileTree} (hf : tree.LinkFree)
    {s t root outputDir : Path} {extension : Text} (hs : s.stem ≠ [])
    (ht : t.hasExtension extension) (h : tree.SameFile (outputPath s root outputDir) t) :
    t.extension? = some notebookExtension := by
  obtain ⟨front, hout⟩ := exists_components_outputPath s root outputDir
  obtain ⟨front', own, hcomponents, -, -, -⟩ := Path.exists_of_hasExtension ht
  have hl := h.landing_eq hf
  rw [Path.landing_of_last hout, Path.landing_of_last hcomponents] at hl
  have hname : t.stem ++ '.' :: own = s.stem ++ '.' :: notebookExtension :=
    (List.cons.inj hl).1.symm
  rw [Path.extension?, Path.fileName?_of_components hcomponents, hname, Option.bind_some,
    Path.splitName_append hs (by decide)]

namespace BatchPlan

variable {tree planned : FileTree} {input : Path} {options : ConvertOptions} {plan : BatchPlan}

theorem hasExtension_of_mem (hw : tree.WellFormed)
    (h : make tree input options = (planned, .ok plan)) {target : Path}
    (ht : target ∈ plan.targets) : target.hasExtension options.extension := by
  rcases FileTree.collectTargets_ok hw (make_ok h).1 with ⟨-, hext, hone⟩ | ⟨-, hall⟩
  · rw [hone, List.mem_singleton] at ht
    rw [ht]
    exact hext
  · obtain ⟨names, hunder⟩ := hall target ht
    exact hunder.hasExtension

theorem lookup_ne_of_mem (hw : tree.WellFormed) (hf : tree.LinkFree)
    (h : make tree input options = (planned, .ok plan)) {target : Path}
    (ht : target ∈ plan.targets) : tree.lookup .look target ≠ .error .noEntry := by
  rcases FileTree.collectTargets_ok hw (make_ok h).1 with ⟨hfile, -, hone⟩ | ⟨-, hall⟩
  · rw [hone, List.mem_singleton] at ht
    rw [ht]
    intro hn
    simp [FileTree.isFile, hn] at hfile
  · obtain ⟨names, hunder⟩ := hall target ht
    exact hunder.lookup_ne hf hw

theorem extension_of_sameFile (hw : tree.WellFormed)
    (h : make tree input options = (planned, .ok plan)) {s t : Path} (hs : s ∈ plan.targets)
    (ht : t ∈ plan.targets) {later : FileTree} (hf : later.LinkFree)
    (hsame : later.SameFile (plan.output s) t) : t.extension? = some notebookExtension := by
  obtain ⟨-, -, -, hstem, -, -⟩ := Path.exists_of_hasExtension (hasExtension_of_mem hw h hs)
  exact extension_of_sameFile_outputPath hf hstem (hasExtension_of_mem hw h ht) hsame

theorem not_sameFile_of_extension (hw : tree.WellFormed)
    (h : make tree input options = (planned, .ok plan))
    (hext : options.extension.map foldAscii ≠ notebookExtension) {s t : Path}
    (hs : s ∈ plan.targets) (ht : t ∈ plan.targets) {later : FileTree} (hf : later.LinkFree) :
    ¬ later.SameFile (plan.output s) t := by
  intro hsame
  obtain ⟨-, own, -, -, he, hfold⟩ := Path.exists_of_hasExtension (hasExtension_of_mem hw h ht)
  have hown : own = notebookExtension := by
    have hx := extension_of_sameFile hw h hs ht hf hsame
    exact Option.some.inj (he.symm.trans hx)
  exact hext (by rw [← hfold, hown]; decide)

theorem readBytes_of_apart (hw : tree.WellFormed) (hf : tree.LinkFree)
    (h : make tree input options = (planned, .ok plan)) (runOptions : ConvertOptions)
    (ids : IdSupply) {target : Path} (ht : target ∈ plan.targets)
    (hapart : ∀ s ∈ plan.targets,
      ¬ (plan.run runOptions planned ids).tree.SameFile (plan.output s) target) :
    (plan.run runOptions planned ids).tree.readBytes target = tree.readBytes target := by
  obtain ⟨-, -, -, hwell, hupdates⟩ := make_ok h
  have hall := (hupdates _).trans (run_updates plan runOptions (hwell hw) ids)
  refine hall.readBytes_eq (lookup_ne_of_mem hw hf h ht) fun location hl => ?_
  rintro ⟨s, hs, hlead⟩
  exact hapart s hs ⟨location, hlead, hall.locate_ok hl⟩

theorem make_readBytes (hw : tree.WellFormed) (hf : tree.LinkFree)
    (h : make tree input options = (planned, .ok plan)) {target : Path}
    (ht : target ∈ plan.targets) : planned.readBytes target = tree.readBytes target := by
  obtain ⟨-, -, -, -, hupdates⟩ := make_ok h
  exact (hupdates fun _ => False).readBytes_eq (lookup_ne_of_mem hw hf h ht) fun _ _ hn => hn

/-- An output is a target only if the target is named like a notebook, a target that is none of
the outputs reads after the batch as when the plan was made, and so every target does unless the
plan is for the extension of notebooks. -/
theorem inputs_kept (hw : tree.WellFormed) (hf : tree.LinkFree)
    (h : make tree input options = (planned, .ok plan)) :
    (∀ t ∈ plan.targets, planned.readBytes t = tree.readBytes t) ∧
      (∀ s ∈ plan.targets, ∀ t ∈ plan.targets, ∀ later : FileTree, later.LinkFree →
        later.SameFile (plan.output s) t → t.extension? = some notebookExtension) ∧
      (∀ (runOptions : ConvertOptions) (ids : IdSupply), ∀ t ∈ plan.targets,
        (∀ s ∈ plan.targets,
          ¬ (plan.run runOptions planned ids).tree.SameFile (plan.output s) t) →
        (plan.run runOptions planned ids).tree.readBytes t = tree.readBytes t) ∧
      (options.extension.map foldAscii ≠ notebookExtension →
        (∀ s ∈ plan.targets, ∀ t ∈ plan.targets, ∀ later : FileTree, later.LinkFree →
          ¬ later.SameFile (plan.output s) t) ∧
        ∀ (runOptions : ConvertOptions) (ids : IdSupply), ∀ t ∈ plan.targets,
          (plan.run runOptions planned ids).tree.readBytes t = tree.readBytes t) := by
  refine ⟨fun t ht => make_readBytes hw hf h ht,
    fun s hs t ht later hlater hsame => extension_of_sameFile hw h hs ht hlater hsame,
    fun runOptions ids t ht hapart => readBytes_of_apart hw hf h runOptions ids ht hapart, ?_⟩
  intro hext
  refine ⟨fun s hs t ht later hlater => not_sameFile_of_extension hw h hext hs ht hlater, ?_⟩
  intro runOptions ids t ht
  have hfinal := run_linkFree hw hf h runOptions ids
  exact readBytes_of_apart hw hf h runOptions ids ht fun s hs =>
    not_sameFile_of_extension hw h hext hs ht hfinal

/-- A script, and another one in a folder. -/
def scriptTree : FileTree where
  entries := [(["a.py".toList], .ofText "x".toList), (["sub".toList], .directory),
    (["b.py".toList, "sub".toList], .ofText "y".toList)]
  here := []

def scriptOptions : ConvertOptions := { Settings.initial.toOptions with recursive := true }

def scriptPlan : BatchPlan where
  root := .ofString "."
  targets := [.ofString "./a.py", .ofString "./sub/b.py"]
  outputDir := .ofString "./notebooks"

theorem scriptTree_inputs_kept :
    make scriptTree (.ofString ".") scriptOptions =
        (scriptTree.set ["notebooks".toList] .directory, .ok scriptPlan) ∧
      ∀ t ∈ scriptPlan.targets,
        (scriptPlan.run scriptOptions (scriptTree.set ["notebooks".toList] .directory)
          (.sequential 0)).tree.readBytes t = scriptTree.readBytes t := by
  have hw : scriptTree.WellFormed := by decide +kernel
  have hf : scriptTree.LinkFree :=
    FileTree.linkFree_of_entries (by simp [scriptTree, FileTree.Entry.ofText])
  have h : make scriptTree (.ofString ".") scriptOptions =
      (scriptTree.set ["notebooks".toList] .directory, .ok scriptPlan) := by
    decide +kernel
  obtain ⟨-, -, -, hkept⟩ := inputs_kept hw hf h
  exact ⟨h, (hkept (by decide)).2 scriptOptions (.sequential 0)⟩

/-- A script that is named like a notebook. -/
def notebookTree : FileTree where
  entries := [(["a.ipynb".toList], .file .empty)]
  here := []

def notebookOptions : ConvertOptions :=
  { Settings.initial.toOptions with
    extension := notebookExtension
    outputDir := some (.ofString ".") }

def notebookPlan : BatchPlan where
  root := .ofString ""
  targets := [.ofString "a.ipynb"]
  outputDir := .ofString "."

/-- With the folder of the input for the notebooks, such a script is written over. -/
theorem notebookTree_input_lost :
    notebookTree.WellFormed ∧ notebookTree.LinkFree ∧
      make notebookTree (.ofString "a.ipynb") notebookOptions = (notebookTree, .ok notebookPlan) ∧
      notebookTree.SameFile (notebookPlan.output (.ofString "a.ipynb")) (.ofString "a.ipynb") ∧
      (notebookPlan.run notebookOptions notebookTree (.sequential 0)).tree.readBytes
        (.ofString "a.ipynb") ≠ notebookTree.readBytes (.ofString "a.ipynb") := by
  refine ⟨by decide +kernel, ?_, by decide +kernel, ?_, by decide +kernel⟩
  · exact FileTree.linkFree_of_entries (by simp [notebookTree])
  · exact ⟨["a.ipynb".toList], by decide +kernel, by decide +kernel⟩

end BatchPlan

end ScriptNotebook
