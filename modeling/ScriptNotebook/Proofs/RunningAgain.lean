import ScriptNotebook.Proofs.BatchOutcome
import ScriptNotebook.Proofs.ConvertingAgain
import ScriptNotebook.Proofs.OutputClashes
import ScriptNotebook.Proofs.PlanningAgain

/-!
Batches run again.  In a tree without links, a plan for another extension than that of notebooks is
made again after its batch, and its second run changes nothing and reports what the first reported.
-/
namespace ScriptNotebook

namespace FileTree

variable {tree later : FileTree} {p q : Path} {written : Location → Prop}

theorem belowDirectory_of_names {directory : Path} {location : Location}
    (henter : tree.enter directory = .ok location) {names : List Text} {above : Path}
    (hp : p.parent? = some above)
    (hc : above.components = directory.components ++ names.map .name) :
    tree.BelowDirectory above := by
  induction names using List.reverseRecOn generalizing p above with
  | nil =>
    rw [List.map_nil, List.append_nil] at hc
    exact .directory ((enter_congr hc).trans henter)
  | append_singleton names name ih =>
    rw [List.map_append, ← List.append_assoc] at hc
    obtain ⟨next, hnext, hfront⟩ := exists_nameIn hp hc
    exact .name hnext (ih hnext.parent hfront)

end FileTree

namespace BatchRun

theorem record_with_tree (run : BatchRun) (input : Path) (position total : Nat)
    (again after after' : FileTree) (left : IdSupply) (result : Except Failure ConvertedFile) :
    ({ run with tree := again } : BatchRun).record input position total (after', left, result) =
      { run.record input position total (after, left, result) with tree := after' } := by
  cases result <;> rfl

end BatchRun

namespace BatchPlan

variable {tree planned last : FileTree} {input : Path} {options : ConvertOptions}
  {plan : BatchPlan}

theorem exists_names_of_mem (hw : tree.WellFormed)
    (h : make tree input options = (planned, .ok plan)) {target : Path}
    (ht : target ∈ plan.targets) :
    ∃ (names : List Text) (name : Text), target.components =
      plan.root.components ++ names.map .name ++ [.name name] := by
  obtain ⟨hcollect, -, hroot, -, hupdates⟩ := make_ok h
  have hsame := FileTree.isDirectory_later hw (hupdates fun _ => False) hcollect
  rcases FileTree.collectTargets_ok hw hcollect with ⟨hfile, -, hone⟩ | ⟨-, hall⟩
  · rw [hone, List.mem_singleton] at ht
    subst ht
    obtain ⟨front, own, hc, -, -, -⟩ := Path.exists_of_hasExtension (hasExtension_of_mem hw h
      (hone ▸ List.mem_singleton_self target))
    obtain ⟨above, habove, hfront⟩ := Path.exists_parent hc
    rw [hsame, FileTree.isDirectory_of_isFile hfile, if_neg Bool.false_ne_true, habove,
      Option.getD_some] at hroot
    exact ⟨[], _, by rw [hroot, hfront, hc, List.map_nil, List.append_nil]⟩
  · obtain ⟨names, hunder⟩ := hall target ht
    rw [hsame, if_pos (hunder.isDirectory hw)] at hroot
    obtain ⟨dirs, own, -, hc, -⟩ := hunder.exists_last
    exact ⟨dirs, _, by rw [hroot, hc]⟩

/-- An output is a name in a folder that names lead to from the output folder. -/
theorem output_below (hw : tree.WellFormed) (h : make tree input options = (planned, .ok plan))
    {target : Path} (ht : target ∈ plan.targets) {at_ : FileTree} {location : Location}
    (henter : at_.enter plan.outputDir = .ok location) :
    FileTree.endsInSlash (plan.output target) = false ∧
      ∃ above name, FileTree.NameIn (plan.output target) above name ∧
        at_.BelowDirectory above := by
  have hn := Path.isName_output target
  refine ⟨FileTree.endsInSlash_join _ hn, ?_⟩
  obtain ⟨above, hname, -⟩ := FileTree.exists_nameIn_join _ hn
  refine ⟨above, _, hname, ?_⟩
  obtain ⟨names, name, hc⟩ := exists_names_of_mem hw h ht
  have hout := components_outputPath hc plan.outputDir
  rw [List.map_append, ← List.append_assoc] at hout
  have hc' := hname.components
  have habove : above.components = plan.outputDir.components ++ names.map .name :=
    (List.append_inj' (hc'.symm.trans hout) rfl).1
  exact FileTree.belowDirectory_of_names henter hname.parent habove

variable (ids : IdSupply)

theorem after_readText (hw : tree.WellFormed) (hf : tree.LinkFree)
    (h : make tree input options = (planned, .ok plan))
    (hext : options.extension.map foldAscii ≠ notebookExtension) {later : FileTree}
    {written : Location → Prop} (hu : FileTree.Updates written tree later)
    (hw' : later.WellFormed) {target : Path} (ht : target ∈ plan.targets)
    (hr : later.readBytes target = tree.readBytes target) {front : List Path}
    (hfront : ∀ s ∈ front, s ∈ plan.targets) :
    (plan.after options later ids front).tree.readText target = tree.readText target := by
  have hafter := plan.after_updates_leadsTo options ids hw' front
  have hfree := hafter.linkFree (hu.linkFree hf)
  have hb := hafter.readBytes_eq (hu.lookup_ne (lookup_ne_of_mem hw hf h ht)) fun location hl => by
    rintro ⟨s, hs, hlead⟩
    exact not_sameFile_of_extension hw h hext (hfront s hs) ht hfree
      ⟨location, hlead, hafter.locate_ok hl⟩
  rw [FileTree.readText, hb, hr]
  rfl

theorem run_eq_after (plan : BatchPlan) (options : ConvertOptions) (tree : FileTree) :
    plan.run options tree ids =
      { plan.after options tree ids plan.targets with
        events := (plan.after options tree ids plan.targets).events ++
          [.done (plan.after options tree ids plan.targets).report] } := rfl

/-- What comes after some of the targets only adds to the tree. -/
theorem after_updates_run (hw : tree.WellFormed) {front rest : List Path}
    (hs : plan.targets = front ++ rest) :
    FileTree.Updates (fun _ => True) (plan.after options tree ids front).tree
      (plan.run options tree ids).tree := by
  have hmid := plan.after_wellFormed options ids hw front
  rw [run_tree, hs, BatchRun.convertFrom_append]
  exact (BatchRun.convertFrom_updates plan options hmid (1 + front.length) rest).2.mono
    fun _ _ => trivial

/-- Before each turn the second run differs from the first in its tree alone. -/
theorem after_again (hw : tree.WellFormed) (hf : tree.LinkFree)
    (h : make tree input options = (planned, .ok plan))
    (hext : options.extension.map foldAscii ≠ notebookExtension) {front rest : List Path}
    (hs : plan.targets = front ++ rest) :
    ∃ again,
      plan.after options (plan.run options planned ids).tree ids front =
        { plan.after options planned ids front with tree := again } ∧
      (plan.after options planned ids front).tree.Between
        (plan.run options planned ids).tree again := by
  obtain ⟨-, -, -, hwell, hupdates⟩ := make_ok h
  have hwp : planned.WellFormed := hwell hw
  have hfp : planned.LinkFree := (hupdates fun _ => False).linkFree hf
  have hlast : (plan.run options planned ids).tree.WellFormed :=
    plan.after_wellFormed options ids hwp plan.targets
  have hrun := (hupdates _).trans (run_updates plan options hwp ids)
  induction front using List.reverseRecOn generalizing rest with
  | nil => exact ⟨_, rfl, .refl, fun _ => Or.inl rfl⟩
  | append_singleton front target ih =>
    have hs' : plan.targets = front ++ target :: rest := by simp [hs]
    have ht : target ∈ plan.targets := by simp [hs']
    have hfront : ∀ s ∈ front, s ∈ plan.targets := fun s hm => by simp [hs', hm]
    obtain ⟨again, hagain, hb⟩ := ih hs'
    have hwS := plan.after_wellFormed options ids hwp front
    have hfS := plan.after_linkFree options ids hwp hfp front
    have huS := plan.after_updates_leadsTo options ids hwp front
    obtain ⟨location, henter⟩ := ((make_settled h).stays hwp hfp huS hwS).exists_enter hwS hfS
    obtain ⟨hslash, above, name, hname, hbelow⟩ := output_below hw h ht henter
    have hread : again.readText target =
        (plan.after options planned ids front).tree.readText target := by
      have hkept := readBytes_of_apart hw hf h options ids ht fun s hs =>
        not_sameFile_of_extension hw h hext hs ht (run_linkFree hw hf h options ids)
      have hfirst := after_readText ids hw hf h hext (hupdates fun _ => False) hwp ht
        (make_readBytes hw hf h ht) hfront
      have hsecond := after_readText ids hw hf h hext hrun hlast ht hkept hfront
      rw [hagain] at hsecond
      rw [hfirst, ← hsecond]
    rcases hc : (plan.after options planned ids front).turn plan options target with
      ⟨after, left, result⟩
    have hafter : (plan.after options planned ids (front ++ [target])).tree = after := by
      rw [after_concat_tree, hc]
    have hu : FileTree.Updates (fun _ => True) after (plan.run options planned ids).tree :=
      hafter ▸ after_updates_run ids hwp hs
    obtain ⟨after', hc', hb'⟩ :=
      hname.convertFile_again hwS hfS hslash hbelow hread hc hu hlast hb
    refine ⟨after', ?_, hafter ▸ hb'⟩
    rw [after_concat, after_concat, hagain, hc, ← BatchRun.record_with_tree, BatchRun.turn, hc']

/-- Planning and running again changes nothing: the plan is the same, the tree stays exactly as it
is, and the run tells and reports what it told and reported the first time. -/
theorem run_again (hw : tree.WellFormed) (hf : tree.LinkFree)
    (h : make tree input options = (planned, .ok plan))
    (hext : options.extension.map foldAscii ≠ notebookExtension) (ids : IdSupply) :
    let first := plan.run options planned ids
    make first.tree input options = (first.tree, .ok plan) ∧
      plan.run options first.tree ids = first := by
  obtain ⟨-, -, -, hwell, hupdates⟩ := make_ok h
  have hwp : planned.WellFormed := hwell hw
  have hlast : (plan.run options planned ids).tree.WellFormed :=
    plan.after_wellFormed options ids hwp plan.targets
  have hnone := noScript_of_extension hw h hext (run_linkFree hw hf h options ids)
  refine ⟨make_later hw hf h (run_updates plan options hwp ids) hlast hnone, ?_⟩
  obtain ⟨again, hagain, hb⟩ := after_again ids hw hf h hext (List.append_nil plan.targets).symm
  -- In the end the contents in between are those of the last tree either way.
  have htree : again = (plan.run options planned ids).tree :=
    hb.rewritten.eq hlast fun location => (hb.either location).elim id id
  rw [run_eq_after ids plan options (plan.run options planned ids).tree, hagain, htree]
  rfl

/-- A directory that is named like a notebook, and a script whose notebook it keeps from its
place. -/
def blockedTree : FileTree where
  entries := [(["a.ipynb".toList], .directory),
    (["b.py".toList, "a.ipynb".toList], .ofText "x".toList), (["a.py".toList], .ofText "y".toList)]
  here := []

def blockedPlanned : FileTree := blockedTree.set ["notebooks".toList] .directory

def blockedPlan : BatchPlan where
  root := .ofString "."
  targets := [.ofString "./a.ipynb/b.py", .ofString "./a.py"]
  outputDir := .ofString "./notebooks"

theorem blockedTree_run_again :
    make blockedTree (.ofString ".") scriptOptions = (blockedPlanned, .ok blockedPlan) ∧
      let first := blockedPlan.run scriptOptions blockedPlanned (.sequential 0)
      first.report.converted.length = 1 ∧
        first.report.failed = [⟨.ofString "./a.py",
          .file (.ofString "./notebooks/a.ipynb") .isDirectory⟩] ∧
        make first.tree (.ofString ".") scriptOptions = (first.tree, .ok blockedPlan) ∧
        blockedPlan.run scriptOptions first.tree (.sequential 0) = first := by
  have hw : blockedTree.WellFormed := by decide +kernel
  have hf : blockedTree.LinkFree :=
    FileTree.linkFree_of_entries (by simp [blockedTree, FileTree.Entry.ofText])
  have h : make blockedTree (.ofString ".") scriptOptions = (blockedPlanned, .ok blockedPlan) := by
    decide +kernel
  exact ⟨h, by decide +kernel, by decide +kernel, run_again hw hf h (by decide) (.sequential 0)⟩

end BatchPlan

end ScriptNotebook
