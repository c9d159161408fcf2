import ScriptNotebook.Proofs.BatchUpdates
import ScriptNotebook.Proofs.OutputPaths

/-!
When two targets of a plan go to one output.  Extensions are compared without regard to case and
then dropped, so targets clash exactly where they are twins: in one folder, with one stem, their
extensions apart in case only.
-/
namespace ScriptNotebook

/-- Scripts side by side whose names differ in the case of the extension only. -/
def Path.CaseTwins (p q : Path) : Prop :=
  p.components.dropLast = q.components.dropLast ∧ p.stem = q.stem ∧
    p.extension? ≠ q.extension? ∧
    p.extension?.map (List.map foldAscii) = q.extension?.map (List.map foldAscii)

instance (p q : Path) : Decidable (p.CaseTwins q) :=
  inferInstanceAs (Decidable (_ ∧ _ ∧ _ ∧ _))

namespace FileTree.ScriptUnder

variable {tree : FileTree} {folder p q : Path} {extension : Text} {names names' : List Text}

theorem exists_last (h : tree.ScriptUnder folder extension names p) :
    ∃ dirs own, names = dirs ++ [p.stem ++ '.' :: own] ∧
      p.components = folder.components ++ dirs.map .name ++ [.name (p.stem ++ '.' :: own)] ∧
      p.extension? = some own ∧ own.map foldAscii = extension.map foldAscii := by
  obtain ⟨front, own, hf, -, he, hfold⟩ := Path.exists_of_hasExtension h.hasExtension
  obtain ⟨dirs, last, rfl⟩ := (List.eq_nil_or_concat names).resolve_left h.nonempty
  have hc := h.components
  rw [List.concat_eq_append, List.map_append, ← List.append_assoc] at hc
  have hlast : last = p.stem ++ '.' :: own := by
    have hl := (List.append_inj' (hf.symm.trans hc) rfl).2
    simpa using hl.symm
  subst hlast
  exact ⟨dirs, own, List.concat_eq_append, hc, he, hfold⟩

/-- Two scripts collected in one folder have one output exactly if they are one or twins. -/
theorem outputs_eq_iff (hp : tree.ScriptUnder folder extension names p)
    (hq : tree.ScriptUnder folder extension names' q) (outputDir : Path) :
    (outputPath p folder outputDir).components = (outputPath q folder outputDir).components ↔
      p = q ∨ p.CaseTwins q := by
  obtain ⟨dirs, own, rfl, hc, he, hfold⟩ := hp.exists_last
  obtain ⟨dirs', own', rfl, hc', he', hfold'⟩ := hq.exists_last
  have hinj := List.map_injective_iff.mpr fun _ _ => Path.Component.name.inj
  have hsame : (outputPath p folder outputDir).components =
      (outputPath q folder outputDir).components ↔ dirs = dirs' ∧ p.stem = q.stem := by
    rw [components_outputPath hc, components_outputPath hc']
    constructor
    · intro h
      have hn := hinj (List.append_cancel_left h)
      obtain ⟨hdirs, hlast⟩ := List.append_inj' hn rfl
      exact ⟨hdirs, List.append_cancel_right (List.singleton_inj.mp hlast)⟩
    · rintro ⟨rfl, hstem⟩
      rw [hstem]
  rw [hsame]
  constructor
  · -- The extensions are the given one but for case, so only their own spelling is left.
    rintro ⟨rfl, hstem⟩
    by_cases hown : own = own'
    · left
      rw [hp.path, hq.path, hstem, hown]
    · right
      refine ⟨by rw [hc, hc', List.dropLast_concat, List.dropLast_concat], hstem, ?_, ?_⟩
      · simpa [he, he'] using hown
      · simp [he, he', hfold, hfold']
  · intro h
    have hplace : p.components.dropLast = q.components.dropLast ∧ p.stem = q.stem := by
      rcases h with rfl | ⟨hfront, hstem, -, -⟩
      · exact ⟨rfl, rfl⟩
      · exact ⟨hfront, hstem⟩
    rw [hc, hc', List.dropLast_concat, List.dropLast_concat] at hplace
    exact ⟨hinj (List.append_cancel_left hplace.1), hplace.2⟩

/-- Without links on the way, outputs are one file only if they are one path. -/
theorem outputs_eq_of_sameFile (hp : tree.ScriptUnder folder extension names p)
    (hq : tree.ScriptUnder folder extension names' q) {outputDir : Path} {later : FileTree}
    (hf : later.LinkFree)
    (h : later.SameFile (outputPath p folder outputDir) (outputPath q folder outputDir)) :
    (outputPath p folder outputDir).components = (outputPath q folder outputDir).components := by
  obtain ⟨dirs, own, -, hc, -, -⟩ := hp.exists_last
  obtain ⟨dirs', own', -, hc', -, -⟩ := hq.exists_last
  have hl := h.landing_eq hf
  rw [Path.landing_of_components (components_outputPath hc outputDir),
    Path.landing_of_components (components_outputPath hc' outputDir)] at hl
  rw [components_outputPath hc, components_outputPath hc',
    List.reverse_injective (List.append_cancel_right hl)]

end FileTree.ScriptUnder

namespace BatchPlan

variable {tree planned : FileTree} {input : Path} {options : ConvertOptions} {plan : BatchPlan}

theorem targets_nodup (hw : tree.WellFormed)
    (h : make tree input options = (planned, .ok plan)) : plan.targets.Nodup := by
  rcases FileTree.collectTargets_ok hw (make_ok h).1 with ⟨-, -, ht⟩ | ⟨hn, -⟩
  · rw [ht]
    exact List.nodup_singleton input
  · exact hn

theorem targets_pair (hw : tree.WellFormed) (h : make tree input options = (planned, .ok plan))
    {s t : Path} (hs : s ∈ plan.targets) (ht : t ∈ plan.targets) :
    s = t ∨ plan.root = input ∧
      (∃ names, tree.ScriptUnder input options.extension names s) ∧
      ∃ names, tree.ScriptUnder input options.extension names t := by
  obtain ⟨hcollect, -, hroot, -, hupdates⟩ := make_ok h
  rcases FileTree.collectTargets_ok hw hcollect with ⟨-, -, hone⟩ | ⟨-, hall⟩
  · rw [hone, List.mem_singleton] at hs ht
    exact Or.inl (hs.trans ht.symm)
  · obtain ⟨names, hunder⟩ := hall s hs
    have hd : planned.isDirectory input :=
      (hupdates fun _ => False).isDirectory (hunder.isDirectory hw)
    rw [if_pos hd] at hroot
    exact Or.inr ⟨hroot, ⟨names, hunder⟩, hall t ht⟩

theorem outputs_eq_iff (hw : tree.WellFormed) (h : make tree input options = (planned, .ok plan))
    {s t : Path} (hs : s ∈ plan.targets) (ht : t ∈ plan.targets) :
    (plan.output s).components = (plan.output t).components ↔ s = t ∨ s.CaseTwins t := by
  rcases targets_pair hw h hs ht with rfl | ⟨hroot, ⟨names, hs⟩, names', ht⟩
  · exact ⟨fun _ => Or.inl rfl, fun _ => rfl⟩
  · rw [output, output, hroot]
    exact hs.outputs_eq_iff ht plan.outputDir

theorem twins_of_sameFile (hw : tree.WellFormed)
    (h : make tree input options = (planned, .ok plan)) {s t : Path} (hs : s ∈ plan.targets)
    (ht : t ∈ plan.targets) {later : FileTree} (hf : later.LinkFree)
    (hsame : later.SameFile (plan.output s) (plan.output t)) : s = t ∨ s.CaseTwins t := by
  refine (outputs_eq_iff hw h hs ht).mp ?_
  rcases targets_pair hw h hs ht with rfl | ⟨hroot, ⟨names, hs⟩, names', ht⟩
  · rfl
  · rw [output, output, hroot] at hsame ⊢
    exact hs.outputs_eq_of_sameFile ht hf hsame

/-- Targets of a plan are different scripts, two of them have one output exactly if they are twins,
and a notebook that has been written for a target is still there after the batch if the outputs
that follow lead elsewhere, as without links they do for all but twins of the target. -/
theorem outputs_clash_iff_twins (hw : tree.WellFormed)
    (h : make tree input options = (planned, .ok plan)) :
    plan.targets.Nodup ∧
      (∀ s ∈ plan.targets, ∀ t ∈ plan.targets,
        (plan.output s).components = (plan.output t).components ↔ s = t ∨ s.CaseTwins t) ∧
      ∀ (runOptions : ConvertOptions) (ids : IdSupply) (front rest : List Path) (target : Path)
        (content : ByteArray), plan.targets = front ++ target :: rest →
        ((plan.start planned ids).convertFrom plan runOptions 1 (front ++ [target])).tree.readBytes
          (plan.output target) = .ok content →
        ((∀ s ∈ rest, ¬ (plan.run runOptions planned ids).tree.SameFile (plan.output s)
            (plan.output target)) ∨
          tree.LinkFree ∧ ∀ s ∈ rest, ¬ s.CaseTwins target) →
        (plan.run runOptions planned ids).tree.readBytes (plan.output target) = .ok content := by
  have hnodup := targets_nodup hw h
  refine ⟨hnodup, fun s hs t ht => outputs_eq_iff hw h hs ht, ?_⟩
  intro runOptions ids front rest target content hsplit hread hapart
  obtain ⟨-, -, -, hwell, -⟩ := make_ok h
  have happart : ∀ s ∈ rest, ¬ (plan.run runOptions planned ids).tree.SameFile (plan.output s)
      (plan.output target) := by
    rcases hapart with hapart | ⟨hf, htwins⟩
    · exact hapart
    · intro s hs hsame
      have hfinal := run_linkFree hw hf h runOptions ids
      have hst : s ∈ plan.targets := by simp [hsplit, hs]
      have htt : target ∈ plan.targets := by simp [hsplit]
      rcases twins_of_sameFile hw h hst htt hfinal hsame with rfl | htwin
      · rw [hsplit] at hnodup
        exact (List.nodup_cons.mp (List.nodup_append.mp hnodup).2.1).1 hs
      · exact htwins s hs htwin
  have hsplit' : plan.targets = (front ++ [target]) ++ rest := by simp [hsplit]
  rw [run_readBytes_eq plan runOptions (hwell hw) ids hsplit' ?_ happart, hread]
  intro hn
  simp [FileTree.readBytes, hn, bind, Except.bind] at hread

/-- Three scripts, two of them twins. -/
def caseTree : FileTree where
  entries := [(["a.PY".toList], .ofText "x".toList), (["a.py".toList], .ofText "y".toList),
    (["b.py".toList], .ofText "z".toList)]
  here := []

def casePlanned : FileTree := caseTree.set ["notebooks".toList] .directory

def casePlan : BatchPlan where
  root := .ofString "."
  targets := [.ofString "./a.PY", .ofString "./a.py", .ofString "./b.py"]
  outputDir := .ofString "./notebooks"

theorem make_caseTree :
    make caseTree (.ofString ".") Settings.initial.toOptions = (casePlanned, .ok casePlan) := by
  decide +kernel

theorem caseTree_outputs :
    (∀ s ∈ casePlan.targets, ∀ t ∈ casePlan.targets,
        (casePlan.output s).components = (casePlan.output t).components ↔
          s = t ∨ s.CaseTwins t) ∧
      ∃ content,
        (casePlan.run Settings.initial.toOptions casePlanned (.sequential 0)).tree.readBytes
          (casePlan.output (.ofString "./a.py")) = .ok content := by
  have hw : caseTree.WellFormed := by decide +kernel
  obtain ⟨-, houtputs, hkept⟩ := outputs_clash_iff_twins hw make_caseTree
  have hread : (((casePlan.start casePlanned (.sequential 0)).convertFrom casePlan
      Settings.initial.toOptions 1 ([.ofString "./a.PY"] ++ [.ofString "./a.py"])).tree.readBytes
        (casePlan.output (.ofString "./a.py"))).isOk = true := by
    decide +kernel
  obtain ⟨content, hcontent⟩ := exists_of_isOk hread
  have hf : caseTree.LinkFree :=
    FileTree.linkFree_of_entries (by simp [caseTree, FileTree.Entry.ofText])
  exact ⟨houtputs, content, hkept _ _ [.ofString "./a.PY"] [.ofString "./b.py"] _ content rfl
    hcontent (Or.inr ⟨hf, by decide⟩)⟩

/-- Both twins count as converted, to one notebook. -/
theorem caseTree_twins_share_output :
    make caseTree (.ofString ".") Settings.initial.toOptions = (casePlanned, .ok casePlan) ∧
      ((casePlan.run Settings.initial.toOptions casePlanned (.sequential 0)).report.converted.map
        fun file => (file.input, file.output)) =
        [(.ofString "./a.PY", .ofString "./notebooks/a.ipynb"),
          (.ofString "./a.py", .ofString "./notebooks/a.ipynb"),
          (.ofString "./b.py", .ofString "./notebooks/b.ipynb")] :=
  ⟨make_caseTree, by decide +kernel⟩

end BatchPlan

end ScriptNotebook
